import Mathlib.Data.List.TakeWhile
import ActionAtlas.CSharp.ParameterReader
import ActionAtlas.Proofs.CSharp.Brackets.Places
import ActionAtlas.Proofs.Text.Cut

/-!
Parameters as they are written, and what is read of them.

A parameter is read from its own tokens, whatever stands beside it. The commas between parameters
are found because types and values keep theirs in brackets of their own, and an angle that waits in
one value does not find its partner in the parameters behind it.
-/

namespace ActionAtlas.CSharp

open Source (TypeSyntax)

namespace Tree

/-! ### Written parameters -/

/-- Attribute lists and modifiers, with comments among them. -/
structure AreLeading (tokens : List Token) : Prop where
  paired : Token.arePaired 0 tokens = true
  leading : ∀ tree ∈ ofTokens tokens, tree.leadsParameter = true

/-- A type, with the comments behind it. Commas and angles stand inside brackets of their own, and
what it begins with is no modifier. -/
structure AreType (tokens : List Token) : Prop where
  paired : Token.arePaired 0 tokens = true
  whole : ∀ tree ∈ ofTokens tokens, ∀ mark ∈ [",", "=", "<", ">"], tree.isMark mark = false
  first : ∃ tree ∈ (ofTokens tokens).head?, tree.leadsParameter = false

/-- An expression, with the comments around it. Angles that compare need no partner. -/
structure AreValue (tokens : List Token) : Prop where
  paired : Token.arePaired 0 tokens = true
  whole : ∀ tree ∈ ofTokens tokens, tree.isMark "," = false
  said : ∃ tree ∈ ofTokens tokens, tree.isComment = false

instance (tokens : List Token) : Decidable (AreLeading tokens) :=
  decidable_of_iff (Token.arePaired 0 tokens = true ∧
      ∀ tree ∈ ofTokens tokens, tree.leadsParameter = true)
    ⟨fun ⟨paired, leading⟩ => ⟨paired, leading⟩, fun ⟨paired, leading⟩ => ⟨paired, leading⟩⟩

instance (tokens : List Token) : Decidable (AreType tokens) :=
  decidable_of_iff (Token.arePaired 0 tokens = true ∧
      (∀ tree ∈ ofTokens tokens, ∀ mark ∈ [",", "=", "<", ">"], tree.isMark mark = false) ∧
        ∃ tree ∈ (ofTokens tokens).head?, tree.leadsParameter = false)
    ⟨fun ⟨paired, whole, first⟩ => ⟨paired, whole, first⟩,
      fun ⟨paired, whole, first⟩ => ⟨paired, whole, first⟩⟩

instance (tokens : List Token) : Decidable (AreValue tokens) :=
  decidable_of_iff (Token.arePaired 0 tokens = true ∧
      (∀ tree ∈ ofTokens tokens, tree.isMark "," = false) ∧
        ∃ tree ∈ ofTokens tokens, tree.isComment = false)
    ⟨fun ⟨paired, whole, said⟩ => ⟨paired, whole, said⟩,
      fun ⟨paired, whole, said⟩ => ⟨paired, whole, said⟩⟩

/-- A parameter as it stands in a list. A `params` array has no value. -/
structure WrittenParameter where
  lead : List Token
  type? : Option (List Token)
  name : Token
  behindName : List Token
  /-- The blanks before the equals sign, and what stands behind it. -/
  value? : Option (List Char × List Token)
  /-- The blanks before the comma that follows, if one does. -/
  gapBehind : List Char
  leading : AreLeading lead
  typed : ∀ type ∈ type?, AreType type
  named : name.kind = .word
  comments : ∀ token ∈ behindName, token.isComment = true
  valued : ∀ value ∈ value?, AreValue value.2
  bare : (∃ tree ∈ ofTokens lead, tree.isWord "params" = true) → value? = none

def equalsSign (gap : List Char) : Token :=
  ⟨.punctuation, gap, ['=']⟩

def comma (gap : List Char) : Token :=
  ⟨.punctuation, gap, [',']⟩

namespace WrittenParameter

variable (p : WrittenParameter)

def valueTokens : List Token :=
  match p.value? with
  | none => []
  | some (gap, value) => equalsSign gap :: value

def tokens : List Token :=
  p.lead ++ (p.type?.getD [] ++ (p.name :: p.behindName ++ p.valueTokens))

def IsArray : Prop :=
  ∃ tree ∈ ofTokens p.lead, tree.isWord "params" = true

/-- The type as it is written; a parameter without one is an object. -/
def writtenType : TypeSyntax :=
  match p.type? with
  | none => .verbatim "object"
  | some type => Tree.type (trimComments (ofTokens type))

/-- The parameter that is declared, with the result of its own default value. -/
def declared : Source.Parameter :=
  { name := String.ofList p.name.text, type := p.writtenType
    default? := p.value?.map fun value => evaluate (ofTokens value.2) }

/-- The last comment behind the first attribute list or modifier. -/
def lastComment? : Option Tree :=
  (((ofTokens p.lead).dropWhile isComment).filter isComment).getLast?

/-- The type that is read: without a written one, a comment takes its place. -/
def readType : TypeSyntax :=
  match p.type? with
  | none =>
    match p.lastComment? with
    | none => .verbatim "object"
    | some comment => .verbatim (slice [comment])
  | some type => Tree.type (trimComments (ofTokens type))

/-- The parameter that is read. -/
def reading : Source.Parameter :=
  { name := String.ofList p.name.text, type := p.readType
    default? := p.value?.bind fun value => evaluateDefault? (ofTokens value.2) }

def valueTrees : List Tree :=
  match p.value? with
  | none => []
  | some (gap, value) => .token (equalsSign gap) :: ofTokens value

def nameTrees : List Tree :=
  .token p.name :: p.behindName.map .token

def declaredTrees : List Tree :=
  ofTokens p.lead ++ (ofTokens (p.type?.getD []) ++ p.nameTrees)

def trees : List Tree :=
  p.declaredTrees ++ p.valueTrees

end WrittenParameter

/-- The tokens of parameters, with commas between them. -/
def listTokens : List WrittenParameter → List Token
  | [] => []
  | [p] => p.tokens
  | p :: next :: others => p.tokens ++ comma p.gapBehind :: listTokens (next :: others)

/-- The trees that these tokens form between parentheses. -/
def listTrees : List WrittenParameter → List Tree
  | [] => []
  | [p] => p.trees
  | p :: next :: others => p.trees ++ .token (comma p.gapBehind) :: listTrees (next :: others)

/-! ### Forms -/

theorem isMark_of_leadsParameter {tree : Tree} (leads : tree.leadsParameter = true)
    (spelling : String) : tree.isMark spelling = false := by
  cases tree with
  | group _ _ _ => rfl
  | token t =>
      cases mark : t.kind == .punctuation with
      | false => simp [isMark, Token.isMark, mark]
      | true =>
          rw [beq_iff_eq] at mark
          simp [leadsParameter, isComment, Token.isComment, isGroup, inside?, isWord, Token.isWord,
            mark] at leads

theorem AreLeading.forms {tokens : List Token} (leading : AreLeading tokens) :
    Forms tokens (ofTokens tokens) :=
  forms_ofTokens leading.paired fun tree inside =>
    ⟨isMark_of_leadsParameter (leading.leading tree inside) "<",
      isMark_of_leadsParameter (leading.leading tree inside) ">"⟩

theorem AreType.forms {tokens : List Token} (type : AreType tokens) :
    Forms tokens (ofTokens tokens) :=
  forms_ofTokens type.paired fun tree inside =>
    ⟨type.whole tree inside "<" (by simp), type.whole tree inside ">" (by simp)⟩

theorem ofTokens_nil : ofTokens [] = [] := by
  simp [ofTokens, Nesting.finish]

theorem forms_nil : Forms [] [] :=
  fun _ => rfl

theorem forms_comments {tokens : List Token} (comments : ∀ token ∈ tokens, token.isComment = true) :
    Forms tokens (tokens.map .token) := by
  induction tokens with
  | nil => exact forms_nil
  | cons token others ih =>
      rw [List.forall_mem_cons] at comments
      have unpunctuated : token.kind ≠ .punctuation := by
        rw [eq_of_beq comments.1]
        nofun
      exact (forms_of_unpunctuated unpunctuated).append (ih comments.2)

namespace WrittenParameter

variable (p : WrittenParameter)

theorem forms_type : Forms (p.type?.getD []) (ofTokens (p.type?.getD [])) := by
  have typed := p.typed
  cases given : p.type? with
  | none =>
      rw [Option.getD_none, ofTokens_nil]
      exact forms_nil
  | some type => exact (typed type given).forms

theorem formsLoosely_value : FormsLoosely p.valueTokens p.valueTrees := by
  have valued := p.valued
  rw [valueTokens, valueTrees]
  cases given : p.value? with
  | none => exact forms_nil.loosely
  | some value => exact formsLoosely_equals rfl (valued value given).paired

theorem formsLoosely : FormsLoosely p.tokens p.trees := by
  have name : Forms (p.name :: p.behindName) p.nameTrees :=
    (forms_of_unpunctuated (by rw [p.named]; nofun)).append (forms_comments p.comments)
  have whole := p.leading.forms.loosely.append
    (p.forms_type.loosely.append (name.loosely.append p.formsLoosely_value))
  rw [trees, declaredTrees, List.append_assoc, List.append_assoc]
  exact whole

end WrittenParameter

theorem forms_comma (gap : List Char) : Forms [comma gap] [.token (comma gap)] :=
  fun _ => rfl

theorem formsLoosely_list (ps : List WrittenParameter) :
    FormsLoosely (listTokens ps) (listTrees ps) := by
  induction ps using listTokens.induct with
  | case1 => exact forms_nil.loosely
  | case2 p => exact p.formsLoosely
  | case3 p next others ih =>
      -- an angle that a value leaves open is still open at the comma
      exact p.formsLoosely.append ((forms_comma p.gapBehind).loosely.append ih)

/-! ### Cuts -/

theorem cutAt?_of_no_mark {spelling : String} {trees : List Tree}
    (none : ∀ tree ∈ trees, tree.isMark spelling = false) : cutAt? spelling trees = Option.none := by
  induction trees with
  | nil => rfl
  | cons tree others ih =>
      rw [List.forall_mem_cons] at none
      rw [cutAt?, none.1, if_neg Bool.false_ne_true, ih none.2, Option.map_none]

theorem cutAt?_append {spelling : String} {before : List Tree} {mark : Tree}
    (none : ∀ tree ∈ before, tree.isMark spelling = false) (marks : mark.isMark spelling = true)
    (behind : List Tree) : cutAt? spelling (before ++ mark :: behind) = some (before, behind) := by
  induction before with
  | nil => rw [List.nil_append, cutAt?, if_pos marks]
  | cons tree others ih =>
      rw [List.forall_mem_cons] at none
      rw [List.cons_append, cutAt?, none.1, if_neg Bool.false_ne_true, ih none.2, Option.map_some]

namespace WrittenParameter

variable (p : WrittenParameter)

theorem isMark_name (spelling : String) : ∀ tree ∈ p.nameTrees, tree.isMark spelling = false := by
  intro tree inside
  rcases List.mem_cons.mp inside with rfl | behind
  · simp [isMark, Token.isMark, p.named]
  · obtain ⟨token, member, rfl⟩ := List.mem_map.mp behind
    have comment := eq_of_beq (p.comments token member)
    simp [isMark, Token.isMark, comment]

theorem isMark_type {spelling : String} (mark : spelling ∈ [",", "=", "<", ">"]) :
    ∀ tree ∈ ofTokens (p.type?.getD []), tree.isMark spelling = false := by
  have typed := p.typed
  cases given : p.type? with
  | none => simp [ofTokens_nil]
  | some type => exact fun tree inside => (typed type given).whole tree inside spelling mark

theorem isMark_declared {spelling : String} (mark : spelling ∈ [",", "=", "<", ">"]) :
    ∀ tree ∈ p.declaredTrees, tree.isMark spelling = false := by
  intro tree inside
  rw [declaredTrees, List.mem_append, List.mem_append] at inside
  rcases inside with leads | type | name
  · exact isMark_of_leadsParameter (p.leading.leading tree leads) spelling
  · exact p.isMark_type mark tree type
  · exact p.isMark_name spelling tree name

theorem cutAt?_trees : cutAt? "=" p.trees =
    p.value?.map fun value => (p.declaredTrees, ofTokens value.2) := by
  have none : ∀ tree ∈ p.declaredTrees, tree.isMark "=" = false := p.isMark_declared (by simp)
  rw [trees, valueTrees]
  cases p.value? with
  | none => rw [List.append_nil, cutAt?_of_no_mark none, Option.map_none]
  | some value => exact cutAt?_append none rfl (ofTokens value.2)

theorem undivided : ∀ tree ∈ p.trees, tree.isMark "," = false := by
  have valued := p.valued
  intro tree inside
  rw [trees, List.mem_append] at inside
  rcases inside with declared | value
  · exact p.isMark_declared (by simp) tree declared
  · rw [valueTrees] at value
    cases given : p.value? with
    | none =>
        rw [given] at value
        cases value
    | some written =>
        rw [given] at value
        rcases List.mem_cons.mp value with rfl | behind
        · rfl
        · exact (valued written given).whole tree behind

/-! ### Reading -/

theorem trimComments_cons_ne_nil {first : Tree} (said : first.isComment = false)
    (others : List Tree) : trimComments (first :: others) ≠ [] := by
  have kept : (first :: others).dropWhile isComment = first :: others :=
    List.dropWhile_cons_of_neg (by rw [said]; exact Bool.false_ne_true)
  rw [trimComments, kept, ne_eq, List.reverse_eq_nil_iff, List.dropWhile_eq_nil_iff]
  intro silent
  have comment := silent first (List.mem_reverse.mpr List.mem_cons_self)
  exact Bool.false_ne_true (said.symm.trans comment)

theorem parameterType_written :
    parameterType (ofTokens p.lead ++ ofTokens (p.type?.getD [])) = p.readType := by
  have typed := p.typed
  rw [readType, parameterType, List.dropWhile_append_of_pos p.leading.leading]
  cases given : p.type? with
  | none =>
      rw [Option.getD_none, ofTokens_nil, List.append_nil, lastComment?]
      cases (((ofTokens p.lead).dropWhile isComment).filter isComment).getLast? <;> rfl
  | some type =>
      -- what the type begins with stops both the modifiers and the comments
      obtain ⟨first, isFirst, plain⟩ := (typed type given).first
      obtain ⟨others, trees⟩ := List.head?_eq_some_iff.mp isFirst
      have said : first.isComment = false := by
        rw [leadsParameter, Bool.or_eq_false_iff, Bool.or_eq_false_iff] at plain
        exact plain.1.1
      have kept : (ofTokens type).dropWhile leadsParameter = ofTokens type := by
        rw [trees, List.dropWhile_cons_of_neg (by rw [plain]; exact Bool.false_ne_true)]
      have written : (trimComments (ofTokens type)).isEmpty = false := by
        rw [List.isEmpty_eq_false_iff, trees]
        exact trimComments_cons_ne_nil said others
      simp only [Option.getD_some, kept, written, Bool.false_eq_true, if_false]

theorem dropWhile_reverse_declaredTrees :
    p.declaredTrees.reverse.dropWhile isComment =
      .token p.name :: (ofTokens p.lead ++ ofTokens (p.type?.getD [])).reverse := by
  have silent : ∀ tree ∈ (p.behindName.map Tree.token).reverse, tree.isComment = true := by
    intro tree inside
    obtain ⟨token, member, rfl⟩ := List.mem_map.mp (List.mem_reverse.mp inside)
    exact p.comments token member
  have said : (Tree.token p.name).isComment ≠ true := by
    simp [isComment, Token.isComment, p.named]
  rw [declaredTrees, nameTrees, ← List.append_assoc, List.reverse_append, List.reverse_cons,
    List.append_assoc, List.dropWhile_append_of_pos silent, List.singleton_append,
    List.dropWhile_cons_of_neg said]

theorem parameter?_trees : parameter? p.trees = some p.reading := by
  have word : (Tree.token p.name).word? = some (String.ofList p.name.text) := by
    rw [word?, if_pos p.named]
  rw [parameter?, cutAt?_trees, reading]
  cases given : p.value? with
  | none =>
      have whole : p.trees = p.declaredTrees := by
        rw [trees, valueTrees, given, List.append_nil]
      simp only [Option.map_none, whole, dropWhile_reverse_declaredTrees, word, Option.map_some,
        List.reverse_reverse, parameterType_written, Option.bind_none]
  | some value =>
      simp only [dropWhile_reverse_declaredTrees, word, Option.map_some, List.reverse_reverse,
        parameterType_written, Option.bind_some]

end WrittenParameter

theorem commaPieces_listTrees {ps : List WrittenParameter} (some : ps ≠ []) :
    commaPieces (listTrees ps) = ps.map WrittenParameter.trees := by
  induction ps using listTrees.induct with
  | case1 => exact absurd rfl some
  | case2 p => exact Text.runs_of_no_mark p.undivided
  | case3 p next others ih =>
      have first : commaPieces p.trees = [p.trees] := Text.runs_of_no_mark p.undivided
      rw [listTrees, List.map_cons, ← ih (List.cons_ne_nil next others), commaPieces,
        Text.runs_append rfl, ← commaPieces, first]
      rfl

theorem parameters_listTrees (ps : List WrittenParameter) :
    parameters (listTrees ps) = ps.map WrittenParameter.reading := by
  cases ps with
  | nil => rfl
  | cons p others =>
      have each : parameter? ∘ WrittenParameter.trees = some ∘ WrittenParameter.reading :=
        funext WrittenParameter.parameter?_trees
      rw [parameters, commaPieces_listTrees (List.cons_ne_nil p others), List.filterMap_map, each,
        List.filterMap_eq_map]

/-! ### Mistakes -/

/-- A default value that is not read as what it says. A comment in front of it is taken for the
value, and the instance by itself is taken for none. -/
inductive IsMistaken : List Tree → Prop where
  | behindComment {first : Tree} {others : List Tree} (comment : first.isComment = true)
      (other : evaluate (first :: others) ≠ .unresolved (slice [first])) :
      IsMistaken (first :: others)
  | instanceAlone {first : Tree} {others : List Tree} (said : first.isComment = false)
      (alone : isInstanceAlone (first :: others) = true) : IsMistaken (first :: others)

theorem evaluateDefault?_eq_iff {value : List Tree} (written : value ≠ []) :
    evaluateDefault? value = some (evaluate value) ↔ ¬IsMistaken value := by
  cases value with
  | nil => exact absurd rfl written
  | cons first others =>
      rw [evaluateDefault?]
      cases comment : first.isComment with
      | true =>
          rw [if_pos rfl, Option.some_inj]
          constructor
          · rintro same (⟨-, other⟩ | ⟨said, -⟩)
            · exact other same.symm
            · rw [comment] at said
              cases said
          · intro right
            by_contra other
            exact right (.behindComment comment (Ne.symm other))
      | false =>
          rw [if_neg Bool.false_ne_true]
          split
          · next alone => simp [IsMistaken.instanceAlone comment alone]
          · next together =>
            refine iff_of_true rfl ?_
            rintro (⟨silent, -⟩ | ⟨-, alone⟩)
            · rw [comment] at silent
              cases silent
            · exact together alone

namespace WrittenParameter

/-- A parameter that is not read as it is declared, by itself and wherever it stands. -/
inductive IsMisread (p : WrittenParameter) : Prop where
  | type {comment : Tree} (untyped : p.type? = none) (last : p.lastComment? = some comment)
      (other : slice [comment] ≠ "object")
  | value {gap : List Char} {value : List Token} (given : p.value? = some (gap, value))
      (mistaken : IsMistaken (ofTokens value))

variable (p : WrittenParameter)

theorem readType_eq_iff : p.readType = p.writtenType ↔
    ∀ comment, p.type? = none → p.lastComment? = some comment → slice [comment] = "object" := by
  rw [readType, writtenType]
  cases p.type? with
  | some type => simp
  | none =>
      cases p.lastComment? with
      | none => simp
      | some comment => simp

theorem default?_eq_iff :
    (p.value?.bind fun value => evaluateDefault? (ofTokens value.2)) =
        (p.value?.map fun value => evaluate (ofTokens value.2)) ↔
      ∀ gap value, p.value? = some (gap, value) → ¬IsMistaken (ofTokens value) := by
  have valued := p.valued
  cases given : p.value? with
  | none => simp
  | some value =>
      obtain ⟨tree, inside, -⟩ := (valued value given).said
      rw [Option.bind_some, Option.map_some, evaluateDefault?_eq_iff (List.ne_nil_of_mem inside)]
      constructor
      · rintro right gap written ⟨⟩
        exact right
      · intro right
        exact right value.1 value.2 rfl

theorem reading_eq_iff : p.reading = p.declared ↔ ¬p.IsMisread := by
  rw [reading, declared, Source.Parameter.mk.injEq, readType_eq_iff, default?_eq_iff]
  constructor
  · rintro ⟨-, type, value⟩ (⟨untyped, last, other⟩ | ⟨given, mistaken⟩)
    · exact other (type _ untyped last)
    · exact value _ _ given mistaken
  · intro right
    refine ⟨rfl, fun comment untyped last => ?_, fun gap value given mistaken => ?_⟩
    · by_contra other
      exact right (.type untyped last other)
    · exact right (.value given mistaken)

theorem reading_default?_of_isArray (array : p.IsArray) : p.reading.default? = none := by
  rw [reading, p.bare array]
  rfl

end WrittenParameter

/-- Every parameter is read, in order, and each one from its own tokens. Whether it is read as it is
declared does not depend on the parameters beside it. -/
theorem parameters_read_apart (ps : List WrittenParameter) (gap innerGap : List Char) :
    ∃ inside,
      Forms (parenthesis gap '(' :: (listTokens ps ++ [parenthesis innerGap ')']))
          [.group (parenthesis gap '(') inside (parenthesis innerGap ')')] ∧
        parameters inside = ps.map WrittenParameter.reading ∧
          ∀ p ∈ ps, (p.reading = p.declared ↔ ¬p.IsMisread) ∧
            (p.IsArray → p.reading.default? = none) := by
  have forms := (formsLoosely_list ps).parenthesized gap innerGap
  refine ⟨listTrees ps, forms, parameters_listTrees ps, fun p _ => ⟨p.reading_eq_iff, ?_⟩⟩
  exact p.reading_default?_of_isArray

/-- A list of parameters with a directive in front of a value, angles that compare, and an instance
for a value. -/
def shopText : String :=
  "([FromQuery] int page =\n#region first\n1, bool less = a < b, in List<int> more = c > d, " ++
    "Shop shop = this, params string[] tags)"

def shopParameters : List WrittenParameter :=
  [⟨Token.ofText "[FromQuery]".toList, some (Token.ofText " int".toList),
      ⟨.word, [' '], "page".toList⟩, [], some ([' '], Token.ofText "\n#region first\n1".toList), [],
      by decide +kernel, by decide +kernel, rfl, by decide, by decide +kernel, by decide +kernel⟩,
    ⟨[], some (Token.ofText " bool".toList), ⟨.word, [' '], "less".toList⟩, [],
      some ([' '], Token.ofText " a < b".toList), [],
      by decide +kernel, by decide +kernel, rfl, by decide, by decide +kernel, by decide +kernel⟩,
    ⟨Token.ofText " in".toList, some (Token.ofText " List<int>".toList),
      ⟨.word, [' '], "more".toList⟩, [], some ([' '], Token.ofText " c > d".toList), [],
      by decide +kernel, by decide +kernel, rfl, by decide, by decide +kernel, by decide +kernel⟩,
    ⟨[], some (Token.ofText " Shop".toList), ⟨.word, [' '], "shop".toList⟩, [],
      some ([' '], Token.ofText " this".toList), [],
      by decide +kernel, by decide +kernel, rfl, by decide, by decide +kernel, by decide +kernel⟩,
    ⟨Token.ofText " params".toList, some (Token.ofText " string[]".toList),
      ⟨.word, [' '], "tags".toList⟩, [], none, [],
      by decide +kernel, by decide +kernel, rfl, by decide, by decide +kernel, by decide +kernel⟩]

theorem parameters_read_apart_shop :
    ∃ inside,
      Forms (Token.ofText shopText.toList)
          [.group (parenthesis [] '(') inside (parenthesis [] ')')] ∧
        (parameters inside).map (fun p => (p.name, p.default?)) =
          [("page", some (.unresolved "#region first")), ("less", some (.unresolved "a < b")),
            ("more", some (.unresolved "c > d")), ("shop", none), ("tags", none)] ∧
          (parameters inside)[2]?.any (·.type matches .name [("List", [.predefined "int"])]) ∧
            shopParameters.map (fun p => p.declared.default?) =
              [some (.constant (.int 1)), some (.unresolved "a < b"), some (.unresolved "c > d"),
                some (.unresolved "this"), none] := by
  have text : Token.ofText shopText.toList =
      parenthesis [] '(' :: (listTokens shopParameters ++ [parenthesis [] ')']) := by
    decide +kernel
  obtain ⟨inside, forms, read, -⟩ := parameters_read_apart shopParameters [] []
  refine ⟨inside, text ▸ forms, ?_, ?_, ?_⟩
  · rw [read]
    decide +kernel
  · rw [read]
    decide +kernel
  · decide +kernel

end Tree

end ActionAtlas.CSharp
