import ActionAtlas.Proofs.CSharp.Comments.Types
import ActionAtlas.Proofs.CSharp.Comments.Values

/-!
Methods and their parameters without their comments.

A comment behind the equals sign of a parameter is taken for its default value. In the type of a
parameter, comments are passed over where they are in every type.
-/

namespace ActionAtlas.CSharp.Tree

variable (spacing : List Char → List Char)

/-! ### Parameters -/

/-- A parameter as it is declared, without its default value. -/
def declared (trees : List Tree) : List Tree :=
  match cutAt? "=" trees with
  | some (before, _) => before
  | none => trees

def assigned? (trees : List Tree) : Option (List Tree) :=
  (cutAt? "=" trees).map Prod.snd

/-- The name at the end, with what stands before it. -/
def endingName? (trees : List Tree) : Option (String × List Tree) :=
  match trees.reverse.dropWhile isComment with
  | [] => none
  | last :: before => last.word?.map fun name => (name, before.reverse)

theorem parameter?_eq (trees : List Tree) :
    parameter? trees = (endingName? (declared trees)).map fun named =>
      ⟨named.1, parameterType named.2, (assigned? trees).bind evaluateDefault?⟩ := by
  rw [parameter?, endingName?, declared, assigned?]
  cases cutAt? "=" trees with
  | none =>
      simp only
      cases trees.reverse.dropWhile isComment with
      | nil => rfl
      | cons last before => simp only [Option.map_map, Function.comp_def, Option.map_none]
  | some cut =>
      simp only
      cases cut.1.reverse.dropWhile isComment with
      | nil => rfl
      | cons last before => simp only [Option.map_map, Function.comp_def, Option.map_some]

def isClearType (trees : List Tree) : Bool :=
  (type trees).isSpelled && areClearTypeParts spacing trees

/-- No comment stands in the place of a default value. -/
def isClearDefault (trees : List Tree) : Bool :=
  !trees.head?.any isComment && isClearValue trees

def isClearParameter (trees : List Tree) : Bool :=
  (endingName? (declared trees)).all fun named =>
    isClearType spacing (trimComments (named.2.dropWhile leadsParameter)) &&
      (assigned? trees).all isClearDefault

theorem parameterType_spoken {trees : List Tree}
    (clear : isClearType spacing (trimComments (trees.dropWhile leadsParameter)) = true) :
    parameterType (spoken spacing trees) = parameterType trees := by
  rw [isClearType, Bool.and_eq_true] at clear
  have comments (tree : Tree) (comment : tree.isComment = true) : leadsParameter tree = true := by
    rw [leadsParameter, comment]
    rfl
  have same (tree : Tree) : leadsParameter (tree.spaced spacing) = leadsParameter tree := by
    simp only [leadsParameter, spaced_isComment, spaced_isGroup, spaced_isWord]
  have written : trimComments ((spoken spacing trees).dropWhile leadsParameter) =
      spoken spacing (trimComments (trees.dropWhile leadsParameter)) := by
    rw [spoken_eq, ← Silence.spoken_dropWhile_of comments same, ← spoken_eq, trimComments_spoken,
      spoken_trimComments]
  have some_left : trimComments (trees.dropWhile leadsParameter) ≠ [] := by
    intro nothing
    have spelled := clear.1
    rw [nothing] at spelled
    cases spelled
  have still : spoken spacing (trimComments (trees.dropWhile leadsParameter)) ≠ [] := by
    intro silent
    rw [spoken_trimComments, ← trimComments_eq_nil_iff] at silent
    exact some_left silent
  rw [parameterType, parameterType, written, List.isEmpty_eq_false_iff.mpr some_left,
    List.isEmpty_eq_false_iff.mpr still]
  exact type_spoken spacing clear.1 clear.2

theorem evaluateDefault?_spoken {trees : List Tree} (clear : isClearDefault trees = true) :
    (evaluateDefault? (spoken spacing trees)).map Evaluated.withoutText =
      (evaluateDefault? trees).map Evaluated.withoutText := by
  rw [isClearDefault, Bool.and_eq_true] at clear
  cases trees with
  | nil => rw [spoken_nil]
  | cons first others =>
      have said : first.isComment = false := by simpa using clear.1
      have value := evaluate_spoken spacing clear.2
      have alone := isInstanceAlone_spoken spacing (first :: others)
      rw [spoken_cons spacing said] at value alone ⊢
      rw [evaluateDefault?, evaluateDefault?, spaced_isComment, said, alone]
      simp only [Bool.false_eq_true, if_false]
      split
      · rfl
      · rw [Option.map_some, Option.map_some, value]

theorem declared_spoken (trees : List Tree) :
    declared (spoken spacing trees) = spoken spacing (declared trees) := by
  rw [declared, cutAt?_spoken, declared]
  cases cutAt? "=" trees <;> rfl

theorem assigned?_spoken (trees : List Tree) :
    assigned? (spoken spacing trees) = (assigned? trees).map (spoken spacing) := by
  rw [assigned?, cutAt?_spoken, assigned?, Option.map_map, Option.map_map]
  rfl

theorem endingName?_spoken (trees : List Tree) :
    endingName? (spoken spacing trees) =
      (endingName? trees).map fun named => (named.1, spoken spacing named.2) := by
  rw [endingName?, ← spoken_reverse, dropWhile_isComment_spoken, ← spoken_dropWhile_isComment,
    endingName?]
  cases ends : trees.reverse.dropWhile isComment with
  | nil =>
      rw [spoken_nil]
      rfl
  | cons last before =>
      rw [spoken_cons spacing (Silence.said_of_dropWhile ends)]
      simp only [spaced_word?, Option.map_map, Function.comp_def, spoken_reverse]

theorem parameter?_spoken {trees : List Tree} (clear : isClearParameter spacing trees = true) :
    (parameter? (spoken spacing trees)).map Source.Parameter.withoutTexts =
      (parameter? trees).map Source.Parameter.withoutTexts := by
  rw [parameter?_eq, parameter?_eq, declared_spoken, endingName?_spoken, assigned?_spoken]
  rw [isClearParameter] at clear
  cases ends : endingName? (declared trees) with
  | none => rfl
  | some named =>
      rw [ends, Option.all_some, Bool.and_eq_true] at clear
      have default : (((assigned? trees).map (spoken spacing)).bind evaluateDefault?).map
            Evaluated.withoutText =
          ((assigned? trees).bind evaluateDefault?).map Evaluated.withoutText := by
        cases value : assigned? trees with
        | none => rfl
        | some trees =>
            rw [value, Option.all_some] at clear
            exact evaluateDefault?_spoken spacing clear.2
      simp only [Option.map_some, Source.Parameter.withoutTexts,
        parameterType_spoken spacing clear.1, default]

theorem parameters_spoken {trees : List Tree}
    (clear : (commaPieces trees).all (isClearParameter spacing) = true) :
    (parameters (spoken spacing trees)).map Source.Parameter.withoutTexts =
      (parameters trees).map Source.Parameter.withoutTexts := by
  rw [List.all_eq_true] at clear
  rw [parameters, commaPieces_spoken, List.filterMap_map, List.map_filterMap, parameters,
    List.map_filterMap]
  exact List.filterMap_congr fun piece member => parameter?_spoken spacing (clear piece member)

/-! ### Signatures -/

theorem signature_spoken (trees : List Tree) :
    signature (spoken spacing trees) = (signature trees).map (spaced spacing) := by
  have marks : (fun tree => !isMark "=" tree && !isMark "=>" tree) ∘ spaced spacing =
      fun tree => !isMark "=" tree && !isMark "=>" tree := by
    funext tree
    simp only [Function.comp_apply, spaced_isMark]
  rw [signature, withoutComments_spoken, List.takeWhile_map, marks]
  rfl

/-- What a signature says of a method, with the trees between the parentheses. -/
structure MethodForm where
  kind : MethodKind
  name : String
  isGeneric : Bool
  isExplicit : Bool
  inside : List Tree

def MethodForm.spoken (form : MethodForm) : MethodForm :=
  { form with inside := Tree.spoken spacing form.inside }

def operatorForm? (trees : List Tree) : Option MethodForm :=
  let before := trees.takeWhile (!·.isWord "operator")
  match trees.drop before.length with
  | [] => none
  | _ :: behind =>
    if before.any fun tree => tree.isWord "implicit" || tree.isWord "explicit" then
      some ⟨.conversion, "op_conversion_operator_declaration", false, isExplicitOperator trees,
        (parenthesized? behind.reverse).getD []⟩
    else
      some ⟨.operator, "op_operator_declaration", false, isExplicitOperator trees,
        (parenthesized? behind).getD []⟩

def namedForm? (modifiers : List String) (trees : List Tree) : Option MethodForm :=
  (cutAtParameters? [] trees).bind fun (before, inside) =>
    let isGeneric := before.head?.any (isGroup "<")
    match if isGeneric then before.drop 1 else before with
    | [_] =>
      let kind := if modifiers.contains "static" then .staticConstructor else .constructor
      some ⟨kind, ".ctor", false, false, inside⟩
    | name :: next :: _ =>
      name.word?.map fun name => ⟨.ordinary, name, isGeneric, next.isQualifying, inside⟩
    | [] => none

def methodForm? (modifiers : List String) (trees : List Tree) : Option MethodForm :=
  if trees.head?.any (isMark "~") then some ⟨.destructor, "Finalize", false, false, []⟩
  else if trees.head?.any (isWord "event") ||
      trees.head?.any (isWord "delegate") && !(trees.drop 1).head?.any (isMark "*") then none
  else (operatorForm? trees).or (namedForm? modifiers trees)

/-- The method of a form. -/
def MethodForm.method (lists : List (List Tree)) (modifiers : List String) (form : MethodForm) :
    Source.Method where
  name := form.name
  kind := form.kind
  isGeneric := form.isGeneric
  modifiers := modifiers
  attributes := lists.flatMap (attributesFor "method")
  parameters := parameters form.inside

theorem operator?_eq (trees : List Tree) :
    operator? trees = (operatorForm? trees).map fun form =>
      (form.kind, form.name, parameters form.inside) := by
  have read (found : Option (List Tree)) :
      (found.map parameters).getD [] = parameters (found.getD []) := by
    cases found <;> rfl
  rw [operator?, operatorForm?]
  cases trees.drop (trees.takeWhile (!·.isWord "operator")).length with
  | nil => rfl
  | cons _ behind =>
      simp only [read]
      split <;> rfl

theorem operatorForm?_isGeneric {trees : List Tree} {form : MethodForm}
    (found : operatorForm? trees = some form) :
    form.isGeneric = false ∧ form.isExplicit = isExplicitOperator trees := by
  rw [operatorForm?] at found
  split at found
  · cases found
  · split at found <;> cases found <;> exact ⟨rfl, rfl⟩

theorem method?_eq (lists : List (List Tree)) (modifiers : List String) (trees : List Tree) :
    method? lists modifiers trees = (methodForm? modifiers (signature trees)).map fun form =>
      (form.method lists modifiers, form.isExplicit) := by
  rw [method?, methodForm?]
  simp only [operator?_eq]
  split
  · rfl
  · split
    · rfl
    · cases found : operatorForm? (signature trees) with
      | some form =>
          obtain ⟨generic, explicit⟩ := operatorForm?_isGeneric found
          simp only [Option.map_some, Option.some_or, MethodForm.method, generic, explicit]
      | none =>
          simp only [Option.map_none, Option.none_or, namedForm?]
          cases cutAtParameters? [] (signature trees) with
          | none => rfl
          | some cut =>
              simp only [Option.bind_some]
              rcases if cut.1.head?.any (isGroup "<") then cut.1.drop 1 else cut.1 with
                _ | ⟨name, _ | ⟨next, others⟩⟩
              · rfl
              · rfl
              · simp only [Option.map_map, Function.comp_def, MethodForm.method]

theorem parenthesized?_map (trees : List Tree) :
    parenthesized? (trees.map (spaced spacing)) =
      (parenthesized? trees).map (spoken spacing) := by
  have inside : inside? "(" ∘ spaced spacing = Option.map (spoken spacing) ∘ inside? "(" :=
    funext fun tree => spaced_inside? spacing tree "("
  rw [parenthesized?, List.findSome?_map, inside, parenthesized?, List.map_findSome?]

theorem endsInName_map (trees : List Tree) :
    endsInName (trees.map (spaced spacing)) = endsInName trees := by
  match trees with
  | [] => rfl
  | [name] => simp only [List.map_cons, List.map_nil, endsInName, spaced_word?]
  | last :: before :: others =>
      simp only [List.map_cons, endsInName, spaced_isGroup, spaced_word?]

theorem cutAtParameters?_map (before trees : List Tree) :
    cutAtParameters? (before.map (spaced spacing)) (trees.map (spaced spacing)) =
      (cutAtParameters? before trees).map fun cut =>
        (cut.1.map (spaced spacing), spoken spacing cut.2) := by
  induction trees generalizing before with
  | nil => rfl
  | cons tree others ih =>
      have passed := ih (tree :: before)
      rw [List.map_cons] at passed
      rw [List.map_cons, cutAtParameters?, cutAtParameters?, spaced_inside?, endsInName_map, passed]
      cases tree.inside? "(" with
      | none => rfl
      | some parameters =>
          simp only [Option.map_some]
          split <;> rfl

theorem takeWhile_map_isWord (trees : List Tree) :
    (trees.map (spaced spacing)).takeWhile (!·.isWord "operator") =
      (trees.takeWhile (!·.isWord "operator")).map (spaced spacing) := by
  have words : (fun tree => !isWord "operator" tree) ∘ spaced spacing =
      fun tree => !isWord "operator" tree := by
    funext tree
    rw [Function.comp_apply, spaced_isWord]
  rw [List.takeWhile_map, words]

theorem isExplicitOperator_map (trees : List Tree) :
    isExplicitOperator (trees.map (spaced spacing)) = isExplicitOperator trees := by
  rw [isExplicitOperator, takeWhile_map_isWord, List.getLast?_map, Option.any_map,
    isExplicitOperator]
  refine congrArg (Option.any · _) (funext fun tree => ?_)
  rw [isQualifying, spaced_isMark, spaced_isMark, isQualifying]

theorem operatorForm?_map (trees : List Tree) :
    operatorForm? (trees.map (spaced spacing)) =
      (operatorForm? trees).map (MethodForm.spoken spacing) := by
  have converts (before : List Tree) :
      ((before.map (spaced spacing)).any fun tree =>
          tree.isWord "implicit" || tree.isWord "explicit") =
        before.any fun tree => tree.isWord "implicit" || tree.isWord "explicit" := by
    rw [List.any_map]
    refine congrArg before.any (funext fun tree => ?_)
    rw [Function.comp_apply, spaced_isWord, spaced_isWord]
  have inside (found : Option (List Tree)) :
      (found.map (spoken spacing)).getD [] = spoken spacing (found.getD []) := by
    cases found with
    | none => exact (spoken_nil spacing).symm
    | some _ => rfl
  rw [operatorForm?, operatorForm?, isExplicitOperator_map, takeWhile_map_isWord, List.length_map,
    ← List.map_drop]
  cases trees.drop (trees.takeWhile (!·.isWord "operator")).length with
  | nil => rfl
  | cons _ behind =>
      simp only [List.map_cons, converts, ← List.map_reverse, parenthesized?_map, inside]
      split <;> rfl

theorem namedForm?_map (modifiers : List String) (trees : List Tree) :
    namedForm? modifiers (trees.map (spaced spacing)) =
      (namedForm? modifiers trees).map (MethodForm.spoken spacing) := by
  have cut := cutAtParameters?_map spacing [] trees
  rw [List.map_nil] at cut
  rw [namedForm?, cut, namedForm?]
  cases cutAtParameters? [] trees with
  | none => rfl
  | some cut =>
      obtain ⟨before, inside⟩ := cut
      have generic : (before.map (spaced spacing)).head?.any (isGroup "<") =
          before.head?.any (isGroup "<") := by
        cases before with
        | nil => rfl
        | cons tree others => exact spaced_isGroup spacing tree "<"
      have names : (if before.head?.any (isGroup "<") then (before.map (spaced spacing)).drop 1
            else before.map (spaced spacing)) =
          (if before.head?.any (isGroup "<") then before.drop 1 else before).map
            (spaced spacing) := by
        split
        · rw [List.map_drop]
        · rfl
      simp only [Option.map_some, Option.bind_some, generic, names]
      rcases if before.head?.any (isGroup "<") then before.drop 1 else before with
        _ | ⟨name, _ | ⟨next, others⟩⟩
      · rfl
      · rfl
      · simp only [List.map_cons, spaced_word?, Option.map_map, Function.comp_def,
          MethodForm.spoken, isQualifying, spaced_isMark]

theorem methodForm?_map (modifiers : List String) (trees : List Tree) :
    methodForm? modifiers (trees.map (spaced spacing)) =
      (methodForm? modifiers trees).map (MethodForm.spoken spacing) := by
  have first (holds : Tree → Bool) (same : ∀ tree, holds (tree.spaced spacing) = holds tree)
      (trees : List Tree) :
      (trees.map (spaced spacing)).head?.any holds = trees.head?.any holds := by
    rw [List.head?_map, Option.any_map]
    exact congrArg (Option.any · trees.head?) (funext same)
  rw [methodForm?, methodForm?, operatorForm?_map, namedForm?_map, ← List.map_drop]
  simp only [first (isMark "~") (by simp), first (isWord "event") (by simp),
    first (isWord "delegate") (by simp), first (isMark "*") (by simp)]
  split
  · rw [Option.map_some, MethodForm.spoken, spoken_nil]
  · split
    · rfl
    · rw [Option.map_or]

def isClearMethod (modifiers : List String) (trees : List Tree) : Bool :=
  (methodForm? modifiers (signature trees)).all fun form =>
    (commaPieces form.inside).all (isClearParameter spacing)

theorem method?_spoken (modifiers : List String) {lists : List (List Tree)} {trees : List Tree}
    (clear : isClearMethod spacing modifiers trees = true)
    (listsClear : lists.all (isClearList spacing) = true) :
    (method? (lists.map (spoken spacing)) modifiers (spoken spacing trees)).map
        (Prod.map Source.Method.withoutTexts id) =
      (method? lists modifiers trees).map (Prod.map Source.Method.withoutTexts id) := by
  rw [isClearMethod] at clear
  rw [method?_eq, method?_eq, signature_spoken, methodForm?_map]
  cases found : methodForm? modifiers (signature trees) with
  | none => rfl
  | some form =>
      rw [found, Option.all_some] at clear
      have attributes := flatMap_attributesFor_spoken spacing "method" listsClear
      have parameters := parameters_spoken spacing clear
      simp only [Option.map_some, Prod.map, MethodForm.method, MethodForm.spoken,
        Source.Method.withoutTexts, attributes, parameters]

end ActionAtlas.CSharp.Tree
