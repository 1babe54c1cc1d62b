import ActionAtlas.Graph.TypeShape

/-!
Types are told apart by their texts. The last character of a text says what kind of type it is of.
The text of a type closes only brackets that it opens and has no comma outside of them, so the first
comma with no bracket open before it ends an argument.
-/

namespace ActionAtlas.TypeShape

/-! ### Types whose names do not look like something else -/

def textMarks : List Char := ['<', '>', '[', ']', ',', '?']

structure IsPlainName (name : String) : Prop where
  nonempty : name ≠ ""
  unmarked : ∀ mark ∈ textMarks, mark ∉ name.toList

mutual

/-- All names are plain, none is the keyword of a built-in type, and arrays have a dimension. -/
def IsLegible : TypeShape → Prop
  | primitive _ => True
  | named fullName => IsPlainName fullName ∧ ∀ builtIn : Primitive, builtIn.keyword ≠ fullName
  | generic fullName arguments => IsPlainName fullName ∧ AreLegible arguments
  | array element rank => element.IsLegible ∧ 1 ≤ rank.toNat
  | nullable underlying => underlying.IsLegible

def AreLegible : List TypeShape → Prop
  | [] => True
  | shape :: others => shape.IsLegible ∧ AreLegible others

end

theorem isPlainName_keyword (builtIn : Primitive) : IsPlainName builtIn.keyword := by
  constructor
  · cases builtIn <;> decide
  · cases builtIn <;> simp [textMarks, Primitive.keyword]

/-! ### Texts as characters -/

def characters (shape : TypeShape) : List Char :=
  shape.text.toList

def joined (shapes : List TypeShape) : List Char :=
  (", ".intercalate (texts shapes)).toList

theorem characters_generic (fullName : String) (arguments : List TypeShape) :
    (generic fullName arguments).characters =
      fullName.toList ++ '<' :: joined arguments ++ ['>'] := by
  simp [characters, joined, text]

theorem characters_array (element : TypeShape) (rank : Rank) :
    (array element rank).characters =
      element.characters ++ '[' :: List.replicate (rank.toNat - 1) ',' ++ [']'] := by
  simp [characters, text, commas]

theorem characters_nullable (underlying : TypeShape) :
    (nullable underlying).characters = underlying.characters ++ ['?'] := by
  simp [characters, text]

theorem joined_singleton (shape : TypeShape) : joined [shape] = shape.characters := by
  simp only [joined, texts, String.intercalate_singleton, characters]

theorem joined_cons_cons (shape next : TypeShape) (others : List TypeShape) :
    joined (shape :: next :: others) =
      shape.characters ++ ',' :: ' ' :: joined (next :: others) := by
  simp only [joined, texts, String.intercalate_cons_cons, String.toList_append, characters]
  simp

/-! ### Open brackets -/

/-- The number of open brackets behind a character. There is none if the character closes a bracket
that is not open, or is a comma outside of all brackets. -/
def bracketsBehind (depth : Nat) (c : Char) : Option Nat :=
  if c = '<' ∨ c = '[' then some (depth + 1)
  else if c = '>' ∨ c = ']' then if depth = 0 then none else some (depth - 1)
  else if c = ',' ∧ depth = 0 then none
  else some depth

def openBehind (depth : Nat) (text : List Char) : Option Nat :=
  text.foldlM bracketsBehind depth

theorem openBehind_append {depth middle : Nat} {before : List Char}
    (opened : openBehind depth before = some middle) (after : List Char) :
    openBehind depth (before ++ after) = openBehind middle after := by
  rw [openBehind] at opened
  rw [openBehind, List.foldlM_append, opened]
  rfl

theorem openBehind_cons {depth middle : Nat} {c : Char}
    (opened : bracketsBehind depth c = some middle) (rest : List Char) :
    openBehind depth (c :: rest) = openBehind middle rest := by
  rw [openBehind, List.foldlM_cons, opened]
  rfl

theorem openBehind_of_steady {depth : Nat} {text : List Char}
    (steady : ∀ c ∈ text, bracketsBehind depth c = some depth) :
    openBehind depth text = some depth := by
  induction text with
  | nil => rfl
  | cons c rest ih =>
      rw [List.forall_mem_cons] at steady
      rw [openBehind_cons steady.1, ih steady.2]

theorem openBehind_plainName {name : String} (plain : IsPlainName name) (depth : Nat) :
    openBehind depth name.toList = some depth := by
  refine openBehind_of_steady fun c member => ?_
  have unmarked : c ∉ textMarks := fun mark => plain.unmarked c mark member
  simp only [textMarks, List.mem_cons, not_or] at unmarked
  simp [bracketsBehind, unmarked]

theorem openBehind_commas (depth count : Nat) :
    openBehind (depth + 1) (List.replicate count ',') = some (depth + 1) := by
  refine openBehind_of_steady fun c member => ?_
  simp [List.eq_of_mem_replicate member, bracketsBehind]

mutual

/-- The text of a type leaves as many brackets open as were, also if there were none. -/
theorem openBehind_characters (shape : TypeShape) (legible : shape.IsLegible) (depth : Nat) :
    openBehind depth shape.characters = some depth := by
  match shape with
  | primitive builtIn => exact openBehind_plainName (isPlainName_keyword builtIn) depth
  | named fullName => exact openBehind_plainName legible.1 depth
  | generic fullName arguments =>
      have opened : bracketsBehind depth '<' = some (depth + 1) := by simp [bracketsBehind]
      rw [characters_generic, List.append_assoc,
        openBehind_append (openBehind_plainName legible.1 depth), List.cons_append,
        openBehind_cons opened,
        openBehind_append (openBehind_joined arguments legible.2 depth)]
      simp [openBehind, bracketsBehind]
  | array element rank =>
      have opened : bracketsBehind depth '[' = some (depth + 1) := by simp [bracketsBehind]
      rw [characters_array, List.append_assoc,
        openBehind_append (openBehind_characters element legible.1 depth), List.cons_append,
        openBehind_cons opened,
        openBehind_append (openBehind_commas depth _)]
      simp [openBehind, bracketsBehind]
  | nullable underlying =>
      rw [characters_nullable, openBehind_append (openBehind_characters underlying legible depth)]
      simp [openBehind, bracketsBehind]

theorem openBehind_joined (shapes : List TypeShape) (legible : AreLegible shapes) (depth : Nat) :
    openBehind (depth + 1) (joined shapes) = some (depth + 1) := by
  match shapes with
  | [] => rfl
  | [shape] =>
      rw [joined_singleton]
      exact openBehind_characters shape legible.1 (depth + 1)
  | shape :: next :: others =>
      have comma : bracketsBehind (depth + 1) ',' = some (depth + 1) := by simp [bracketsBehind]
      have blank : bracketsBehind (depth + 1) ' ' = some (depth + 1) := by simp [bracketsBehind]
      rw [joined_cons_cons, openBehind_append (openBehind_characters shape legible.1 (depth + 1)),
        openBehind_cons comma, openBehind_cons blank]
      exact openBehind_joined (next :: others) legible.2 depth

end

/-! ### Cutting texts -/

/-- Two cuts at a mark are the same if neither text goes on with the mark behind the other one. -/
theorem append_cons_inj {mark : Char} {first other rest more : List Char}
    (ends : ∀ tail, other ≠ first ++ mark :: tail)
    (otherEnds : ∀ tail, first ≠ other ++ mark :: tail)
    (same : first ++ mark :: rest = other ++ mark :: more) : first = other ∧ rest = more := by
  rcases List.append_eq_append_iff.mp same with ⟨tail, longer, split⟩ | ⟨tail, longer, split⟩
  · cases tail with
    | nil => exact ⟨by simpa using longer.symm, by simpa using split⟩
    | cons c tail =>
        obtain ⟨rfl, -⟩ := List.cons.inj split
        exact absurd longer (ends tail)
  · cases tail with
    | nil => exact ⟨by simpa using longer, by simpa using split.symm⟩
    | cons c tail =>
        obtain ⟨rfl, -⟩ := List.cons.inj split
        exact absurd longer (otherEnds tail)

/-- The text of an argument does not go on behind a comma that stands outside of its brackets. -/
theorem ne_append_comma {first other : List Char} (closed : openBehind 0 first = some 0)
    (otherClosed : openBehind 0 other = some 0) (rest : List Char) :
    other ≠ first ++ ',' :: rest := by
  rintro rfl
  rw [openBehind_append closed] at otherClosed
  cases otherClosed

theorem append_cons_inj_of_not_mem {mark : Char} {first other rest more : List Char}
    (absent : mark ∉ first) (otherAbsent : mark ∉ other)
    (same : first ++ mark :: rest = other ++ mark :: more) : first = other ∧ rest = more := by
  refine append_cons_inj ?_ ?_ same
  · rintro tail rfl
    exact otherAbsent (by simp)
  · rintro tail rfl
    exact absent (by simp)

/-- Only commas stand behind the last opening bracket of an array. -/
theorem append_commas_inj {element other : List Char} {count more : Nat}
    (same : element ++ '[' :: List.replicate count ',' =
      other ++ '[' :: List.replicate more ',') : element = other ∧ count = more := by
  have reversed := congrArg List.reverse same
  simp only [List.reverse_append, List.reverse_cons, List.reverse_replicate, List.append_assoc,
    List.singleton_append] at reversed
  obtain ⟨commas_eq, element_eq⟩ := append_cons_inj_of_not_mem (by simp) (by simp) reversed
  exact ⟨List.reverse_inj.mp element_eq, by simpa using congrArg List.length commas_eq⟩

/-! ### Ends -/

/-- The mark at the end of a type's text, if it is more than a name. -/
def endMark? : TypeShape → Option Char
  | primitive _ => none
  | named _ => none
  | generic _ _ => some '>'
  | array _ _ => some ']'
  | nullable _ => some '?'

theorem last_plainName {name : String} (plain : IsPlainName name) :
    name.toList.getLast?.filter (textMarks.contains ·) = none := by
  rw [Option.filter_eq_none_iff]
  intro c last mark
  exact plain.unmarked c (List.contains_iff_mem.mp mark) (List.mem_of_getLast? last)

theorem last_characters {shape : TypeShape} (legible : shape.IsLegible) :
    shape.characters.getLast?.filter (textMarks.contains ·) = shape.endMark? := by
  cases shape with
  | primitive builtIn => exact last_plainName (isPlainName_keyword builtIn)
  | named fullName => exact last_plainName legible.1
  | generic fullName arguments =>
      rw [characters_generic, List.getLast?_concat]
      rfl
  | array element rank =>
      rw [characters_array, List.getLast?_concat]
      rfl
  | nullable underlying =>
      rw [characters_nullable, List.getLast?_concat]
      rfl

theorem characters_ne_nil {shape : TypeShape} (legible : shape.IsLegible) :
    shape.characters ≠ [] := by
  cases shape with
  | primitive builtIn => simpa [characters, text] using (isPlainName_keyword builtIn).nonempty
  | named fullName => simpa [characters, text] using legible.1.nonempty
  | generic fullName arguments => simp [characters_generic]
  | array element rank => simp [characters_array]
  | nullable underlying => simp [characters_nullable]

theorem joined_ne_nil {shape : TypeShape} (legible : shape.IsLegible) (others : List TypeShape) :
    joined (shape :: others) ≠ [] := by
  cases others with
  | nil =>
      rw [joined_singleton]
      exact characters_ne_nil legible
  | cons next more => simp [joined_cons_cons]

/-! ### Types from texts -/

theorem keyword_inj {builtIn other : Primitive} (same : builtIn.keyword = other.keyword) :
    builtIn = other := by
  have found := congrArg Primitive.ofKeyword? same
  rw [Primitive.ofKeyword?_keyword, Primitive.ofKeyword?_keyword] at found
  exact Option.some.inj found

theorem rank_eq_of_sub_one_eq {rank other : Rank} (dimension : 1 ≤ rank.toNat)
    (otherDimension : 1 ≤ other.toNat) (same : rank.toNat - 1 = other.toNat - 1) :
    rank = other := by
  have toNat_eq : rank.toNat = other.toNat := by omega
  rw [← rank.ofNat_toNat, toNat_eq, other.ofNat_toNat]

mutual

theorem eq_of_characters_eq (shape other : TypeShape) (legible : shape.IsLegible)
    (otherLegible : other.IsLegible) (same : shape.characters = other.characters) :
    shape = other := by
  have ends : shape.endMark? = other.endMark? := by
    rw [← last_characters legible, same, last_characters otherLegible]
  match shape with
  | primitive builtIn =>
      cases other with
      | primitive otherBuiltIn => exact congrArg primitive (keyword_inj (String.toList_inj.mp same))
      | named fullName => exact absurd (String.toList_inj.mp same) (otherLegible.2 builtIn)
      | _ => simp [endMark?] at ends
  | named fullName =>
      cases other with
      | primitive builtIn => exact absurd (String.toList_inj.mp same).symm (legible.2 builtIn)
      | named otherName => exact congrArg named (String.toList_inj.mp same)
      | _ => simp [endMark?] at ends
  | generic fullName arguments =>
      cases other with
      | generic otherName others =>
          rw [characters_generic, characters_generic] at same
          obtain ⟨name_eq, joined_eq⟩ := append_cons_inj_of_not_mem
            (legible.1.unmarked '<' (by decide)) (otherLegible.1.unmarked '<' (by decide))
            (List.append_cancel_right same)
          rw [String.toList_inj.mp name_eq,
            eq_of_joined_eq arguments others legible.2 otherLegible.2 joined_eq]
      | _ => simp [endMark?] at ends
  | array element rank =>
      cases other with
      | array otherElement otherRank =>
          rw [characters_array, characters_array] at same
          obtain ⟨element_eq, count_eq⟩ := append_commas_inj (List.append_cancel_right same)
          rw [eq_of_characters_eq element otherElement legible.1 otherLegible.1 element_eq,
            rank_eq_of_sub_one_eq legible.2 otherLegible.2 count_eq]
      | _ => simp [endMark?] at ends
  | nullable underlying =>
      cases other with
      | nullable otherUnderlying =>
          rw [characters_nullable, characters_nullable] at same
          rw [eq_of_characters_eq underlying otherUnderlying legible otherLegible
            (List.append_cancel_right same)]
      | _ => simp [endMark?] at ends

theorem eq_of_joined_eq (shapes others : List TypeShape) (legible : AreLegible shapes)
    (otherLegible : AreLegible others) (same : joined shapes = joined others) :
    shapes = others := by
  match shapes with
  | [] =>
      cases others with
      | nil => rfl
      | cons other more => exact absurd same.symm (joined_ne_nil otherLegible.1 more)
  | [shape] =>
      rw [joined_singleton] at same
      match others with
      | [] => exact absurd same (characters_ne_nil legible.1)
      | [other] =>
          rw [joined_singleton] at same
          rw [eq_of_characters_eq shape other legible.1 otherLegible.1 same]
      | other :: next :: more =>
          rw [joined_cons_cons] at same
          exact absurd same (ne_append_comma (openBehind_characters other otherLegible.1 0)
            (openBehind_characters shape legible.1 0) _)
  | shape :: next :: rest =>
      rw [joined_cons_cons] at same
      match others with
      | [] => exact absurd same (by simp [joined, texts])
      | [other] =>
          rw [joined_singleton] at same
          exact absurd same.symm (ne_append_comma (openBehind_characters shape legible.1 0)
            (openBehind_characters other otherLegible.1 0) _)
      | other :: following :: more =>
          rw [joined_cons_cons] at same
          have closed := openBehind_characters shape legible.1 0
          have otherClosed := openBehind_characters other otherLegible.1 0
          -- Neither first argument reaches over the comma that ends the other one.
          obtain ⟨first_eq, rest_eq⟩ := append_cons_inj (ne_append_comma closed otherClosed)
            (ne_append_comma otherClosed closed) same
          rw [eq_of_characters_eq shape other legible.1 otherLegible.1 first_eq,
            eq_of_joined_eq (next :: rest) (following :: more) legible.2 otherLegible.2
              (List.cons.inj rest_eq).2]

end

/-- Legible types are told apart by their texts. -/
theorem text_inj {shape other : TypeShape} (legible : shape.IsLegible)
    (otherLegible : other.IsLegible) : shape.text = other.text ↔ shape = other := by
  constructor
  · intro same
    exact eq_of_characters_eq shape other legible otherLegible (congrArg String.toList same)
  · rintro rfl
    rfl

/-- A pair of a type and an item. -/
def pairWith (first : TypeShape) : TypeShape :=
  generic "Acme.Pair" [first, named "Acme.Item"]

theorem isLegible_pairWith {first : TypeShape} (legible : first.IsLegible) :
    (pairWith first).IsLegible := by
  have pair : IsPlainName "Acme.Pair" := ⟨by decide, by simp [textMarks]⟩
  have item : IsPlainName "Acme.Item" := ⟨by decide, by simp [textMarks]⟩
  exact ⟨pair, legible, ⟨item, fun builtIn => by cases builtIn <;> decide⟩, trivial⟩

/-- Texts of the same characters in another order. -/
theorem text_inj_pairWith :
    let grid : TypeShape := nullable (array (primitive .int) 2)
    let cells : TypeShape := array (nullable (primitive .int)) 2
    (pairWith grid).IsLegible ∧ (pairWith cells).IsLegible ∧
      (pairWith grid).text = "Acme.Pair<int[,]?, Acme.Item>" ∧
      (pairWith cells).text = "Acme.Pair<int?[,], Acme.Item>" ∧
      (pairWith grid).text ≠ (pairWith cells).text := by
  intro grid cells
  have gridLegible : (pairWith grid).IsLegible := isLegible_pairWith ⟨trivial, by decide⟩
  have cellsLegible : (pairWith cells).IsLegible := isLegible_pairWith ⟨trivial, by decide⟩
  refine ⟨gridLegible, cellsLegible, by decide +kernel, by decide +kernel, fun same => ?_⟩
  have equal := (text_inj gridLegible cellsLegible).mp same
  simp [pairWith, grid, cells] at equal

end ActionAtlas.TypeShape
