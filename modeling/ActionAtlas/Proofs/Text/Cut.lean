import ActionAtlas.Text.Blank
import ActionAtlas.Text.Cut

/-!
Cutting what was put together: pieces with marks between them, a text with a fixed beginning or
ending, and a text behind a number of bytes.
-/

namespace ActionAtlas.Text

/-! ### Pieces -/

theorem runs_append {α : Type} {isMark : α → Bool} {mark : α} (marks : isMark mark = true)
    (before after : List α) :
    runs isMark (before ++ mark :: after) = runs isMark before ++ runs isMark after := by
  induction before with
  | nil => simp [runs, marks]
  | cons x others ih =>
      rw [List.cons_append, runs, runs, ih]
      split
      · rfl
      · cases given : runs isMark others with
        | nil => exact absurd given (runs_ne_nil isMark others)
        | cons run rest => rfl

theorem runs_of_no_mark {α : Type} {isMark : α → Bool} {list : List α}
    (none : ∀ x ∈ list, isMark x = false) : runs isMark list = [list] := by
  induction list with
  | nil => rfl
  | cons x others ih =>
      rw [List.forall_mem_cons] at none
      rw [runs, ih none.2, none.1]
      rfl

theorem runs_append_of_no_mark {α : Type} {isMark : α → Bool} {before : List α}
    (none : ∀ x ∈ before, isMark x = false) (after : List α) :
    runs isMark (before ++ after) = (runs isMark after).modifyHead (before ++ ·) := by
  induction before with
  | nil => exact (congrFun List.modifyHead_id (runs isMark after)).symm
  | cons x others ih =>
      rw [List.forall_mem_cons] at none
      rw [List.cons_append, runs, ih none.2, none.1]
      cases given : runs isMark after with
      | nil => exact absurd given (runs_ne_nil isMark after)
      | cons run rest => rfl

theorem pieces_append (mark : Char) (before after : List Char) :
    pieces mark (before ++ mark :: after) = pieces mark before ++ pieces mark after :=
  runs_append (by simp) before after

theorem pieces_of_not_mem {mark : Char} {text : List Char} (absent : mark ∉ text) :
    pieces mark text = [text] := by
  refine runs_of_no_mark fun c inside => ?_
  rw [beq_eq_false_iff_ne]
  rintro rfl
  exact absent inside

theorem runs_eq_splitOnP {α : Type} (isMark : α → Bool) (list : List α) :
    runs isMark list = list.splitOnP isMark := by
  induction list with
  | nil => exact List.splitOnP_nil.symm
  | cons x others ih =>
      rw [runs, ih, List.splitOnP_cons_eq_if_modifyHead]
      cases given : others.splitOnP isMark with
      | nil => exact absurd given (List.splitOnP_ne_nil isMark others)
      | cons run rest => rfl

theorem pieces_eq_splitOn (mark : Char) (text : List Char) :
    pieces mark text = text.splitOn mark :=
  runs_eq_splitOnP (· == mark) text

theorem not_mem_of_mem_pieces {mark : Char} {text piece : List Char}
    (member : piece ∈ pieces mark text) : mark ∉ piece := by
  rw [pieces] at member
  induction text generalizing piece with
  | nil =>
      rw [runs, List.mem_singleton] at member
      rw [member]
      exact List.not_mem_nil
  | cons c rest ih =>
      rw [runs] at member
      split at member
      · rcases List.mem_cons.mp member with rfl | later
        · exact List.not_mem_nil
        · exact ih later
      · next other =>
        cases given : runs (· == mark) rest with
        | nil => exact absurd given (runs_ne_nil _ rest)
        | cons run others =>
            rw [given] at member ih
            rcases List.mem_cons.mp member with rfl | later
            · rw [List.mem_cons, not_or]
              refine ⟨?_, ih List.mem_cons_self⟩
              rintro rfl
              exact other (beq_self_eq_true _)
            · exact ih (List.mem_cons_of_mem run later)

theorem pieces_cons_of_ne {mark c : Char} (other : c ≠ mark) (rest : List Char) :
    ∃ run others, pieces mark (c :: rest) = (c :: run) :: others := by
  rw [pieces, runs, if_neg (by simpa using other)]
  cases runs (· == mark) rest with
  | nil => exact ⟨[], [], rfl⟩
  | cons run others => exact ⟨run, others, rfl⟩

/-- Parts without the mark come back from their join. -/
theorem pieces_intercalate {mark : Char} {texts : List String} (some : texts ≠ [])
    (undivided : ∀ text ∈ texts, mark ∉ text.toList) :
    pieces mark ((String.singleton mark).intercalate texts).toList = texts.map String.toList := by
  rw [pieces_eq_splitOn, String.toList_intercalate, String.toList_singleton]
  apply List.splitOn_intercalate
  · simpa using undivided
  · simpa using some

theorem cutFirst?_eq_none_iff {mark : Char} {text : List Char} :
    cutFirst? mark text = none ↔ mark ∉ text := by
  induction text with
  | nil => exact iff_of_true rfl List.not_mem_nil
  | cons c rest ih =>
      rw [cutFirst?, List.mem_cons, not_or, ← ih]
      by_cases same : c = mark
      · simp [same]
      · rw [if_neg same, Option.map_eq_none_iff, and_iff_right (Ne.symm same)]

theorem cutFirst?_eq_some_iff {mark : Char} {text before after : List Char} :
    cutFirst? mark text = some (before, after) ↔
      text = before ++ mark :: after ∧ mark ∉ before := by
  refine ⟨fun cut => ⟨(cutFirst?_append cut).symm, ?_⟩, ?_⟩
  · induction text generalizing before with
    | nil => cases cut
    | cons c rest ih =>
        rw [cutFirst?] at cut
        split at cut
        · cases cut
          exact List.not_mem_nil
        · next other =>
            obtain ⟨⟨inner, behind⟩, found, same⟩ := Option.map_eq_some_iff.mp cut
            cases same
            rw [List.mem_cons, not_or]
            exact ⟨fun mark_eq => other mark_eq.symm, ih found⟩
  · rintro ⟨rfl, absent⟩
    induction before with
    | nil => rw [List.nil_append, cutFirst?, if_pos rfl]
    | cons c more ih =>
        rw [List.mem_cons, not_or] at absent
        rw [List.cons_append, cutFirst?, if_neg (Ne.symm absent.1), ih absent.2, Option.map_some]

theorem cutLast?_eq_none_iff {α : Type} [DecidableEq α] {mark : α} {text : List α} :
    cutLast? mark text = none ↔ mark ∉ text := by
  induction text with
  | nil => exact iff_of_true rfl List.not_mem_nil
  | cons c rest ih =>
      rw [cutLast?, List.mem_cons, not_or, ← ih]
      cases cutLast? mark rest with
      | some cut => simp
      | none => simp [eq_comm]

theorem cutLast?_eq_some_iff {α : Type} [DecidableEq α] {mark : α} {text before after : List α} :
    cutLast? mark text = some (before, after) ↔ text = before ++ mark :: after ∧ mark ∉ after := by
  refine ⟨fun cut => ?_, ?_⟩
  · induction text generalizing before with
    | nil => cases cut
    | cons c rest ih =>
        rw [cutLast?] at cut
        split at cut
        · next inner found =>
            cases cut
            obtain ⟨rest_eq, absent⟩ := ih found
            rw [rest_eq, List.cons_append]
            exact ⟨rfl, absent⟩
        · next none =>
            split at cut
            · next same =>
                cases cut
                exact ⟨by rw [same, List.nil_append], cutLast?_eq_none_iff.mp none⟩
            · cases cut
  · rintro ⟨rfl, absent⟩
    induction before with
    | nil => rw [List.nil_append, cutLast?, cutLast?_eq_none_iff.mpr absent, if_pos rfl]
    | cons c more ih => rw [List.cons_append, cutLast?, ih]

theorem count_joinWith {mark : Char} {parts : List (List Char)} (some : parts ≠ [])
    (undivided : ∀ part ∈ parts, mark ∉ part) :
    (joinWith [mark] parts).count mark + 1 = parts.length := by
  induction parts with
  | nil => exact absurd rfl some
  | cons part others ih =>
      rw [List.forall_mem_cons] at undivided
      have inPart : part.count mark = 0 := List.count_eq_zero.mpr undivided.1
      cases others with
      | nil => rw [joinWith, inPart, List.length_singleton]
      | cons next more =>
          have behind := ih (List.cons_ne_nil next more) undivided.2
          rw [joinWith, List.count_append, List.count_append, inPart, List.count_singleton_self,
            List.length_cons, ← behind]
          omega

/-! ### Beginnings and endings -/

theorem dropInitial?_append {α : Type} [DecidableEq α] (initial text : List α) :
    dropInitial? initial (initial ++ text) = some text := by
  induction initial with
  | nil => rfl
  | cons c rest ih => rw [List.cons_append, dropInitial?, if_pos rfl, ih]

theorem dropInitial?_eq_some_iff {α : Type} [DecidableEq α] {initial text rest : List α} :
    dropInitial? initial text = some rest ↔ text = initial ++ rest := by
  refine ⟨fun dropped => ?_, ?_⟩
  · induction initial generalizing text with
    | nil => exact Option.some.inj dropped
    | cons c others ih =>
        cases text with
        | nil => cases dropped
        | cons d more =>
            rw [dropInitial?] at dropped
            split at dropped
            · next same => rw [same, ih dropped, List.cons_append]
            · cases dropped
  · rintro rfl
    exact dropInitial?_append initial rest

theorem dropFinal?_append {α : Type} [DecidableEq α] (text final : List α) :
    dropFinal? final (text ++ final) = some text := by
  rw [dropFinal?, List.reverse_append, dropInitial?_append, Option.map_some, List.reverse_reverse]

theorem dropReturn_of_not_mem {line : List Char} (absent : '\r' ∉ line) :
    dropReturn line = line := by
  rw [dropReturn, dropFinal?, List.reverse_singleton]
  cases reversed : line.reverse with
  | nil => rfl
  | cons c rest =>
      have inside : c ∈ line := List.mem_reverse.mp (reversed ▸ List.mem_cons_self)
      have other : '\r' ≠ c := fun same => absent (same ▸ inside)
      rw [dropInitial?, if_neg other]
      rfl

/-! ### Bytes -/

theorem dropBytes?_append (before after : List Char) :
    dropBytes? (byteLength before) (before ++ after) = some after := by
  induction before with
  | nil => cases after <;> rfl
  | cons c rest ih =>
      obtain ⟨more, size_eq⟩ : ∃ more, byteLength (c :: rest) = more + 1 :=
        ⟨byteLength (c :: rest) - 1, by have := c.utf8Size_pos; rw [byteLength]; omega⟩
      have fits : c.utf8Size ≤ more + 1 := by rw [← size_eq, byteLength]; omega
      have left : more + 1 - c.utf8Size = byteLength rest := by
        rw [← size_eq, byteLength, Nat.add_sub_cancel_left]
      rw [size_eq, List.cons_append, dropBytes?, if_pos fits, left, ih]

theorem suffix_of_dropBytes? {count : Nat} {text rest : List Char}
    (dropped : dropBytes? count text = some rest) : rest <:+ text := by
  induction text generalizing count with
  | nil =>
      cases count with
      | zero => exact (Option.some.inj dropped) ▸ List.suffix_refl _
      | succ count => cases dropped
  | cons c others ih =>
      cases count with
      | zero => exact (Option.some.inj dropped) ▸ List.suffix_refl _
      | succ count =>
          rw [dropBytes?] at dropped
          split at dropped
          · exact (ih dropped).trans (List.suffix_cons c others)
          · cases dropped

end ActionAtlas.Text
