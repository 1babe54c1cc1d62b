import Mathlib
import ActionAtlas.Text.Cut

/-!
Lists in which some items are silent, such as comments: what is left without them, each item left
changed in the same way.
-/

namespace ActionAtlas.Silence

variable {α : Type} (silent : α → Bool) (change : α → α)

/-- The items that are not silent, changed. -/
def spoken (items : List α) : List α :=
  (items.filter (!silent ·)).map change

/-- The items without the silent ones at both ends. -/
def trimmed (items : List α) : List α :=
  ((items.dropWhile silent).reverse.dropWhile silent).reverse

/-! ### Ends -/

section

variable {silent change} {items : List α} {item : α}

theorem said_of_dropWhile {others : List α} (rest : items.dropWhile silent = item :: others) :
    silent item = false := by
  have first := List.head?_dropWhile_not silent items
  rwa [rest] at first

theorem said_of_trimmed {others : List α} (rest : trimmed silent items = item :: others) :
    silent item = false := by
  have front : trimmed silent items <+: items.dropWhile silent :=
    List.rdropWhile_prefix silent (items.dropWhile silent)
  rw [rest] at front
  obtain ⟨behind, whole⟩ := front
  exact said_of_dropWhile whole.symm

theorem said_of_trimmed_reverse {before : List α}
    (ends : (trimmed silent items).reverse = item :: before) : silent item = false := by
  rw [trimmed, List.reverse_reverse] at ends
  exact said_of_dropWhile ends

theorem mem_of_mem_trimmed (member : item ∈ trimmed silent items) : item ∈ items := by
  have inside := (List.dropWhile_sublist _).mem (List.mem_reverse.mp member)
  exact (List.dropWhile_sublist _).mem (List.mem_reverse.mp inside)

theorem spoken_cons_of_silent (quiet : silent item = true) (others : List α) :
    spoken silent change (item :: others) = spoken silent change others := by
  simp [spoken, quiet]

theorem spoken_cons (said : silent item = false) (others : List α) :
    spoken silent change (item :: others) = change item :: spoken silent change others := by
  simp [spoken, said]

theorem spoken_reverse :
    spoken silent change items.reverse = (spoken silent change items).reverse := by
  simp only [spoken, List.filter_reverse, List.map_reverse]

theorem spoken_dropWhile :
    spoken silent change (items.dropWhile silent) = spoken silent change items := by
  induction items with
  | nil => rfl
  | cons item others ih =>
      rw [List.dropWhile_cons]
      cases quiet : silent item with
      | true => rwa [spoken_cons_of_silent quiet]
      | false => rfl

theorem spoken_trimmed :
    spoken silent change (trimmed silent items) = spoken silent change items := by
  rw [trimmed, spoken_reverse, spoken_dropWhile, spoken_reverse, List.reverse_reverse,
    spoken_dropWhile]

/-- Without silent items at the ends, a list either is empty or something is said in it. -/
theorem trimmed_eq_nil_iff : trimmed silent items = [] ↔ spoken silent change items = [] := by
  constructor
  · intro empty
    rw [← spoken_trimmed, empty]
    rfl
  · intro nothing
    have quiet : ∀ item ∈ items, silent item = true := by simpa [spoken] using nothing
    have none_left : items.dropWhile silent = [] := List.dropWhile_eq_nil_iff.mpr quiet
    rw [trimmed, none_left]
    rfl

end

/-! ### What is said -/

section

variable {silent change} (same : ∀ item, silent (change item) = silent item)

include same

theorem said_of_mem_spoken {items : List α} {item : α}
    (member : item ∈ spoken silent change items) : silent item = false := by
  obtain ⟨original, inside, rfl⟩ := List.mem_map.mp member
  rw [same]
  simpa using (List.mem_filter.mp inside).2

theorem filter_spoken (items : List α) :
    (spoken silent change items).filter (!silent ·) = spoken silent change items :=
  List.filter_eq_self.mpr fun item member => by
    rw [said_of_mem_spoken same member]
    rfl

theorem dropWhile_spoken (items : List α) :
    (spoken silent change items).dropWhile silent = spoken silent change items := by
  cases said : spoken silent change items with
  | nil => rfl
  | cons item others =>
      have first := said_of_mem_spoken same (said ▸ List.mem_cons_self)
      rw [List.dropWhile_cons, first]
      rfl

theorem takeWhile_spoken (items : List α) :
    (spoken silent change items).takeWhile silent = [] := by
  cases said : spoken silent change items with
  | nil => rfl
  | cons item others =>
      have first := said_of_mem_spoken same (said ▸ List.mem_cons_self)
      rw [List.takeWhile_cons, first]
      rfl

theorem trimmed_spoken (items : List α) :
    trimmed silent (spoken silent change items) = spoken silent change items := by
  rw [trimmed, dropWhile_spoken same, ← spoken_reverse, dropWhile_spoken same, spoken_reverse,
    List.reverse_reverse]

end

/-! ### Searches and cuts -/

section

variable {silent change} {holds : α → Bool}

theorem find?_spoken (passes : ∀ item, silent item = true → holds item = false)
    (same : ∀ item, holds (change item) = holds item) (items : List α) :
    (spoken silent change items).find? holds = (items.find? holds).map change := by
  induction items with
  | nil => rfl
  | cons item others ih =>
      cases quiet : silent item with
      | true => rw [spoken_cons_of_silent quiet, ih, List.find?_cons, passes item quiet]
      | false =>
          rw [spoken_cons quiet, List.find?_cons, List.find?_cons, same, ih]
          cases holds item <;> rfl

theorem any_spoken (passes : ∀ item, silent item = true → holds item = false)
    (same : ∀ item, holds (change item) = holds item) (items : List α) :
    (spoken silent change items).any holds = items.any holds := by
  rw [spoken, List.any_map, List.any_filter]
  refine congrArg items.any (funext fun item => ?_)
  rw [Function.comp_apply, same]
  cases quiet : silent item with
  | true => rw [passes item quiet]; rfl
  | false => rfl

theorem all_spoken (passes : ∀ item, silent item = true → holds item = true)
    (same : ∀ item, holds (change item) = holds item) (items : List α) :
    (spoken silent change items).all holds = items.all holds := by
  have negated := any_spoken (fun item quiet => congrArg not (passes item quiet))
    (fun item => congrArg not (same item)) items
  rw [List.all_eq_not_any_not, negated, List.all_eq_not_any_not]

/-- Dropping silent items, among others, from the front. -/
theorem spoken_dropWhile_of (passes : ∀ item, silent item = true → holds item = true)
    (same : ∀ item, holds (change item) = holds item) (items : List α) :
    spoken silent change (items.dropWhile holds) =
      (spoken silent change items).dropWhile holds := by
  induction items with
  | nil => rfl
  | cons item others ih =>
      cases quiet : silent item with
      | true =>
          rw [spoken_cons_of_silent quiet, List.dropWhile_cons, passes item quiet]
          exact ih
      | false =>
          rw [spoken_cons quiet, List.dropWhile_cons, List.dropWhile_cons, same]
          cases holds item with
          | true => exact ih
          | false => exact spoken_cons quiet others

/-- Marks that are all said, and stay marks, cut a list like before. -/
theorem runs_spoken (passes : ∀ item, silent item = true → holds item = false)
    (same : ∀ item, holds (change item) = holds item) (items : List α) :
    Text.runs holds (spoken silent change items) =
      (Text.runs holds items).map (spoken silent change) := by
  induction items with
  | nil => rfl
  | cons item others ih =>
      cases quiet : silent item with
      | true =>
          rw [spoken_cons_of_silent quiet, ih, Text.runs, passes item quiet,
            if_neg Bool.false_ne_true]
          cases given : Text.runs holds others with
          | nil => exact absurd given (Text.runs_ne_nil _ _)
          | cons run rest => simp only [List.map_cons, spoken_cons_of_silent quiet]
      | false =>
          rw [spoken_cons quiet, Text.runs, Text.runs, same, ih]
          split
          · rfl
          · cases given : Text.runs holds others with
            | nil => exact absurd given (Text.runs_ne_nil _ _)
            | cons run rest => simp only [List.map_cons, spoken_cons quiet]

theorem mem_of_mem_runs {items run : List α} {item : α} (piece : run ∈ Text.runs holds items)
    (inside : item ∈ run) : item ∈ items := by
  induction items generalizing run with
  | nil =>
      rw [Text.runs, List.mem_singleton] at piece
      rwa [piece] at inside
  | cons first others ih =>
      rw [Text.runs] at piece
      split at piece
      · rcases List.mem_cons.mp piece with rfl | later
        · cases inside
        · exact List.mem_cons_of_mem first (ih later inside)
      · cases given : Text.runs holds others with
        | nil => exact absurd given (Text.runs_ne_nil _ _)
        | cons next rest =>
            rw [given] at piece
            rcases List.mem_cons.mp piece with rfl | later
            · rcases List.mem_cons.mp inside with rfl | further
              · exact List.mem_cons_self
              · exact List.mem_cons_of_mem first (ih (given ▸ List.mem_cons_self) further)
            · exact List.mem_cons_of_mem first
                (ih (given ▸ List.mem_cons_of_mem next later) inside)

end

end ActionAtlas.Silence
