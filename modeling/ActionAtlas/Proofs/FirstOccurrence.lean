import Mathlib

/-!
Lists in which each member stands once, where it first occurs, and the positions of the members.
-/

namespace ActionAtlas.FirstOccurrence

variable {α : Type*} [BEq α]

theorem idxOf?_concat (items : List α) (item other : α) :
    (items ++ [item]).idxOf? other =
      (items.idxOf? other).or (if item == other then some items.length else none) := by
  simp only [List.idxOf?, List.findIdx?_append, List.findIdx?_singleton]
  cases item == other with
  | true => simp
  | false => simp

variable [LawfulBEq α]

theorem eraseDups_concat_of_mem {items : List α} {item : α} (known : item ∈ items) :
    (items ++ [item]).eraseDups = items.eraseDups := by
  rw [List.eraseDups_append]
  simp [List.removeAll, known]

theorem eraseDups_concat_of_not_mem {items : List α} {item : α} (fresh : item ∉ items) :
    (items ++ [item]).eraseDups = items.eraseDups ++ [item] := by
  rw [List.eraseDups_append]
  simp [List.removeAll, fresh, List.eraseDups_cons]

theorem nodup_eraseDups (items : List α) : items.eraseDups.Nodup := by
  induction items using List.reverseRecOn with
  | nil => exact List.nodup_nil
  | append_singleton before item ih =>
      by_cases known : item ∈ before
      · rwa [eraseDups_concat_of_mem known]
      · rw [eraseDups_concat_of_not_mem known]
        rw [← List.concat_eq_append]
        exact ih.concat fun earlier => known (List.mem_eraseDups.mp earlier)

theorem eraseDups_filter (holds : α → Bool) (items : List α) :
    (items.filter holds).eraseDups = items.eraseDups.filter holds := by
  induction items using List.reverseRecOn with
  | nil => rfl
  | append_singleton before item ih =>
      rw [List.filter_append]
      cases kept : holds item with
      | false =>
          by_cases known : item ∈ before
          · rw [eraseDups_concat_of_mem known, ← ih]
            simp [kept]
          · rw [eraseDups_concat_of_not_mem known, List.filter_append, ← ih]
            simp [kept]
      | true =>
          have alone : [item].filter holds = [item] := by simp [kept]
          rw [alone]
          by_cases known : item ∈ before
          · have inside : item ∈ before.filter holds := List.mem_filter.mpr ⟨known, kept⟩
            rw [eraseDups_concat_of_mem known, eraseDups_concat_of_mem inside, ih]
          · have outside : item ∉ before.filter holds := fun both =>
              known (List.mem_of_mem_filter both)
            rw [eraseDups_concat_of_not_mem known, eraseDups_concat_of_not_mem outside,
              List.filter_append, alone, ih]

/-- Members of the second list come behind those of the first, unless they are among these. -/
theorem eraseDups_append (items more : List α) :
    (items ++ more).eraseDups = items.eraseDups ++ more.eraseDups.removeAll items := by
  rw [List.eraseDups_append, List.removeAll, eraseDups_filter, List.removeAll]

theorem mem_append_eraseDups_removeAll {item : α} {items more : List α} :
    item ∈ items ++ (more.removeAll items).eraseDups ↔ item ∈ items ∨ item ∈ more := by
  rw [List.mem_append, List.mem_eraseDups, List.removeAll, List.mem_filter]
  by_cases known : item ∈ items
  · simp [known]
  · simp [known]

/-- Keeping only first occurrences changes no search for a first member. -/
theorem find?_eraseDups (holds : α → Bool) (items : List α) :
    items.eraseDups.find? holds = items.find? holds := by
  induction items using List.reverseRecOn with
  | nil => rfl
  | append_singleton before item ih =>
      by_cases known : item ∈ before
      · rw [eraseDups_concat_of_mem known, ih, List.find?_append]
        cases found : before.find? holds with
        | some first => rfl
        | none =>
            have fails := List.find?_eq_none.mp found item known
            simp [fails]
      · rw [eraseDups_concat_of_not_mem known, List.find?_append, List.find?_append, ih]

/-- Where members occur once, the position of a member is that of no other. -/
theorem eq_iff_of_nodup {items : List α} (distinct : items.Nodup) {item other : α}
    {position index : Nat} (located : items.idxOf? item = some position)
    (there : items[index]? = some other) : position = index ↔ item = other := by
  obtain ⟨inside, here, -⟩ := List.idxOf?_eq_some_iff.mp located
  obtain ⟨within, same⟩ := List.getElem?_eq_some_iff.mp there
  rw [← here, ← same]
  exact distinct.getElem_inj_iff.symm

/-- What is left of a list stands in the order of first occurrence. -/
theorem pairwise_idxOf_eraseDups (items : List α) :
    items.eraseDups.Pairwise fun item later => items.idxOf item < items.idxOf later := by
  induction items using List.reverseRecOn with
  | nil => exact .nil
  | append_singleton before item ih =>
      have kept : before.eraseDups.Pairwise fun earlier later =>
          (before ++ [item]).idxOf earlier < (before ++ [item]).idxOf later := by
        apply ih.imp_of_mem
        intro earlier later first second less
        rwa [List.idxOf_append_of_mem (List.mem_eraseDups.mp first),
          List.idxOf_append_of_mem (List.mem_eraseDups.mp second)]
      by_cases known : item ∈ before
      · rwa [eraseDups_concat_of_mem known]
      · rw [eraseDups_concat_of_not_mem known, List.pairwise_append]
        refine ⟨kept, List.pairwise_singleton _ _, ?_⟩
        intro earlier first later last
        rw [List.mem_singleton.mp last, List.idxOf_append_of_mem (List.mem_eraseDups.mp first),
          List.idxOf_append_of_notMem known]
        have inside := List.idxOf_lt_length_of_mem (List.mem_eraseDups.mp first)
        omega

end ActionAtlas.FirstOccurrence
