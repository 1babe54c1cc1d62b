import Mathlib.Data.List.Basic

/-!
What a stable sort does to a list with some of its items left out: these items are missing from the
result, and nothing else changes.
-/

namespace ActionAtlas

variable {α : Type}

theorem eq_of_append_eq_append {holds : α → Bool} {front back otherFront otherBack : List α}
    (same : front ++ back = otherFront ++ otherBack) (inFront : ∀ x ∈ front, holds x = true)
    (inOtherFront : ∀ x ∈ otherFront, holds x = true) (inBack : ∀ x ∈ back, ¬holds x = true)
    (inOtherBack : ∀ x ∈ otherBack, ¬holds x = true) : front = otherFront ∧ back = otherBack := by
  have fronts := congrArg (List.filter holds) same
  rw [List.filter_append, List.filter_append, List.filter_eq_self.mpr inFront,
    List.filter_eq_self.mpr inOtherFront, List.filter_eq_nil_iff.mpr inBack,
    List.filter_eq_nil_iff.mpr inOtherBack, List.append_nil, List.append_nil] at fronts
  exact ⟨fronts, List.append_cancel_left (fronts ▸ same)⟩

/-- An item goes in front of the first that it is not behind, so that what is kept of the sorted
others is what the item is put into. -/
theorem filter_mergeSort {le : α → α → Bool}
    (transitive : ∀ a b c, le a b = true → le b c = true → le a c = true)
    (total : ∀ a b, (le a b || le b a) = true) (keep : α → Bool) (items : List α) :
    (items.mergeSort le).filter keep = (items.filter keep).mergeSort le := by
  -- What stands behind an item in a sorted list is not in front of it.
  have behind {item : α} {before after list : List α}
      (whole : list.mergeSort le = before ++ item :: after) :
      ∀ other ∈ after, ¬(!le item other) = true := by
    have sorted := List.pairwise_mergeSort transitive total list
    rw [whole, List.pairwise_append, List.pairwise_cons] at sorted
    intro other inside
    rw [sorted.2.1.1 other inside]
    exact Bool.false_ne_true
  induction items with
  | nil => rw [List.filter_nil, List.mergeSort_nil, List.filter_nil]
  | cons item others ih =>
      obtain ⟨before, after, whole, rest, inFront⟩ :=
        List.mergeSort_cons transitive total item others
      by_cases kept : keep item = true
      · obtain ⟨keptBefore, keptAfter, keptWhole, keptRest, inKeptFront⟩ :=
          List.mergeSort_cons transitive total item (others.filter keep)
        have same : keptBefore ++ keptAfter = before.filter keep ++ after.filter keep := by
          rw [← keptRest, ← ih, rest, List.filter_append]
        have parts := eq_of_append_eq_append same inKeptFront
          (fun other inside => inFront other (List.mem_of_mem_filter inside)) (behind keptWhole)
          (fun other inside => behind whole other (List.mem_of_mem_filter inside))
        rw [whole, List.filter_append, List.filter_cons_of_pos kept,
          List.filter_cons_of_pos kept, keptWhole, parts.1, parts.2]
      · rw [whole, List.filter_append, List.filter_cons_of_neg kept, List.filter_cons_of_neg kept,
          ← ih, rest, List.filter_append]

end ActionAtlas
