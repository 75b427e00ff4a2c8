import IncrementalGlr.FixedPoint
import Mathlib.Data.List.Destutter
import Mathlib.Data.List.Perm.Subperm

/-!
# Sorted lists without repetitions

Sorting keeps the members of a list and puts them in the order of a key.  A sorted list from which
repetitions are erased ascends strictly if no two of its members share their key, so it is not
longer than there are keys.
-/

namespace IncrementalGlr

theorem perm_insertSorted {α : Type} (le : α → α → Bool) (added : α) (members : List α) :
    (insertSorted le added members).Perm (added :: members) := by
  induction members with
  | nil => exact .refl _
  | cons first rest induction =>
      rw [insertSorted]
      split
      · exact .refl _
      · exact (induction.cons first).trans (.swap added first rest)

/-- Sorting neither adds nor loses members. -/
theorem perm_sortBy {α : Type} (le : α → α → Bool) (members : List α) :
    (sortBy le members).Perm members := by
  induction members with
  | nil => exact .refl _
  | cons first rest induction => exact (perm_insertSorted le first _).trans (induction.cons first)

theorem mem_sortBy {α : Type} {le : α → α → Bool} {member : α} {members : List α} :
    member ∈ sortBy le members ↔ member ∈ members :=
  (perm_sortBy le members).mem_iff

section Order

variable {α κ : Type} [Preorder κ] {le : α → α → Bool} {key : α → κ}

theorem pairwise_insertSorted (yes : ∀ left right, le left right = true → key left ≤ key right)
    (no : ∀ left right, le left right = false → key right ≤ key left) (added : α)
    {members : List α} (sorted : members.Pairwise fun left right => key left ≤ key right) :
    (insertSorted le added members).Pairwise fun left right => key left ≤ key right := by
  induction members with
  | nil => exact List.pairwise_singleton _ added
  | cons first rest induction =>
      obtain ⟨least, later⟩ := List.pairwise_cons.1 sorted
      rw [insertSorted]
      split
      · next less =>
          refine List.pairwise_cons.2 ⟨fun member inside => ?_, sorted⟩
          rcases List.mem_cons.1 inside with rfl | deeper
          · exact yes _ _ less
          · exact (yes _ _ less).trans (least member deeper)
      · next more =>
          refine List.pairwise_cons.2 ⟨fun member inside => ?_, induction later⟩
          rcases List.mem_cons.1 ((perm_insertSorted le added rest).mem_iff.1 inside) with rfl | deeper
          · exact no _ _ (Bool.eq_false_iff.2 more)
          · exact least member deeper

theorem pairwise_sortBy (yes : ∀ left right, le left right = true → key left ≤ key right)
    (no : ∀ left right, le left right = false → key right ≤ key left) (members : List α) :
    (sortBy le members).Pairwise fun left right => key left ≤ key right := by
  induction members with
  | nil => exact .nil
  | cons first rest induction => exact pairwise_insertSorted yes no first induction

/-- Ascending lists with the same members are equal. -/
theorem eq_of_ascending {left right : List α}
    (leftAscends : left.Pairwise fun first second => key first < key second)
    (rightAscends : right.Pairwise fun first second => key first < key second)
    (same : ∀ member, member ∈ left ↔ member ∈ right) : left = right := by
  have apart : ∀ {members : List α},
      members.Pairwise (fun first second => key first < key second) → members.Nodup :=
    fun ascends => ascends.imp fun less equal => less.ne (congrArg key equal)
  refine List.Perm.eq_of_pairwise (fun first second _ _ less more => ?_) leftAscends rightAscends
    ((List.perm_ext_iff_of_nodup (apart leftAscends) (apart rightAscends)).2 same)
  exact absurd more less.not_gt

end Order

/-- A list that ascends below a limit is not longer than the limit. -/
theorem length_le_of_ascending {α : Type} (key : α → Nat) {members : List α}
    (ascends : members.Pairwise fun left right => key left < key right) {limit : Nat}
    (below : ∀ member ∈ members, key member < limit) : members.length ≤ limit := by
  have distinct : (members.map key).Nodup :=
    List.pairwise_map.2 (ascends.imp Nat.ne_of_lt)
  have inside : members.map key ⊆ List.range limit := by
    intro position listed
    obtain ⟨member, found, rfl⟩ := List.mem_map.1 listed
    exact List.mem_range.2 (below member found)
  simpa using (List.subperm_of_subset distinct inside).length_le

section Repetitions

variable {α : Type} [DecidableEq α] {members : List α}

theorem eraseReps_loop_eq (first : α) (rest done : List α) :
    List.eraseRepsBy.loop (· == ·) first rest done =
      done.reverse ++ rest.destutter' (· ≠ ·) first := by
  induction rest generalizing first done with
  | nil => simp [List.eraseRepsBy.loop]
  | cons second rest induction =>
      rw [List.eraseRepsBy.loop]
      split
      · next same =>
          rw [induction, List.destutter'_cons_neg]
          exact not_not.2 (beq_iff_eq.1 same)
      · next different =>
          rw [induction, List.destutter'_cons_pos _ (beq_eq_false_iff_ne.1 different),
            List.reverse_cons, List.append_assoc, List.singleton_append]

/-- Erasing repetitions leaves no two equal neighbours. -/
theorem eraseReps_eq_destutter (members : List α) :
    members.eraseReps = members.destutter (· ≠ ·) := by
  cases members with
  | nil => rfl
  | cons first rest => exact eraseReps_loop_eq first rest []

theorem mem_destutter' {member first : α} {rest : List α} :
    member ∈ rest.destutter' (· ≠ ·) first ↔ member ∈ first :: rest := by
  induction rest generalizing first with
  | nil => rfl
  | cons second rest induction =>
      by_cases same : first = second
      · rw [List.destutter'_cons_neg _ (not_not.2 same), induction, same]
        simp
      · rw [List.destutter'_cons_pos _ same, List.mem_cons, induction, ← List.mem_cons]

theorem mem_eraseReps {member : α} : member ∈ members.eraseReps ↔ member ∈ members := by
  rw [eraseReps_eq_destutter]
  cases members with
  | nil => rfl
  | cons first rest => exact mem_destutter'

/-- Without repetitions a sorted list ascends, if only equal members share their key. -/
theorem pairwise_eraseReps {κ : Type} [PartialOrder κ] {key : α → κ}
    (sorted : members.Pairwise fun left right => key left ≤ key right)
    (distinct : ∀ left ∈ members, ∀ right ∈ members, key left = key right → left = right) :
    members.eraseReps.Pairwise fun left right => key left < key right := by
  have chain : members.eraseReps.IsChain (· ≠ ·) := by
    rw [eraseReps_eq_destutter]
    exact members.isChain_destutter _
  have kept : members.eraseReps.Sublist members := by
    rw [eraseReps_eq_destutter]
    exact members.destutter_sublist _
  have ordered := sorted.sublist kept
  have transitive : IsTrans α fun left right => key left < key right := ⟨fun _ _ _ => lt_trans⟩
  refine List.isChain_iff_pairwise.1 (List.isChain_iff_getElem.2 fun index inside => ?_)
  refine lt_of_le_of_ne ?_ fun same => List.isChain_iff_getElem.1 chain index inside ?_
  · exact List.pairwise_iff_getElem.1 ordered index (index + 1) _ inside (Nat.lt_succ_self index)
  · exact distinct _ (kept.subset (List.getElem_mem _)) _ (kept.subset (List.getElem_mem _)) same

end Repetitions

end IncrementalGlr
