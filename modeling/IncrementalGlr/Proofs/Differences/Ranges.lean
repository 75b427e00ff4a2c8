import IncrementalGlr.Proofs.Tiling
import IncrementalGlr.Tree.Difference

/-!
# Ranges of differences

Two subtrees are compared at offsets of their own, and a pair that has drifted apart is reported
from the smaller of its two offsets on.  In tiled subtrees both offsets only grow on the way through
the children, so the ranges are found in the order of their starts.  This is why it is enough to
merge each of them with the last one alone.
-/

namespace IncrementalGlr

namespace Span

/-- Whether an offset lies in a range. -/
def Holds (span : Span) (offset : Nat) : Prop := span.start ≤ offset ∧ offset < span.stop

/-- Whether ranges start in ascending order between two bounds, and none of them ends before it
starts. -/
structure Ascend (low high : Nat) (ranges : List Span) : Prop where
  /-- All of them start between the bounds. -/
  between : ∀ range ∈ ranges, low ≤ range.start ∧ range.start ≤ high
  /-- They are ranges. -/
  forward : ∀ range ∈ ranges, range.start ≤ range.stop
  /-- They are sorted by their starts. -/
  sorted : ranges.Pairwise fun left right => left.start ≤ right.start

/-- Whether ranges are in ascending order with a gap between any two, and none of them ends before
it starts. -/
structure Apart (ranges : List Span) : Prop where
  /-- They are ranges. -/
  forward : ∀ range ∈ ranges, range.start ≤ range.stop
  /-- Each one ends before those after it start. -/
  gaps : ranges.Pairwise fun left right => left.stop < right.start

variable {low middle high offset : Nat} {range : Span} {ranges left right : List Span}

theorem ascend_nil (low high : Nat) : Ascend low high [] := ⟨nofun, nofun, .nil⟩

theorem ascend_singleton (lower : low ≤ range.start) (upper : range.start ≤ high)
    (forward : range.start ≤ range.stop) : Ascend low high [range] := by
  refine ⟨fun other member => ?_, fun other member => ?_, List.pairwise_singleton _ _⟩ <;>
    obtain rfl := List.mem_singleton.1 member
  · exact ⟨lower, upper⟩
  · exact forward

theorem Ascend.append (first : Ascend low middle left) (second : Ascend middle high right)
    (lower : low ≤ middle) (upper : middle ≤ high) : Ascend low high (left ++ right) where
  between range member := by
    rcases List.mem_append.1 member with before | behind
    · exact ⟨(first.between range before).1, (first.between range before).2.trans upper⟩
    · exact ⟨lower.trans (second.between range behind).1, (second.between range behind).2⟩
  forward range member :=
    (List.mem_append.1 member).elim (first.forward range) (second.forward range)
  sorted := List.pairwise_append.2 ⟨first.sorted, second.sorted, fun _ before _ behind =>
    (first.between _ before).2.trans (second.between _ behind).1⟩

/-! ## Merging -/

theorem apart_reverse_cons : Apart (range :: ranges).reverse ↔
    range.start ≤ range.stop ∧ Apart ranges.reverse ∧
      ∀ before ∈ ranges, before.stop < range.start := by
  rw [List.reverse_cons]
  constructor
  · rintro ⟨forward, gaps⟩
    obtain ⟨older, -, between⟩ := List.pairwise_append.1 gaps
    exact ⟨forward range (List.mem_append_right _ List.mem_cons_self),
      ⟨fun other member => forward other (List.mem_append_left _ member), older⟩,
      fun before member => between before (List.mem_reverse.2 member) range List.mem_cons_self⟩
  · rintro ⟨own, ⟨forward, gaps⟩, between⟩
    refine ⟨fun other member => ?_, List.pairwise_append.2
      ⟨gaps, List.pairwise_singleton _ _, fun before member other last => ?_⟩⟩
    · rcases List.mem_append.1 member with older | last
      · exact forward other older
      · obtain rfl := List.mem_singleton.1 last
        exact own
    · obtain rfl := List.mem_singleton.1 last
      exact between before (List.mem_reverse.1 member)

/-- A range that starts no earlier than the last one keeps the merged ranges apart, and the one that
is last then starts no later than it. -/
theorem Apart.pushMerged (apart : Apart ranges.reverse) (forward : range.start ≤ range.stop)
    (behind : ∀ last ∈ ranges.head?, last.start ≤ range.start) :
    Apart (pushMerged ranges range).reverse ∧
      ∀ last ∈ (Span.pushMerged ranges range).head?, last.start ≤ range.start := by
  cases ranges with
  | nil =>
      refine ⟨apart_reverse_cons.2 ⟨forward, apart, nofun⟩, ?_⟩
      rintro last ⟨⟩
      exact le_rfl
  | cons last before =>
      have starts : last.start ≤ range.start := behind last rfl
      obtain ⟨own, older, gaps⟩ := apart_reverse_cons.1 apart
      rw [Span.pushMerged]
      split_ifs with touching
      · have start : (last.cover range).start = last.start := min_eq_left starts
        refine ⟨apart_reverse_cons.2 ⟨?_, older, fun other member => ?_⟩, ?_⟩
        · rw [start]
          exact own.trans (le_max_left ..)
        · rw [start]
          exact gaps other member
        · rintro other ⟨⟩
          exact start.trans_le starts
      · refine ⟨apart_reverse_cons.2 ⟨forward, apart, fun other member => ?_⟩, ?_⟩
        · rcases List.mem_cons.1 member with rfl | earlier
          · exact not_le.1 touching
          · exact (gaps other earlier).trans_le starts
        · rintro other ⟨⟩
          exact le_rfl

theorem Apart.foldl_pushMerged {merged : List Span} (apart : Apart merged.reverse)
    (forward : ∀ range ∈ ranges, range.start ≤ range.stop)
    (sorted : ranges.Pairwise fun left right => left.start ≤ right.start)
    (behind : ∀ last ∈ merged.head?, ∀ range ∈ ranges, last.start ≤ range.start) :
    Apart (ranges.foldl Span.pushMerged merged).reverse := by
  induction ranges generalizing merged with
  | nil => exact apart
  | cons range rest induction =>
      obtain ⟨first, later⟩ := List.pairwise_cons.1 sorted
      obtain ⟨pushed, starts⟩ := apart.pushMerged (forward range List.mem_cons_self)
        fun last member => behind last member range List.mem_cons_self
      exact induction pushed (fun other member => forward other (List.mem_cons_of_mem _ member))
        later fun last member other listed => (starts last member).trans (first other listed)

/-- Merging gives up nothing of the ranges. -/
theorem exists_pushMerged (range : Span) (ranges : List Span)
    (held : range.Holds offset ∨ ∃ other ∈ ranges, other.Holds offset) :
    ∃ other ∈ pushMerged ranges range, other.Holds offset := by
  cases ranges with
  | nil =>
      obtain own | ⟨_, member, -⟩ := held
      · exact ⟨range, List.mem_cons_self, own⟩
      · cases member
  | cons last before =>
      rw [pushMerged]
      split_ifs with touching
      · have covered : range.Holds offset ∨ last.Holds offset →
            (last.cover range).Holds offset := by
          simp only [Holds, cover]
          omega
        obtain own | ⟨other, member, within⟩ := held
        · exact ⟨_, List.mem_cons_self, covered (.inl own)⟩
        · rcases List.mem_cons.1 member with rfl | earlier
          · exact ⟨_, List.mem_cons_self, covered (.inr within)⟩
          · exact ⟨other, List.mem_cons_of_mem _ earlier, within⟩
      · obtain own | ⟨other, member, within⟩ := held
        · exact ⟨range, List.mem_cons_self, own⟩
        · exact ⟨other, List.mem_cons_of_mem _ member, within⟩

theorem exists_foldl_pushMerged (merged : List Span)
    (held : ∃ range ∈ merged ++ ranges, range.Holds offset) :
    ∃ range ∈ ranges.foldl pushMerged merged, range.Holds offset := by
  induction ranges generalizing merged with
  | nil => rwa [List.append_nil] at held
  | cons range rest induction =>
      refine induction _ ?_
      obtain ⟨other, member, within⟩ := held
      rw [List.mem_append, List.mem_cons] at member
      rcases member with older | rfl | later
      · obtain ⟨found, listed, inside⟩ := exists_pushMerged range merged
          (.inr ⟨other, older, within⟩)
        exact ⟨found, List.mem_append_left _ listed, inside⟩
      · obtain ⟨found, listed, inside⟩ := exists_pushMerged _ merged (.inl within)
        exact ⟨found, List.mem_append_left _ listed, inside⟩
      · exact ⟨other, List.mem_append_right _ later, within⟩

end Span

/-! ## Comparing -/

namespace Subtree

variable {old new : Subtree}

theorem sameShape_iff : old.sameShape new = true ↔ old.symbol = new.symbol ∧
    old.length = new.length ∧ old.isLeaf = new.isLeaf ∧ old.isExtra = new.isExtra ∧
      old.children.length = new.children.length := by
  simp [sameShape, and_assoc]

/-- What the comparison of two subtrees reports: nothing for the same object, a changed token as a
whole, the differences of the children of two nodes of one shape, or else the range of both. -/
theorem differences_cases (oldStart newStart : Nat) (old new : Subtree) :
    (oldStart = newStart ∧ old.id = new.id ∧ old.differences oldStart newStart new = []) ∨
    (oldStart = newStart ∧ old.sameShape new = true ∧ old.isLeaf = true ∧
      old.differences oldStart newStart new =
        if old.hasChanges then [⟨newStart, newStart + new.length⟩] else []) ∨
    (oldStart = newStart ∧ old.sameShape new = true ∧ old.isLeaf = false ∧
      old.differences oldStart newStart new =
        differencesAll oldStart newStart old.children new.children) ∨
    old.differences oldStart newStart new =
      [⟨min oldStart newStart, max (oldStart + old.length) (newStart + new.length)⟩] := by
  obtain ⟨data, children⟩ := old
  rw [differences]
  by_cases shared : (oldStart == newStart && (mk data children).same new) = true
  · rw [if_pos shared]
    rw [Bool.and_eq_true, beq_iff_eq] at shared
    exact .inl ⟨shared.1, beq_iff_eq.1 shared.2, rfl⟩
  · rw [if_neg shared]
    by_cases shape : (oldStart == newStart && (mk data children).sameShape new) = true
    · rw [if_pos shape]
      rw [Bool.and_eq_true, beq_iff_eq] at shape
      cases token : data.flags.leaf with
      | true => exact .inr (.inl ⟨shape.1, shape.2, token, rfl⟩)
      | false => exact .inr (.inr (.inl ⟨shape.1, shape.2, token, rfl⟩))
    · rw [if_neg shape]
      exact .inr (.inr (.inr rfl))

/-- Children that are compared start between the starts and the ends of the two lists. -/
theorem ascend_differencesAll {olds news : List Subtree} (oldStart newStart : Nat)
    (ascend : ∀ old ∈ olds, ∀ oldStart newStart, ∀ new ∈ news,
      Span.Ascend (min oldStart newStart) (min (oldStart + old.length) (newStart + new.length))
        (old.differences oldStart newStart new)) :
    Span.Ascend (min oldStart newStart)
      (min (oldStart + totalLength olds) (newStart + totalLength news))
      (differencesAll oldStart newStart olds news) := by
  induction olds generalizing news oldStart newStart with
  | nil =>
      rw [differencesAll]
      exacts [Span.ascend_nil _ _, nofun]
  | cons old olds induction =>
      cases news with
      | nil =>
          rw [differencesAll]
          exacts [Span.ascend_nil _ _, nofun]
      | cons new news =>
          have first := ascend old List.mem_cons_self oldStart newStart new List.mem_cons_self
          have later := induction (oldStart + old.length) (newStart + new.length)
            fun child member _ _ other listed =>
              ascend child (List.mem_cons_of_mem _ member) _ _ other (List.mem_cons_of_mem _ listed)
          rw [differencesAll, totalLength_cons, totalLength_cons, ← Nat.add_assoc, ← Nat.add_assoc]
          exact first.append later (by omega) (by omega)

/-- The differences of two tiled subtrees ascend. -/
theorem ascend_differences (oldTiled : old.Tiled) (newTiled : new.Tiled) (oldStart newStart : Nat) :
    Span.Ascend (min oldStart newStart) (min (oldStart + old.length) (newStart + new.length))
      (old.differences oldStart newStart new) := by
  induction oldTiled generalizing new oldStart newStart with
  | @mk old bare filled under induction =>
      obtain ⟨-, -, same⟩ | ⟨rfl, -, -, same⟩ | ⟨rfl, shape, node, same⟩ | same :=
        differences_cases oldStart newStart old new <;> rw [same]
      · exact Span.ascend_nil _ _
      · split_ifs
        · exact Span.ascend_singleton (min_le_right _ _) (by dsimp only; omega)
            (Nat.le_add_right _ _)
        · exact Span.ascend_nil _ _
      · obtain ⟨-, -, kind, -⟩ := sameShape_iff.1 shape
        rw [filled node, newTiled.filled (kind.symm.trans node)]
        exact ascend_differencesAll oldStart oldStart fun child member _ _ other listed =>
          induction child member (newTiled.child other listed) _ _
      · exact Span.ascend_singleton le_rfl (by dsimp only; omega) (by dsimp only; omega)

/-- Where two lists of children reach the pair at an index, its differences are reported. -/
theorem differences_subset_differencesAll {olds news : List Subtree} {index : Nat}
    (oldFound : olds[index]? = some old) (newFound : news[index]? = some new)
    (oldStart newStart : Nat) :
    old.differences (oldStart + totalLength (olds.take index))
        (newStart + totalLength (news.take index)) new ⊆
      differencesAll oldStart newStart olds news := by
  induction index generalizing olds news oldStart newStart with
  | zero =>
      obtain ⟨olds, rfl⟩ := List.head?_eq_some_iff.1 (List.head?_eq_getElem? ▸ oldFound)
      obtain ⟨news, rfl⟩ := List.head?_eq_some_iff.1 (List.head?_eq_getElem? ▸ newFound)
      rw [differencesAll]
      exact List.subset_append_left _ _
  | succ index induction =>
      cases olds with
      | nil => cases oldFound
      | cons first olds =>
          cases news with
          | nil => cases newFound
          | cons other news =>
              have later := induction (by simpa using oldFound) (by simpa using newFound)
                (oldStart + first.length) (newStart + other.length)
              rw [differencesAll, List.take_succ_cons, List.take_succ_cons, totalLength_cons,
                totalLength_cons, ← Nat.add_assoc, ← Nat.add_assoc]
              exact List.Subset.trans later (List.subset_append_right _ _)

end Subtree

namespace SyntaxTree

variable {old new : SyntaxTree}

/-- The changed ranges of two tiled trees are in ascending order with gaps between them. -/
theorem apart_changedRanges (oldTiled : old.root.Tiled) (newTiled : new.root.Tiled) :
    Span.Apart (old.changedRanges new) :=
  have ascend := Subtree.ascend_differences oldTiled newTiled 0 0
  Span.Apart.foldl_pushMerged ⟨nofun, .nil⟩ ascend.forward ascend.sorted nofun

/-- What is reported of the roots is in the changed ranges. -/
theorem exists_changedRanges {offset : Nat}
    (held : ∃ range ∈ old.root.differences 0 0 new.root, range.Holds offset) :
    ∃ range ∈ old.changedRanges new, range.Holds offset := by
  obtain ⟨range, member, within⟩ := Span.exists_foldl_pushMerged [] held
  exact ⟨range, List.mem_reverse.2 member, within⟩

end SyntaxTree

end IncrementalGlr
