import IncrementalGlr.Parse.Reuse
import IncrementalGlr.Proofs.Edits.Unchanged
import IncrementalGlr.Proofs.Errors.Merged
import Mathlib.Data.List.Lex

/-!
# The outermost errors of a tree

A subtree counts the errors in it, and edits leave the count alone.  So it is enough to look into
subtrees that count some, and the ranges found are those of all errors that are inside no other one,
in the order of the text.

The number is stored in 32 bits, and nodes may share what is below them.  A tree of few objects may
so have too many errors for the number that its root stores, and then the search may miss them.
-/

namespace IncrementalGlr

namespace Subtree

/-! ## Counted errors -/

/-- Whether a subtree counts itself, if it is an error, and all that its children count. -/
structure CountsErrors (subtree : Subtree) : Prop where
  /-- Tokens have no children. -/
  bare : subtree.isLeaf = true → subtree.children = []
  /-- The errors are its own and those of the children. -/
  errors : subtree.errorCount =
    subtree.isError.toNat + (subtree.children.map errorCount).foldr (· + ·) 0

variable {subtree part : Subtree} {path : List Nat} {offset start : Nat}

theorem Built.countsErrors (built : subtree.Built) : Throughout CountsErrors subtree := by
  induction built with
  | token id spec => exact .mk ⟨fun _ => rfl, rfl⟩ nofun
  | node id spec under induction => exact .mk ⟨nofun, rfl⟩ induction

theorem errorCount_editChanged (map : EditMap) (start : Nat) (subtree : Subtree)
    (progress : EditProgress) :
    (editChanged map start subtree progress).1.errorCount = subtree.errorCount ∧
      (editChanged map start subtree progress).1.isError = subtree.isError ∧
      (editChanged map start subtree progress).1.isLeaf = subtree.isLeaf := by
  obtain ⟨-, id, same⟩ | ⟨-, id, same⟩ := editChanged_cases map start subtree progress <;>
    · rw [same]
      exact ⟨rfl, rfl, rfl⟩

theorem map_errorCount_editAll (map : EditMap) (start : Nat) (subtrees : List Subtree)
    (progress : EditProgress) :
    (editAll map start subtrees progress).1.map errorCount = subtrees.map errorCount := by
  induction subtrees generalizing start progress with
  | nil => rfl
  | cons child rest induction =>
      obtain ⟨edited, middle, edits, same⟩ := editAll_cons map start child rest progress
      have first : edited.errorCount = child.errorCount := by
        obtain ⟨-, rfl⟩ | ⟨progress, rfl⟩ := edits
        · rfl
        · exact (errorCount_editChanged map start child progress).1
      rw [same, List.map_cons, List.map_cons, induction, first]

theorem CountsErrors.editChanged {map : EditMap} (start : Nat) (subtree : Subtree)
    (progress : EditProgress) (counts : subtree.CountsErrors) :
    (editChanged map start subtree progress).1.CountsErrors := by
  obtain ⟨errors, error, leaf⟩ := errorCount_editChanged map start subtree progress
  obtain ⟨token, id, same⟩ | ⟨node, id, same⟩ := editChanged_cases map start subtree progress
  · refine ⟨fun _ => by rw [same]; rfl, ?_⟩
    rw [errors, error, counts.errors, counts.bare token, same]
    rfl
  · refine ⟨fun token => absurd (node.symm.trans (leaf.symm.trans token)) (by simp), ?_⟩
    rw [errors, error, counts.errors, same,
      ← map_errorCount_editAll map start subtree.children progress]
    rfl

mutual

/-- The number of errors that a subtree counts is that of the errors in it. -/
theorem errorCount_eq (depth : Nat) {subtree : Subtree} (counts : Throughout CountsErrors subtree) :
    subtree.errorCount = ((subtree.preorder depth).filter fun entry => entry.2.isError).length := by
  cases subtree with
  | mk data children =>
      have below : (children.map errorCount).foldr (· + ·) 0 = ((preorderAll (depth + 1)
          children).filter fun entry => entry.2.isError).length :=
        sum_errorCount_eq (depth + 1) counts.under
      rw [counts.here.errors, show (mk data children).children = children from rfl, below, preorder]
      cases error : (mk data children).isError with
      | true =>
          rw [List.filter_cons_of_pos (by exact error), List.length_cons, Bool.toNat_true,
            Nat.add_comm]
      | false =>
          rw [List.filter_cons_of_neg (by simp [error]), Bool.toNat_false, Nat.zero_add]

theorem sum_errorCount_eq (depth : Nat) {subtrees : List Subtree}
    (counts : ∀ child ∈ subtrees, Throughout CountsErrors child) :
    (subtrees.map errorCount).foldr (· + ·) 0 =
      ((preorderAll depth subtrees).filter fun entry => entry.2.isError).length := by
  cases subtrees with
  | nil => rfl
  | cons child rest =>
      obtain ⟨first, others⟩ := List.forall_mem_cons.1 counts
      rw [preorderAll, List.filter_append, List.length_append, ← errorCount_eq depth first,
        ← sum_errorCount_eq depth others]
      rfl

end

theorem CountsErrors.counted (counts : subtree.CountsErrors) : subtree.Counted := by
  refine ⟨fun error => ?_, fun child member wrong => ?_⟩
  · rw [hasError, decide_eq_true_eq, counts.errors, error]
    exact Nat.add_pos_left Nat.one_pos _
  · rw [hasError, decide_eq_true_eq] at wrong ⊢
    have below : child.errorCount ≤ (subtree.children.map errorCount).sum :=
      List.le_sum_of_mem (List.mem_map_of_mem member)
    rw [counts.errors]
    exact wrong.trans_le (below.trans (Nat.le_add_left ..))

/-- An error in a subtree shows in what the subtree counts. -/
theorem hasError_of_part (counts : Throughout CountsErrors subtree)
    (found : subtree.part? path = some (offset, part)) (error : part.isError = true) :
    subtree.hasError = true := by
  induction path generalizing subtree offset with
  | nil =>
      obtain ⟨-, rfl⟩ := part?_nil_eq_some.1 found
      exact counts.here.counted.own error
  | cons index path induction =>
      obtain ⟨child, within, first, rest, -⟩ := part?_cons_eq_some.1 found
      have member := List.mem_of_getElem? first
      exact counts.here.counted.child child member (induction (counts.under child member) rest)

/-! ## Stored numbers -/

/-- The stored number of errors of a node comes of adding those of the children in 32 bits. -/
theorem storedErrors_ofChildren (id : Nat) (spec : NodeSpec) (children : List Subtree) :
    (ofChildren id spec children).storedErrors =
      (children.map storedErrors).foldl (· + ·) (.ofNat spec.error.toNat) := by
  have total : (ofChildren id spec children).storedErrors =
      .ofNat (spec.error.toNat + (children.map errorCount).foldr (· + ·) 0) := rfl
  rw [total]
  clear total
  generalize spec.error.toNat = first
  induction children generalizing first with
  | nil => rfl
  | cons child rest induction =>
      rw [List.map_cons, List.map_cons, List.foldr_cons, List.foldl_cons, ← Nat.add_assoc,
        induction (first + child.errorCount), UInt32.ofNat_add]
      rfl

/-- Whether a subtree counts its errors and 32 bits are enough for their number. -/
structure StoresErrors (subtree : Subtree) : Prop extends CountsErrors subtree where
  /-- The number fits. -/
  fits : subtree.errorCount < 4294967296

theorem StoresErrors.storedErrors (stores : subtree.StoresErrors) :
    subtree.storedErrors.toNat = subtree.errorCount :=
  UInt32.toNat_ofNat_of_lt' stores.fits

theorem StoresErrors.storesErrors (stores : subtree.StoresErrors) :
    subtree.storesErrors = subtree.hasError := by
  rw [Subtree.storesErrors, hasError, ← stores.storedErrors]
  rfl

/-- A node that a program makes with overflow checks stores how many errors there are. -/
theorem storesErrors_of_sumsFit {id : Nat} {spec : NodeSpec} {children : List Subtree}
    (fits : sumsFit spec children = true) : (ofChildren id spec children).StoresErrors :=
  have count : (ofChildren 0 spec children).countFits = true := (Bool.and_eq_true_iff.1 fits).1
  ⟨⟨nofun, rfl⟩, of_decide_eq_true count⟩

/-- Whether a path leads to an error and through no other one. -/
structure OutermostError (root : Subtree) (path : List Nat) : Prop where
  /-- At the end of the path there is an error. -/
  error : ∃ offset part, root.part? path = some (offset, part) ∧ part.isError = true
  /-- There is none on the way. -/
  above : ∀ before, before <+: path → before ≠ path →
    ∀ offset part, root.part? before = some (offset, part) → part.isError = false

theorem outermostError_nil : OutermostError subtree [] ↔ subtree.isError = true := by
  constructor
  · rintro ⟨⟨offset, part, found, error⟩, -⟩
    obtain ⟨-, rfl⟩ := part?_nil_eq_some.1 found
    exact error
  · intro error
    exact ⟨⟨0, subtree, rfl, error⟩, fun before inside proper =>
      absurd (List.prefix_nil.1 inside) proper⟩

theorem outermostError_cons {index : Nat} : OutermostError subtree (index :: path) ↔
    subtree.isError = false ∧
      ∃ child, subtree.children[index]? = some child ∧ OutermostError child path := by
  constructor
  · rintro ⟨⟨offset, part, found, error⟩, above⟩
    obtain ⟨child, within, first, rest, -⟩ := part?_cons_eq_some.1 found
    refine ⟨above [] List.nil_prefix (List.cons_ne_nil _ _).symm 0 subtree rfl, child, first,
      ⟨within, part, rest, error⟩, fun before inside proper offset part found => ?_⟩
    exact above (index :: before) (List.cons_prefix_cons.2 ⟨rfl, inside⟩)
      (fun same => proper (List.cons.inj same).2) _ part
      (part?_cons_eq_some.2 ⟨child, offset, first, found, rfl⟩)
  · rintro ⟨correct, child, first, ⟨within, part, found, error⟩, above⟩
    refine ⟨⟨_, part, part?_cons_eq_some.2 ⟨child, within, first, found, rfl⟩, error⟩,
      fun before inside proper offset part found => ?_⟩
    cases before with
    | nil =>
        obtain ⟨-, rfl⟩ := part?_nil_eq_some.1 found
        exact correct
    | cons other before =>
        obtain ⟨rfl, further⟩ := List.cons_prefix_cons.1 inside
        obtain ⟨held, within, there, rest, -⟩ := part?_cons_eq_some.1 found
        cases first.symm.trans there
        exact above before further (fun same => proper (same ▸ rfl)) within part rest

/-- Above every error there is an outermost one, or it is one itself. -/
theorem exists_outermostError (found : subtree.part? path = some (offset, part))
    (error : part.isError = true) : ∃ before, before <+: path ∧ OutermostError subtree before := by
  induction path generalizing subtree offset with
  | nil =>
      obtain ⟨-, rfl⟩ := part?_nil_eq_some.1 found
      exact ⟨[], List.prefix_rfl, outermostError_nil.2 error⟩
  | cons index path induction =>
      obtain ⟨child, within, first, rest, -⟩ := part?_cons_eq_some.1 found
      cases own : subtree.isError with
      | true => exact ⟨[], List.nil_prefix, outermostError_nil.2 own⟩
      | false =>
          obtain ⟨before, inside, outermost⟩ := induction rest
          exact ⟨index :: before, List.cons_prefix_cons.2 ⟨rfl, inside⟩,
            outermostError_cons.2 ⟨own, child, first, outermost⟩⟩

mutual

/-- The paths to the outermost errors, whatever the subtrees count. -/
def errorPaths : Subtree → List (List Nat)
  | mk data children => if data.flags.error then [[]] else errorPathsAll 0 children

/-- The same for children, of which the first one has the given index. -/
def errorPathsAll (index : Nat) : List Subtree → List (List Nat)
  | [] => []
  | child :: rest => child.errorPaths.map (index :: ·) ++ errorPathsAll (index + 1) rest

end

mutual

theorem mem_errorPaths (subtree : Subtree) (path : List Nat) :
    path ∈ subtree.errorPaths ↔ OutermostError subtree path := by
  cases subtree with
  | mk data children =>
      rw [errorPaths]
      split
      · next error =>
          cases path with
          | nil => exact iff_of_true (List.mem_singleton_self _) (outermostError_nil.2 error)
          | cons index path =>
              refine iff_of_false (by simp) fun outermost => ?_
              exact absurd error (Bool.eq_false_iff.1 (outermostError_cons.1 outermost).1)
      · next correct =>
          rw [mem_errorPathsAll 0 children path]
          cases path with
          | nil =>
              refine iff_of_false (by simp) fun outermost => ?_
              exact correct (outermostError_nil.1 outermost)
          | cons index path =>
              rw [outermostError_cons]
              constructor
              · rintro ⟨place, child, below, same, found, outermost⟩
                rw [Nat.zero_add, List.cons.injEq] at same
                obtain ⟨rfl, rfl⟩ := same
                exact ⟨Bool.eq_false_iff.2 correct, child, found, outermost⟩
              · rintro ⟨-, child, found, outermost⟩
                exact ⟨index, child, path, by rw [Nat.zero_add], found, outermost⟩

theorem mem_errorPathsAll (index : Nat) (subtrees : List Subtree) (path : List Nat) :
    path ∈ errorPathsAll index subtrees ↔ ∃ place child below, path = (index + place) :: below ∧
      subtrees[place]? = some child ∧ OutermostError child below := by
  cases subtrees with
  | nil => simp [errorPathsAll]
  | cons child rest =>
      rw [errorPathsAll, List.mem_append, List.mem_map, mem_errorPathsAll]
      constructor
      · rintro (⟨below, member, rfl⟩ | ⟨place, other, below, rfl, found, outermost⟩)
        · exact ⟨0, child, below, rfl, rfl, (mem_errorPaths child below).1 member⟩
        · exact ⟨place + 1, other, below, by rw [Nat.add_assoc, Nat.add_comm 1], found, outermost⟩
      · rintro ⟨_ | place, other, below, rfl, found, outermost⟩
        · obtain rfl := Option.some.inj found
          exact .inl ⟨below, (mem_errorPaths child below).2 outermost, rfl⟩
        · exact .inr ⟨place, other, below, by rw [Nat.add_assoc, Nat.add_comm 1], found, outermost⟩

end

mutual

theorem pairwise_errorPaths (subtree : Subtree) : subtree.errorPaths.Pairwise (· < ·) := by
  cases subtree with
  | mk data children =>
      rw [errorPaths]
      split
      · exact List.pairwise_singleton _ _
      · exact pairwise_errorPathsAll 0 children

/-- The paths come in the order of a dictionary. -/
theorem pairwise_errorPathsAll (index : Nat) (subtrees : List Subtree) :
    (errorPathsAll index subtrees).Pairwise (· < ·) := by
  cases subtrees with
  | nil => exact .nil
  | cons child rest =>
      rw [errorPathsAll, List.pairwise_append, List.pairwise_map]
      refine ⟨(pairwise_errorPaths child).imp fun before =>
          List.cons_lt_cons_iff.2 (.inr ⟨rfl, before⟩),
        pairwise_errorPathsAll (index + 1) rest, fun left leftMember right rightMember => ?_⟩
      obtain ⟨below, -, rfl⟩ := List.mem_map.1 leftMember
      obtain ⟨place, other, further, rfl, -⟩ := (mem_errorPathsAll _ _ _).1 rightMember
      exact List.cons_lt_cons_iff.2 (.inl (by omega))

end

theorem errorPaths_eq_nil_iff :
    subtree.errorPaths = [] ↔
      ∀ path offset part, subtree.part? path = some (offset, part) → part.isError = false := by
  constructor
  · intro noPaths path offset part found
    by_contra error
    obtain ⟨before, -, outermost⟩ := exists_outermostError found (Bool.not_eq_false _ ▸ error)
    have member := (mem_errorPaths subtree before).2 outermost
    rw [noPaths] at member
    cases member
  · intro correct
    refine List.eq_nil_iff_forall_not_mem.2 fun path member => ?_
    obtain ⟨offset, part, found, error⟩ := ((mem_errorPaths subtree path).1 member).error
    exact absurd error (Bool.eq_false_iff.1 (correct path offset part found))

/-! ## Ranges -/

/-- In a subtree that counts no errors there is none. -/
theorem errorPaths_eq_nil (stores : Throughout StoresErrors subtree)
    (none : subtree.storesErrors = false) : subtree.errorPaths = [] := by
  refine errorPaths_eq_nil_iff.2 fun path offset part found => Bool.eq_false_iff.2 fun error => ?_
  rw [stores.here.storesErrors] at none
  exact absurd (hasError_of_part (stores.mono fun _ => StoresErrors.toCountsErrors) found error)
    (Bool.eq_false_iff.1 none)

/-- Whether a range is that of the part at the end of a path, if the root stands at `start`. -/
def RangeAt (root : Subtree) (start : Nat) (path : List Nat) (range : Span) : Prop :=
  ∃ offset part, root.part? path = some (offset, part) ∧
    range = ⟨start + offset, start + offset + part.length⟩

mutual

/-- The ranges found are those at the paths to the outermost errors, if all errors are counted. -/
theorem forall₂_errorRanges (start : Nat) {subtree : Subtree}
    (stores : Throughout StoresErrors subtree) :
    List.Forall₂ (RangeAt subtree start) subtree.errorPaths (subtree.errorRanges start) := by
  cases subtree with
  | mk data children =>
      rw [errorPaths, errorRanges]
      split
      · exact .cons ⟨0, _, rfl, rfl⟩ .nil
      · exact forall₂_errorRangesAll start [] rfl stores.under

/-- The same for the last children of a node. -/
theorem forall₂_errorRangesAll {parent : Subtree} (start : Nat) (before : List Subtree)
    {subtrees : List Subtree} (split : parent.children = before ++ subtrees)
    (stores : ∀ child ∈ subtrees, Throughout StoresErrors child) :
    List.Forall₂ (RangeAt parent start) (errorPathsAll before.length subtrees)
      (errorRangesAll (start + totalLength before) subtrees) := by
  cases subtrees with
  | nil => exact .nil
  | cons child rest =>
      obtain ⟨first, others⟩ := List.forall_mem_cons.1 stores
      have later := forall₂_errorRangesAll start (before ++ [child]) (by simpa using split) others
      rw [List.length_append, List.length_singleton, totalLength_append, totalLength_cons,
        totalLength_nil, Nat.add_zero, ← Nat.add_assoc] at later
      rw [errorPathsAll, errorRangesAll]
      refine List.rel_append ?_ later
      cases stored : child.storesErrors with
      | false =>
          rw [errorPaths_eq_nil first stored]
          exact .nil
      | true =>
          refine List.forall₂_map_left_iff.2 ((forall₂_errorRanges _ first).imp ?_)
          rintro path _ ⟨offset, part, found, rfl⟩
          have place : parent.children[before.length]? = some child := by simp [split]
          refine ⟨_, part, part?_cons_eq_some.2 ⟨child, offset, place, found, rfl⟩, ?_⟩
          rw [split, List.take_left, Nat.add_assoc, ← Nat.add_assoc start]

end

mutual

/-- The ranges lie inside the subtree, each behind the one before. -/
theorem errorRanges_apart (start : Nat) {subtree : Subtree} (tiled : subtree.Tiled) :
    (subtree.errorRanges start).Pairwise (fun left right => left.stop ≤ right.start) ∧
      ∀ range ∈ subtree.errorRanges start,
        start ≤ range.start ∧ range.stop ≤ start + subtree.length := by
  cases subtree with
  | mk data children =>
      rw [errorRanges]
      split
      · exact ⟨List.pairwise_singleton _ _, List.forall_mem_singleton.2 ⟨le_rfl, le_rfl⟩⟩
      · obtain ⟨apart, inside⟩ := errorRangesAll_apart start tiled.child
        have room : totalLength children ≤ (mk data children).length :=
          tiled.totalLength_children_le
        exact ⟨apart, fun range member => ⟨(inside range member).1,
          (inside range member).2.trans (Nat.add_le_add_left room start)⟩⟩

theorem errorRangesAll_apart (start : Nat) {subtrees : List Subtree}
    (tiled : ∀ child ∈ subtrees, child.Tiled) :
    (errorRangesAll start subtrees).Pairwise (fun left right => left.stop ≤ right.start) ∧
      ∀ range ∈ errorRangesAll start subtrees,
        start ≤ range.start ∧ range.stop ≤ start + totalLength subtrees := by
  cases subtrees with
  | nil => exact ⟨.nil, nofun⟩
  | cons child rest =>
      obtain ⟨first, others⟩ := List.forall_mem_cons.1 tiled
      have own := errorRanges_apart start first
      obtain ⟨apart, inside⟩ : (if child.storesErrors then child.errorRanges start else []).Pairwise
          (fun left right => left.stop ≤ right.start) ∧
            ∀ range ∈ (if child.storesErrors then child.errorRanges start else []),
              start ≤ range.start ∧ range.stop ≤ start + child.length := by
        split
        · exact own
        · exact ⟨.nil, nofun⟩
      obtain ⟨laterApart, later⟩ := errorRangesAll_apart (start + child.length) others
      rw [errorRangesAll, totalLength_cons, ← Nat.add_assoc]
      refine ⟨List.pairwise_append.2 ⟨apart, laterApart, fun left leftMember right rightMember =>
        (inside left leftMember).2.trans (later right rightMember).1⟩, fun range member => ?_⟩
      rcases List.mem_append.1 member with here | there
      · exact ⟨(inside range here).1, (inside range here).2.trans (Nat.le_add_right _ _)⟩
      · exact ⟨(Nat.le_add_right _ _).trans (later range there).1, (later range there).2⟩

end

/-! ## A stack of pending subtrees -/

end Subtree

/-! ## Edited trees -/

namespace SyntaxTree

open Subtree

/-- The trees that come from a tree by edits of any kind, whose copies get any ids. -/
inductive EditedFrom (original : SyntaxTree) : SyntaxTree → Prop
  /-- Before the first edit. -/
  | start : EditedFrom original original
  /-- After one more edit. -/
  | edit {tree : SyntaxTree} (history : EditedFrom original tree) (edit : Edit) (nextId : Nat) :
    EditedFrom original (tree.edit edit nextId).1

variable {original tree : SyntaxTree}

/-- Edits leave a tree tiled and all errors counted. -/
theorem EditedFrom.counts (history : EditedFrom original tree) (built : original.root.Built) :
    tree.root.Tiled ∧ Throughout CountsErrors tree.root := by
  induction history with
  | start => exact ⟨built.tiled, built.countsErrors⟩
  | @edit tree history edit nextId induction =>
      obtain ⟨tiled, counts⟩ := induction
      have ordered := EditMap.ordered_ofEdit edit tree.length
      exact ⟨tiled.editChanged ordered 0 ⟨nextId, []⟩,
        counts.editChanged CountsErrors.editChanged 0 ⟨nextId, []⟩⟩

end SyntaxTree

end IncrementalGlr
