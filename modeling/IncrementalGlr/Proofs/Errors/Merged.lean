import IncrementalGlr.Proofs.Sharing.Edit
import Mathlib.Algebra.Order.BigOperators.Group.List
import Mathlib.Algebra.Order.Group.Nat
import Mathlib.Data.List.Chain

/-!
# Subtrees with merged errors

An error that stands above others is an error node.  A subtree is merged if no two error nodes stand
side by side anywhere in it.  For this to last, error nodes must not nest, nor begin or end the
children of a node, and the number of errors that a subtree knows of itself must be right.
-/

namespace IncrementalGlr

namespace Subtree

/-- Whether a subtree is an error above others. -/
def IsErrorNode (subtree : Subtree) : Prop := subtree.isError = true ∧ subtree.isLeaf = false

/-- Whether no two error nodes stand side by side. -/
def Apart (subtrees : List Subtree) : Prop :=
  subtrees.IsChain fun left right => ¬ (left.IsErrorNode ∧ right.IsErrorNode)

/-- Whether error nodes stand side by side at one place at most, and only among extras. -/
def NearlyApart (subtrees : List Subtree) : Prop :=
  Apart subtrees ∨ (∀ subtree ∈ subtrees, subtree.isExtra = true) ∧
    ∃ front back, subtrees = front ++ back ∧ Apart front ∧ Apart back

/-- Whether a subtree knows whether it is or has an error. -/
structure Counted (subtree : Subtree) : Prop where
  /-- It knows of itself. -/
  own : subtree.isError = true → subtree.hasError = true
  /-- It knows of its children. -/
  child : ∀ child ∈ subtree.children, child.hasError = true → subtree.hasError = true

/-- Whether the error nodes among the children of a subtree stay apart wherever it goes. -/
structure Sealed (subtree : Subtree) : Prop where
  /-- They stand apart. -/
  apart : Apart subtree.children
  /-- None of them is first. -/
  first : ∀ child ∈ subtree.children.head?, ¬ child.IsErrorNode
  /-- None of them is last. -/
  last : ∀ child ∈ subtree.children.getLast?, ¬ child.IsErrorNode
  /-- There are none if it is one itself. -/
  flat : subtree.IsErrorNode → ∀ child ∈ subtree.children, ¬ child.IsErrorNode
  /-- Then it is an extra. -/
  loose : subtree.IsErrorNode → subtree.isExtra = true
  /-- Its errors are known. -/
  counted : subtree.Counted

/-- Whether all parts of a subtree are sealed. -/
inductive Merged : Subtree → Prop
  /-- A sealed subtree whose children are merged. -/
  | mk {subtree : Subtree} (here : subtree.Sealed) (under : ∀ child ∈ subtree.children, Merged child) :
    Merged subtree

/-- Whether all parts of a subtree but itself are sealed. -/
structure RootMerged (root : Subtree) : Prop where
  /-- Error nodes stand side by side at one place at most. -/
  nearly : NearlyApart root.children
  /-- Its errors are known. -/
  counted : root.Counted
  /-- Its children are merged. -/
  under : ∀ child ∈ root.children, child.Merged

variable {subtree : Subtree} {subtrees : List Subtree}

theorem Merged.here (merged : subtree.Merged) : subtree.Sealed := by
  cases merged
  assumption

theorem Merged.under (merged : subtree.Merged) : ∀ child ∈ subtree.children, child.Merged := by
  cases merged
  assumption

theorem Merged.root (merged : subtree.Merged) : subtree.RootMerged :=
  ⟨.inl merged.here.apart, merged.here.counted, merged.under⟩

theorem not_isErrorNode_of_isError_eq_false (correct : subtree.isError = false) :
    ¬ subtree.IsErrorNode := fun error => absurd error.1 (by simp [correct])

theorem not_isErrorNode_of_isLeaf (token : subtree.isLeaf = true) : ¬ subtree.IsErrorNode :=
  fun error => absurd error.2 (by simp [token])

theorem apart_of_none (none : ∀ subtree ∈ subtrees, ¬ subtree.IsErrorNode) : Apart subtrees :=
  List.Pairwise.isChain (List.pairwise_iff_forall_sublist.2 fun found both =>
    none _ (found.subset List.mem_cons_self) both.1)

theorem sealed_of_none (none : ∀ child ∈ subtree.children, ¬ child.IsErrorNode)
    (loose : subtree.IsErrorNode → subtree.isExtra = true) (counted : subtree.Counted) :
    subtree.Sealed :=
  ⟨apart_of_none none, fun child first => none child (List.mem_of_mem_head? first),
    fun child last => none child (List.mem_of_mem_getLast? last), fun _ => none, loose, counted⟩

/-- In a subtree without errors nothing has to be kept apart. -/
theorem RootMerged.merged (root : subtree.RootMerged) (correct : subtree.hasError = false) :
    subtree.Merged ∧ subtree.isError = false := by
  have right : ∀ {other : Subtree}, (other.isError = true → other.hasError = true) →
      (other.hasError = true → subtree.hasError = true) → other.isError = false := by
    intro other own inherited
    by_contra error
    exact absurd (inherited (own (Bool.not_eq_false _ ▸ error))) (by simp [correct])
  have own := right root.counted.own fun error => error
  refine ⟨.mk (sealed_of_none (fun child member => ?_) (fun error => ?_) root.counted) root.under,
    own⟩
  · exact not_isErrorNode_of_isError_eq_false
      (right (root.under child member).here.counted.own (root.counted.child child member))
  · exact absurd error (not_isErrorNode_of_isError_eq_false own)

/-! ## Subtrees as they are made -/

section Made

variable {id : Nat} {children : List Subtree}

theorem counted_ofLeaf (spec : LeafSpec) : (ofLeaf id spec).Counted := by
  refine ⟨fun error => ?_, nofun⟩
  have error : spec.error = true := error
  simp [hasError, errorCount, data, ofLeaf, error]

theorem counted_ofChildren (spec : NodeSpec) (children : List Subtree) :
    (ofChildren id spec children).Counted := by
  refine ⟨fun error => ?_, fun child member wrong => ?_⟩
  · have error : spec.error = true := error
    simp only [hasError, errorCount, data, ofChildren, error, Bool.toNat_true, decide_eq_true_eq]
    exact Nat.add_pos_left Nat.one_pos _
  · have below : child.errorCount ≤ (children.map errorCount).sum :=
      List.le_sum_of_mem (List.mem_map_of_mem member)
    simp only [hasError, decide_eq_true_eq] at wrong ⊢
    exact wrong.trans_le (below.trans (Nat.le_add_left ..))

theorem merged_ofLeaf (spec : LeafSpec) : (ofLeaf id spec).Merged :=
  .mk (sealed_of_none nofun (fun error => absurd error (not_isErrorNode_of_isLeaf rfl))
    (counted_ofLeaf spec)) nofun

/-- A node that is no error has to be neither at an end of another one. -/
theorem merged_ofChildren {spec : NodeSpec} (correct : spec.error = false) (apart : Apart children)
    (first : ∀ child ∈ children.head?, ¬ child.IsErrorNode)
    (last : ∀ child ∈ children.getLast?, ¬ child.IsErrorNode)
    (under : ∀ child ∈ children, child.Merged) : (ofChildren id spec children).Merged := by
  have own : ¬ (ofChildren id spec children).IsErrorNode :=
    not_isErrorNode_of_isError_eq_false correct
  exact .mk ⟨apart, first, last, fun error => absurd error own, fun error => absurd error own,
    counted_ofChildren spec children⟩ under

theorem rootMerged_ofChildren (spec : NodeSpec) (nearly : NearlyApart children)
    (under : ∀ child ∈ children, child.Merged) : (ofChildren id spec children).RootMerged :=
  ⟨nearly, counted_ofChildren spec children, under⟩

end Made

/-! ## Copies -/

/-- What matters of a subtree for keeping errors apart. -/
structure ErrorMarks where
  /-- Whether it is unrecognised text or a node around it. -/
  isError : Bool
  /-- Whether it is a token. -/
  isLeaf : Bool
  /-- Whether it may stand anywhere. -/
  isExtra : Bool
  /-- Whether it is or has an error. -/
  hasError : Bool

/-- What matters of a subtree for keeping errors apart. -/
def errorMarks (subtree : Subtree) : ErrorMarks :=
  ⟨subtree.isError, subtree.isLeaf, subtree.isExtra, subtree.hasError⟩

/-- Whether a subtree is an error above others. -/
def ErrorMarks.IsErrorNode (marks : ErrorMarks) : Prop :=
  marks.isError = true ∧ marks.isLeaf = false

theorem apart_iff_errorMarks : Apart subtrees ↔
    (subtrees.map errorMarks).IsChain fun left right => ¬ (left.IsErrorNode ∧ right.IsErrorNode) := by
  rw [List.isChain_map]
  rfl

section Copies

variable {others : List Subtree} (same : others.map errorMarks = subtrees.map errorMarks)
  (holds : ErrorMarks → Prop)

include same

theorem Apart.of_marks (apart : Apart subtrees) : Apart others := by
  rw [apart_iff_errorMarks] at apart ⊢
  rwa [same]

theorem forall_mem_of_marks (each : ∀ subtree ∈ subtrees, holds subtree.errorMarks) :
    ∀ other ∈ others, holds other.errorMarks := by
  rw [← List.forall_mem_map] at each ⊢
  rwa [same]

theorem forall_head?_of_marks (each : ∀ subtree ∈ subtrees.head?, holds subtree.errorMarks) :
    ∀ other ∈ others.head?, holds other.errorMarks := by
  intro other first
  have heads := congrArg List.head? same
  rw [List.head?_map, List.head?_map, Option.mem_def.1 first] at heads
  obtain ⟨subtree, found, marks⟩ := Option.map_eq_some_iff.1 heads.symm
  exact marks ▸ each subtree found

theorem forall_getLast?_of_marks
    (each : ∀ subtree ∈ subtrees.getLast?, holds subtree.errorMarks) :
    ∀ other ∈ others.getLast?, holds other.errorMarks := by
  intro other last
  have lasts := congrArg List.getLast? same
  rw [List.getLast?_map, List.getLast?_map, Option.mem_def.1 last] at lasts
  obtain ⟨subtree, found, marks⟩ := Option.map_eq_some_iff.1 lasts.symm
  exact marks ▸ each subtree found

theorem NearlyApart.of_marks (nearly : NearlyApart subtrees) : NearlyApart others := by
  rcases nearly with apart | ⟨extras, front, back, rfl, frontApart, backApart⟩
  · exact .inl (apart.of_marks same)
  · refine .inr ⟨forall_mem_of_marks same (·.isExtra = true) extras, ?_⟩
    rw [List.map_append] at same
    obtain ⟨otherFront, otherBack, rfl, frontSame, backSame⟩ := List.map_eq_append_iff.1 same
    exact ⟨otherFront, otherBack, rfl, frontApart.of_marks frontSame, backApart.of_marks backSame⟩

end Copies

section Copy

variable {other : Subtree} (own : other.errorMarks = subtree.errorMarks)
  (same : other.children.map errorMarks = subtree.children.map errorMarks)

include own same

theorem Counted.of_marks (counted : subtree.Counted) : other.Counted := by
  obtain ⟨self, child⟩ := counted
  change subtree.errorMarks.isError = true → subtree.errorMarks.hasError = true at self
  change ∀ child ∈ subtree.children,
    child.errorMarks.hasError = true → subtree.errorMarks.hasError = true at child
  rw [← own] at self child
  exact ⟨self, forall_mem_of_marks same
    (fun marks => marks.hasError = true → other.errorMarks.hasError = true) child⟩

theorem Sealed.of_marks (here : subtree.Sealed) : other.Sealed := by
  obtain ⟨apart, first, last, flat, loose, counted⟩ := here
  change subtree.errorMarks.IsErrorNode → ∀ child ∈ subtree.children,
    ¬ child.errorMarks.IsErrorNode at flat
  change subtree.errorMarks.IsErrorNode → subtree.errorMarks.isExtra = true at loose
  rw [← own] at flat loose
  exact ⟨apart.of_marks same, forall_head?_of_marks same (¬ ·.IsErrorNode) first,
    forall_getLast?_of_marks same (¬ ·.IsErrorNode) last,
    fun error => forall_mem_of_marks same (¬ ·.IsErrorNode) (flat error), loose,
    counted.of_marks own same⟩

end Copy

theorem errorMarks_erase (subtree : Subtree) : subtree.erase.errorMarks = subtree.errorMarks := by
  simp [errorMarks]

theorem map_errorMarks_children_erase (subtree : Subtree) :
    subtree.erase.children.map errorMarks = subtree.children.map errorMarks := by
  simp [Function.comp_def, errorMarks_erase]

/-- Ids do not matter for being merged. -/
theorem Merged.of_erase (merged : subtree.erase.Merged) : subtree.Merged := by
  generalize same : subtree.erase = erased at merged
  induction merged generalizing subtree with
  | mk here _ induction =>
      subst same
      refine .mk (here.of_marks (errorMarks_erase subtree).symm
        (map_errorMarks_children_erase subtree).symm) fun child member => ?_
      exact induction child.erase (by simpa using ⟨child, member, rfl⟩) rfl

theorem RootMerged.of_erase (merged : subtree.erase.RootMerged) : subtree.RootMerged := by
  obtain ⟨nearly, counted, under⟩ := merged
  refine ⟨nearly.of_marks (map_errorMarks_children_erase subtree).symm,
    counted.of_marks (errorMarks_erase subtree).symm (map_errorMarks_children_erase subtree).symm,
    fun child member => ?_⟩
  exact (under child.erase (by simpa using ⟨child, member, rfl⟩)).of_erase

section Edits

variable (map : EditMap) (start : Nat)

theorem errorMarks_plainEdit (subtree : Subtree) :
    (plainEdit map start subtree).errorMarks = subtree.errorMarks := by
  obtain ⟨data, children⟩ := subtree
  rw [plainEdit]
  split <;> rfl

theorem map_errorMarks_plainEditAll (subtrees : List Subtree) :
    (plainEditAll map start subtrees).map errorMarks = subtrees.map errorMarks := by
  induction subtrees generalizing start with
  | nil => rfl
  | cons child rest induction =>
      rw [plainEditAll, List.map_cons, List.map_cons, induction]
      split
      · rfl
      · rw [errorMarks_plainEdit]

/-- The changed copy of a token has no children. -/
theorem children_plainEdit (subtree : Subtree) :
    (plainEdit map start subtree).children = [] ∧ subtree.isLeaf = true ∨
      (plainEdit map start subtree).children = plainEditAll map start subtree.children := by
  obtain ⟨data, children⟩ := subtree
  rw [plainEdit]
  split
  · next token => exact .inl ⟨rfl, token⟩
  · exact .inr rfl

theorem counted_plainEdit (counted : subtree.Counted) : (plainEdit map start subtree).Counted := by
  have own := errorMarks_plainEdit map start subtree
  rcases children_plainEdit map start subtree with ⟨bare, -⟩ | below
  · refine ⟨?_, by rw [bare]; exact nofun⟩
    change (plainEdit map start subtree).errorMarks.isError = true →
      (plainEdit map start subtree).errorMarks.hasError = true
    rw [own]
    exact counted.own
  · exact counted.of_marks own (by rw [below, map_errorMarks_plainEditAll])

theorem Sealed.plainEdit (here : subtree.Sealed) : (plainEdit map start subtree).Sealed := by
  have own := errorMarks_plainEdit map start subtree
  rcases children_plainEdit map start subtree with ⟨bare, token⟩ | below
  · have noNode : ¬ (Subtree.plainEdit map start subtree).errorMarks.IsErrorNode := by
      rw [own]
      exact not_isErrorNode_of_isLeaf token
    exact sealed_of_none (by rw [bare]; exact nofun) (fun error => absurd error noNode)
      (counted_plainEdit map start here.counted)
  · exact here.of_marks own (by rw [below, map_errorMarks_plainEditAll])

mutual

theorem Merged.plainEdit (start : Nat) {subtree : Subtree} (merged : subtree.Merged) :
    (plainEdit map start subtree).Merged := by
  cases subtree with
  | mk data children =>
      refine .mk (merged.here.plainEdit map start) ?_
      rcases children_plainEdit map start (.mk data children) with ⟨bare, -⟩ | below
      · rw [bare]
        exact nofun
      · rw [below]
        exact Merged.plainEditAll start merged.under

theorem Merged.plainEditAll (start : Nat) {subtrees : List Subtree}
    (merged : ∀ child ∈ subtrees, child.Merged) :
    ∀ child ∈ plainEditAll map start subtrees, child.Merged := by
  cases subtrees with
  | nil => exact nofun
  | cons child rest =>
      rw [Subtree.plainEditAll]
      have first := merged child List.mem_cons_self
      refine List.forall_mem_cons.2 ⟨?_, Merged.plainEditAll (start + child.length) fun other member =>
        merged other (List.mem_cons_of_mem child member)⟩
      split
      · exact first
      · exact Merged.plainEdit start first

end

end Edits

theorem RootMerged.afterEdit (merged : subtree.RootMerged) (edit : Edit) :
    (subtree.afterEdit edit).RootMerged := by
  obtain ⟨nearly, counted, under⟩ := merged
  unfold Subtree.afterEdit
  generalize EditMap.ofEdit edit subtree.length = map
  refine ⟨?_, counted_plainEdit map 0 counted, ?_⟩
  all_goals rcases children_plainEdit map 0 subtree with ⟨bare, -⟩ | below
  · rw [bare]
    exact .inl .nil
  · exact nearly.of_marks (by rw [below, map_errorMarks_plainEditAll])
  · rw [bare]
    exact nofun
  · rw [below]
    exact Merged.plainEditAll map 0 under

end Subtree

end IncrementalGlr
