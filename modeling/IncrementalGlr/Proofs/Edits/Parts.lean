import IncrementalGlr.Proofs.Tiling

/-!
# Parts of subtrees

A part of a subtree is found by the indexes of the children on the way down to it.  It stands at an
offset from the start of the subtree.
-/

namespace IncrementalGlr

namespace Subtree

/-- The part at the end of a path through the children, with its offset. -/
def part? (subtree : Subtree) : List Nat → Option (Nat × Subtree)
  | [] => some (0, subtree)
  | index :: path =>
    subtree.children[index]?.bind fun child =>
      (child.part? path).map fun (offset, part) =>
        (totalLength (subtree.children.take index) + offset, part)

/-- Whether a subtree was made as a token or as a node above subtrees that were made so. -/
inductive Built : Subtree → Prop
  /-- A token. -/
  | token (id : Nat) (spec : LeafSpec) : Built (ofLeaf id spec)
  /-- A node. -/
  | node (id : Nat) (spec : NodeSpec) {children : List Subtree}
    (under : ∀ child ∈ children, Built child) : Built (ofChildren id spec children)

/-- Whether the extent of every part reaches as far as those of the unchanged parts below it. -/
def Covering (subtree : Subtree) : Prop :=
  ∀ path offset part, subtree.part? path = some (offset, part) →
    ∀ below within inner, part.part? below = some (within, inner) → inner.hasChanges = false →
      within + inner.extent ≤ part.extent

section Paths

variable {subtree part : Subtree} {index offset : Nat} {path : List Nat}

theorem part?_nil_eq_some :
    subtree.part? [] = some (offset, part) ↔ offset = 0 ∧ part = subtree := by
  simp [part?, eq_comm]

theorem part?_cons_eq_some :
    subtree.part? (index :: path) = some (offset, part) ↔
      ∃ child within, subtree.children[index]? = some child ∧
        child.part? path = some (within, part) ∧
        offset = totalLength (subtree.children.take index) + within := by
  simp only [part?, Option.bind_eq_some_iff, Option.map_eq_some_iff, Prod.exists, Prod.mk.injEq]
  constructor
  · rintro ⟨child, found, within, _, below, rfl, rfl⟩
    exact ⟨child, within, found, below, rfl⟩
  · rintro ⟨child, within, found, below, rfl⟩
    exact ⟨child, found, within, part, below, rfl, rfl⟩

/-- Up to a child the children are at most as long as all of them. -/
theorem totalLength_take_add_length_le {children : List Subtree} {child : Subtree}
    (found : children[index]? = some child) :
    totalLength (children.take index) + child.length ≤ totalLength children := by
  obtain ⟨inside, rfl⟩ := List.getElem?_eq_some_iff.1 found
  calc totalLength (children.take index) + children[index].length
      = totalLength (children.take (index + 1)) := by
        rw [List.take_succ_eq_append_getElem inside, totalLength_append, totalLength_cons,
          totalLength_nil, Nat.add_zero]
    _ ≤ totalLength (children.take (index + 1)) + totalLength (children.drop (index + 1)) :=
        Nat.le_add_right ..
    _ = totalLength children := by rw [← totalLength_append, List.take_append_drop]

/-- A subtree with a child is no token. -/
theorem Tiled.node_of_child (tiled : subtree.Tiled) {child : Subtree}
    (found : subtree.children[index]? = some child) : subtree.isLeaf = false := by
  cases token : subtree.isLeaf with
  | false => rfl
  | true =>
      rw [tiled.bare token] at found
      cases found

theorem Tiled.of_part (tiled : subtree.Tiled) (found : subtree.part? path = some (offset, part)) :
    part.Tiled := by
  induction path generalizing subtree offset with
  | nil =>
      obtain ⟨-, rfl⟩ := part?_nil_eq_some.1 found
      exact tiled
  | cons index path induction =>
      obtain ⟨child, within, first, rest, -⟩ := part?_cons_eq_some.1 found
      exact induction (tiled.child child (List.mem_of_getElem? first)) rest

/-- The parts of a tiled subtree lie inside it. -/
theorem Tiled.part_inside (tiled : subtree.Tiled)
    (found : subtree.part? path = some (offset, part)) :
    offset + part.length ≤ subtree.length := by
  induction path generalizing subtree offset with
  | nil =>
      obtain ⟨rfl, rfl⟩ := part?_nil_eq_some.1 found
      exact (Nat.zero_add _).le
  | cons index path induction =>
      obtain ⟨child, within, first, rest, rfl⟩ := part?_cons_eq_some.1 found
      have inside := induction (tiled.child child (List.mem_of_getElem? first)) rest
      have place := totalLength_take_add_length_le first
      rw [tiled.filled (tiled.node_of_child first)]
      omega

theorem Covering.child (covering : subtree.Covering) {child : Subtree}
    (found : subtree.children[index]? = some child) : child.Covering :=
  fun path offset part there =>
    covering (index :: path) _ part (part?_cons_eq_some.2 ⟨child, offset, found, there, rfl⟩)

theorem Covering.of_part (covering : subtree.Covering)
    (found : subtree.part? path = some (offset, part)) : part.Covering := by
  induction path generalizing subtree offset with
  | nil =>
      obtain ⟨-, rfl⟩ := part?_nil_eq_some.1 found
      exact covering
  | cons index path induction =>
      obtain ⟨child, within, first, rest, -⟩ := part?_cons_eq_some.1 found
      exact induction (covering.child first) rest

/-- The extent of a covering subtree reaches as far as those of its unchanged parts. -/
theorem Covering.own (covering : subtree.Covering)
    (found : subtree.part? path = some (offset, part)) (unchanged : part.hasChanges = false) :
    offset + part.extent ≤ subtree.extent :=
  covering [] 0 subtree rfl path offset part found unchanged

end Paths

section Made

variable {id : Nat}

theorem Built.tiled {subtree : Subtree} (built : subtree.Built) : subtree.Tiled := by
  induction built with
  | token id spec => exact tiled_ofLeaf spec
  | node id spec under induction => exact tiled_ofChildren spec induction

theorem extentEnd_of_child {children : List Subtree} {child : Subtree} {index : Nat} (start : Nat)
    (found : children[index]? = some child) :
    start + totalLength (children.take index) + child.extent ≤ extentEnd start children := by
  induction children generalizing start index with
  | nil => cases found
  | cons first rest induction =>
      rw [extentEnd]
      cases index with
      | zero =>
          obtain rfl := Option.some.inj found
          exact le_max_left ..
      | succ index =>
          have later := induction (start + first.length) (by simpa using found)
          rw [List.take_succ_cons, totalLength_cons, ← Nat.add_assoc]
          exact later.trans (le_max_right ..)

/-- The extent of a node covers that of each child. -/
theorem extent_of_child (id : Nat) (spec : NodeSpec) {children : List Subtree} {child : Subtree}
    {index : Nat} (found : children[index]? = some child) :
    totalLength (children.take index) + child.extent ≤ (ofChildren id spec children).extent := by
  have reach := extentEnd_of_child 0 found
  simp only [extent, length, lookahead, data, ofChildren] at reach ⊢
  omega

/-- In a subtree as it was made every extent covers those of all parts. -/
theorem Built.extent_part {subtree part : Subtree} (built : subtree.Built) {path : List Nat}
    {offset : Nat} (found : subtree.part? path = some (offset, part)) :
    part.Built ∧ offset + part.extent ≤ subtree.extent := by
  induction path generalizing subtree offset with
  | nil =>
      obtain ⟨rfl, rfl⟩ := part?_nil_eq_some.1 found
      exact ⟨built, (Nat.zero_add _).le⟩
  | cons index path induction =>
      obtain ⟨child, within, first, rest, rfl⟩ := part?_cons_eq_some.1 found
      cases built with
      | token id spec => cases first
      | node id spec under =>
          obtain ⟨partBuilt, inside⟩ := induction (under child (List.mem_of_getElem? first)) rest
          have reach := extent_of_child id spec first
          refine ⟨partBuilt, ?_⟩
          rw [Nat.add_assoc]
          exact (Nat.add_le_add_left inside _).trans reach

theorem Built.covering {subtree : Subtree} (built : subtree.Built) : subtree.Covering :=
  fun _ _ _ found _ _ _ below _ => ((built.extent_part found).1.extent_part below).2

end Made

end Subtree

end IncrementalGlr
