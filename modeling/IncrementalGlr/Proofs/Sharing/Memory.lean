import IncrementalGlr.Proofs.Sharing.Erase
import Mathlib.Order.Nat

/-!
# Ids identify subtrees

A memory says which subtree every id belongs to.  A store is valid for a memory if it only shares
subtrees that the memory knows and only gives ids that it does not know yet.  A shared subtree then
differs from the one that was asked for in its id alone.
-/

namespace IncrementalGlr

/-- The subtree of each id that has been given away. -/
structure Memory where
  /-- The subtree of an id. -/
  subtree? : Nat → Option Subtree

namespace Memory

/-- Whether the object with a subtree's id is that subtree. -/
def Knows (memory : Memory) (subtree : Subtree) : Prop :=
  memory.subtree? subtree.id = some subtree

/-- Whether the second memory knows all that the first one does. -/
def Extends (larger memory : Memory) : Prop :=
  ∀ id subtree, memory.subtree? id = some subtree → larger.subtree? id = some subtree

/-- The memory with one more subtree. -/
def learn (memory : Memory) (subtree : Subtree) : Memory where
  subtree? := Function.update memory.subtree? subtree.id (some subtree)

variable {memory larger largest : Memory} {subtree : Subtree}

theorem Extends.refl (memory : Memory) : memory.Extends memory := fun _ _ known => known

theorem Extends.trans (second : largest.Extends larger) (first : larger.Extends memory) :
    largest.Extends memory := fun id subtree known => second id subtree (first id subtree known)

theorem Knows.mono (known : memory.Knows subtree) (extends_ : larger.Extends memory) :
    larger.Knows subtree := extends_ _ _ known

theorem Knows.eq_of_id {other : Subtree} (known : memory.Knows subtree)
    (otherKnown : memory.Knows other) (same : subtree.id = other.id) : subtree = other := by
  have recalled : some subtree = some other := by
    rw [← known, ← otherKnown, same]
  exact Option.some.inj recalled

theorem eq_of_ids {left right : List Subtree} (leftKnown : ∀ child ∈ left, memory.Knows child)
    (rightKnown : ∀ child ∈ right, memory.Knows child)
    (same : left.map Subtree.id = right.map Subtree.id) : left = right := by
  induction left generalizing right with
  | nil => simpa using same.symm
  | cons child rest induction =>
      cases right with
      | nil => simp at same
      | cons other others =>
          simp only [List.map_cons, List.cons.injEq] at same
          have first : child = other :=
            (leftKnown child List.mem_cons_self).eq_of_id (rightKnown other List.mem_cons_self)
              same.1
          have remaining : rest = others :=
            induction (fun c member => leftKnown c (List.mem_cons_of_mem child member))
              (fun c member => rightKnown c (List.mem_cons_of_mem other member)) same.2
          rw [first, remaining]

theorem knows_learn (memory : Memory) (subtree : Subtree) :
    (memory.learn subtree).Knows subtree := by
  simp [Knows, learn]

theorem learn_extends (unknown : memory.subtree? subtree.id = none) :
    (memory.learn subtree).Extends memory := by
  intro id other known
  have different : id ≠ subtree.id := by
    rintro rfl
    simp [unknown] at known
  simpa [learn, Function.update_of_ne different] using known

end Memory

namespace Subtree

/-- Whether a subtree is as it was made, not a changed copy. -/
def IsOriginal (subtree : Subtree) : Prop :=
  (∃ spec, subtree = ofLeaf subtree.id spec) ∨
    ∃ spec, subtree = ofChildren subtree.id spec subtree.children

end Subtree

namespace Store

/-- Whether a store shares only subtrees that a memory knows and gives only new ids. -/
structure Valid (memory : Memory) (store : Store) : Prop where
  /-- Every subtree is known under its own id. -/
  named : ∀ {id subtree}, memory.subtree? id = some subtree → subtree.id = id
  /-- The children of known subtrees are known. -/
  closed : ∀ {subtree}, memory.Knows subtree → ∀ child ∈ subtree.children, memory.Knows child
  /-- Known subtrees that are not marked as changed are as they were made. -/
  original : ∀ {subtree}, memory.Knows subtree → subtree.hasChanges = false → subtree.IsOriginal
  /-- New ids belong to no known subtree. -/
  unknown : ∀ {id}, store.nextId ≤ id → memory.subtree? id = none
  /-- The tokens to share are known under their keys. -/
  leaves : ∀ {key leaf}, store.leaves[key]? = some leaf →
    memory.Knows leaf ∧ leaf.isLeaf = true ∧ leaf.hasChanges = false ∧ LeafKey.of leaf = key
  /-- The nodes to share are known under their keys. -/
  nodes : ∀ {key node}, store.nodes[key]? = some node →
    memory.Knows node ∧ node.isLeaf = false ∧ node.hasChanges = false ∧ NodeKey.of node = key

variable {memory larger : Memory} {store : Store}

/-- A new subtree may be learned if its children are known. -/
theorem Valid.learn (valid : store.Valid memory) {subtree : Subtree}
    (fresh : subtree.id = store.nextId)
    (children : ∀ child ∈ subtree.children, memory.Knows child)
    (original : subtree.hasChanges = false → subtree.IsOriginal) :
    Valid (memory.learn subtree) { store with nextId := store.nextId + 1 } := by
  have unknown : memory.subtree? subtree.id = none := valid.unknown fresh.ge
  have grows := Memory.learn_extends unknown
  have either : ∀ {id other}, (memory.learn subtree).subtree? id = some other →
      id = subtree.id ∧ other = subtree ∨ memory.subtree? id = some other := by
    intro id other known
    rcases eq_or_ne id subtree.id with rfl | different
    · left
      simpa [Memory.learn, eq_comm] using known
    · right
      simpa [Memory.learn, Function.update_of_ne different] using known
  refine ⟨?_, ?_, ?_, ?_, ?_, ?_⟩
  · intro id other known
    rcases either known with ⟨rfl, rfl⟩ | old
    · rfl
    · exact valid.named old
  · intro other known child member
    rcases either known with ⟨-, rfl⟩ | old
    · exact (children child member).mono grows
    · exact (valid.closed old child member).mono grows
  · intro other known unchanged
    rcases either known with ⟨-, rfl⟩ | old
    · exact original unchanged
    · exact valid.original old unchanged
  · intro id bound
    have different : id ≠ subtree.id := by
      rw [fresh]
      exact (Nat.lt_of_succ_le bound).ne'
    have older := valid.unknown (Nat.le_of_succ_le bound)
    simpa [Memory.learn, Function.update_of_ne different] using older
  · intro key leaf found
    obtain ⟨known, rest⟩ := valid.leaves found
    exact ⟨known.mono grows, rest⟩
  · intro key node found
    obtain ⟨known, rest⟩ := valid.nodes found
    exact ⟨known.mono grows, rest⟩

/-- The empty store is valid if its ids are new. -/
theorem valid_fromId (nextId : Nat) : (fromId nextId).Valid ⟨fun _ => none⟩ := by
  refine ⟨?_, ?_, ?_, ?_, ?_, ?_⟩ <;> intros <;> simp_all [Memory.Knows, fromId]

/-- A store stays valid when it forgets all subtrees. -/
theorem Valid.clear (valid : store.Valid memory) : store.clear.Valid memory := by
  refine ⟨valid.named, valid.closed, valid.original, ?_, ?_, ?_⟩
  · exact fun bound => valid.unknown bound
  · intro key leaf found
    simp [Store.clear, fromId] at found
  · intro key node found
    simp [Store.clear, fromId] at found

theorem Valid.trim (valid : store.Valid memory) : store.trim.Valid memory := by
  unfold Store.trim
  split
  · exact valid.clear
  · exact valid

/-- Sharing a known unchanged token keeps a store valid, and the token that is given instead of it
is known and has the same key. -/
theorem Valid.shareLeaf (valid : store.Valid memory) {leaf : Subtree} (known : memory.Knows leaf)
    (isLeaf : leaf.isLeaf = true) (unchanged : leaf.hasChanges = false) :
    (Store.shareLeaf leaf store).2.Valid memory ∧
      memory.Knows (Store.shareLeaf leaf store).1 ∧
      (Store.shareLeaf leaf store).1.isLeaf = true ∧
      (Store.shareLeaf leaf store).1.hasChanges = false ∧
      LeafKey.of (Store.shareLeaf leaf store).1 = LeafKey.of leaf := by
  unfold Store.shareLeaf
  split
  · next other found =>
      exact ⟨valid, valid.leaves found⟩
  · refine ⟨⟨valid.named, valid.closed, valid.original, valid.unknown, ?_, valid.nodes⟩,
      known, isLeaf, unchanged, rfl⟩
    intro key other found
    simp only [Std.HashMap.getElem?_insert] at found
    split at found
    · next same =>
        obtain rfl : leaf = other := by simpa using found
        exact ⟨known, isLeaf, unchanged, by simpa using same⟩
    · exact valid.leaves found

/-- Sharing a known unchanged node keeps a store valid, and the node that is given instead of it is
known and has the same key. -/
theorem Valid.shareNode (valid : store.Valid memory) {node : Subtree} (known : memory.Knows node)
    (isNode : node.isLeaf = false) (unchanged : node.hasChanges = false) :
    (Store.shareNode node store).2.Valid memory ∧
      memory.Knows (Store.shareNode node store).1 ∧
      (Store.shareNode node store).1.isLeaf = false ∧
      (Store.shareNode node store).1.hasChanges = false ∧
      NodeKey.of (Store.shareNode node store).1 = NodeKey.of node := by
  unfold Store.shareNode
  split
  · next other found =>
      exact ⟨valid, valid.nodes found⟩
  · refine ⟨⟨valid.named, valid.closed, valid.original, valid.unknown, valid.leaves, ?_⟩,
      known, isNode, unchanged, rfl⟩
    intro key other found
    simp only [Std.HashMap.getElem?_insert] at found
    split at found
    · next same =>
        obtain rfl : node = other := by simpa using found
        exact ⟨known, isNode, unchanged, by simpa using same⟩
    · exact valid.nodes found

end Store

namespace Subtree

/-- The key of a token says everything that it was made from. -/
theorem leafSpec_eq_of_leafKey {left right : LeafSpec} {leftId rightId : Nat}
    (same : LeafKey.of (ofLeaf leftId left) = LeafKey.of (ofLeaf rightId right)) : left = right := by
  cases left
  cases right
  simp only [LeafKey.of, ofLeaf, data, LeafSpec.flags, LeafKey.mk.injEq, SubtreeFlags.mk.injEq]
    at same
  simp [same]

/-- What the key of a node leaves out follows from the children. -/
theorem ofChildren_eq_of_nodeKey {left right : NodeSpec} {children : List Subtree}
    {leftId rightId : Nat}
    (same : NodeKey.of (ofChildren leftId left children) =
      NodeKey.of (ofChildren rightId right children)) (id : Nat) :
    ofChildren id left children = ofChildren id right children := by
  cases left
  cases right
  simp only [NodeKey.of, ofChildren, data, NodeKey.mk.injEq, SubtreeFlags.mk.injEq] at same
  obtain ⟨rfl, ⟨rfl, rfl, rfl, rfl, -, rfl, -⟩, rfl, rfl, reach, precedence, -⟩ := same
  obtain rfl := (Int.add_left_inj _).mp precedence
  simp [ofChildren, reach]

/-- A token as it was made. -/
theorem IsOriginal.token {leaf : Subtree} (original : leaf.IsOriginal)
    (isLeaf : leaf.isLeaf = true) : ∃ spec, leaf = ofLeaf leaf.id spec := by
  obtain made | ⟨spec, made⟩ := original
  · exact made
  · rw [made] at isLeaf
    cases isLeaf

/-- A node as it was made. -/
theorem IsOriginal.node {node : Subtree} (original : node.IsOriginal)
    (isNode : node.isLeaf = false) : ∃ spec, node = ofChildren node.id spec node.children := by
  obtain ⟨spec, made⟩ | made := original
  · rw [made] at isNode
    cases isNode
  · exact made

/-- Unchanged tokens with the same key differ in nothing but their ids. -/
theorem erase_eq_of_leafKey {left right : Subtree} (leftOriginal : left.IsOriginal)
    (rightOriginal : right.IsOriginal) (leftLeaf : left.isLeaf = true)
    (rightLeaf : right.isLeaf = true) (same : LeafKey.of left = LeafKey.of right) :
    left.erase = right.erase := by
  obtain ⟨leftSpec, leftMade⟩ := leftOriginal.token leftLeaf
  obtain ⟨rightSpec, rightMade⟩ := rightOriginal.token rightLeaf
  rw [leftMade, rightMade] at same ⊢
  rw [erase_ofLeaf, erase_ofLeaf, leafSpec_eq_of_leafKey same]

/-- Unchanged nodes with the same key above known children differ in nothing but their ids. -/
theorem erase_eq_of_nodeKey {memory : Memory} {left right : Subtree}
    (leftOriginal : left.IsOriginal) (rightOriginal : right.IsOriginal)
    (leftNode : left.isLeaf = false) (rightNode : right.isLeaf = false)
    (leftKnown : ∀ child ∈ left.children, memory.Knows child)
    (rightKnown : ∀ child ∈ right.children, memory.Knows child)
    (same : NodeKey.of left = NodeKey.of right) : left.erase = right.erase := by
  obtain ⟨leftSpec, leftMade⟩ := leftOriginal.node leftNode
  obtain ⟨rightSpec, rightMade⟩ := rightOriginal.node rightNode
  have children : left.children = right.children :=
    Memory.eq_of_ids leftKnown rightKnown (congrArg NodeKey.children same)
  rw [leftMade, rightMade, children] at same
  have alike := congrArg erase (ofChildren_eq_of_nodeKey same 0)
  rw [erase_ofChildren, erase_ofChildren] at alike
  rw [leftMade, rightMade, children, erase_ofChildren, erase_ofChildren, alike]

end Subtree

end IncrementalGlr
