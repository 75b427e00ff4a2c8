import IncrementalGlr.Proofs.Sharing.Mirror
import Mathlib.Logic.Relation

/-!
# Sharing does not show

A store lives among objects that come and go.  Objects are told apart by their addresses, and the
address of an object that is gone may be given to another one.  So the identities in the key of a
node mean something only as long as the children live, and they do, since the node that is stored
under the key holds them.  What a store gives is therefore what would have been made without it, and
it gives the same object again until it forgets all that it holds.
-/

namespace IncrementalGlr

namespace Store

/-- Whether a store holds a subtree. -/
def Holds (store : Store) (subtree : Subtree) : Prop :=
  (∃ key : LeafKey, store.leaves[key]? = some subtree) ∨
    ∃ key : NodeKey, store.nodes[key]? = some subtree

section Sharing

variable {store : Store}

@[simp]
theorem shareLeaf_nodes (leaf : Subtree) (store : Store) :
    (shareLeaf leaf store).2.nodes = store.nodes := by
  unfold shareLeaf
  split <;> rfl

@[simp]
theorem shareNode_leaves (node : Subtree) (store : Store) :
    (shareNode node store).2.leaves = store.leaves := by
  unfold shareNode
  split <;> rfl

/-- After a token has been shared, what is given for it is stored under its key. -/
theorem shareLeaf_leaves (leaf : Subtree) (store : Store) (key : LeafKey) :
    (shareLeaf leaf store).2.leaves[key]? =
      if LeafKey.of leaf = key then some (shareLeaf leaf store).1 else store.leaves[key]? := by
  unfold shareLeaf
  split
  · next known found =>
      split
      · next here => exact here ▸ found
      · rfl
  · simp [Std.HashMap.getElem?_insert]

/-- After a node has been shared, what is given for it is stored under its key. -/
theorem shareNode_nodes (node : Subtree) (store : Store) (key : NodeKey) :
    (shareNode node store).2.nodes[key]? =
      if NodeKey.of node = key then some (shareNode node store).1 else store.nodes[key]? := by
  unfold shareNode
  split
  · next known found =>
      split
      · next here => exact here ▸ found
      · rfl
  · simp [Std.HashMap.getElem?_insert]

/-- A stored token is given for every token with its key. -/
theorem shareLeaf_of_stored {leaf known : Subtree}
    (found : store.leaves[LeafKey.of leaf]? = some known) : shareLeaf leaf store = (known, store) := by
  rw [shareLeaf, found]

/-- A stored node is given for every node with its key. -/
theorem shareNode_of_stored {node known : Subtree}
    (found : store.nodes[NodeKey.of node]? = some known) : shareNode node store = (known, store) := by
  rw [shareNode, found]

end Sharing

/-- Whether a store holds all that another one does, under the same keys. -/
structure Includes (larger store : Store) : Prop where
  /-- It holds the tokens. -/
  leaves : ∀ {key : LeafKey} {leaf : Subtree},
    store.leaves[key]? = some leaf → larger.leaves[key]? = some leaf
  /-- It holds the nodes. -/
  nodes : ∀ {key : NodeKey} {node : Subtree},
    store.nodes[key]? = some node → larger.nodes[key]? = some node

section Includes

variable {store larger largest : Store}

theorem Includes.refl (store : Store) : store.Includes store := ⟨id, id⟩

theorem Includes.trans (second : largest.Includes larger) (first : larger.Includes store) :
    largest.Includes store :=
  ⟨fun found => second.leaves (first.leaves found), fun found => second.nodes (first.nodes found)⟩

theorem includes_shareLeaf (leaf : Subtree) (store : Store) :
    (shareLeaf leaf store).2.Includes store := by
  refine ⟨fun {key known} found => ?_, fun found => by rwa [shareLeaf_nodes]⟩
  rw [shareLeaf_leaves]
  split
  · next here =>
      subst here
      rw [shareLeaf_of_stored found]
  · exact found

theorem includes_shareNode (node : Subtree) (store : Store) :
    (shareNode node store).2.Includes store := by
  refine ⟨fun found => by rwa [shareNode_leaves], fun {key known} found => ?_⟩
  rw [shareNode_nodes]
  split
  · next here =>
      subst here
      rw [shareNode_of_stored found]
  · exact found

theorem includes_leaf (spec : LeafSpec) (store : Store) : (leaf spec store).2.Includes store := by
  rw [leaf_apply]
  split
  · exact ⟨id, id⟩
  · exact (includes_shareLeaf _ (newLeaf spec store).2).trans ⟨id, id⟩

theorem includes_node (spec : NodeSpec) (children : List Subtree) (store : Store) :
    (node spec children store).2.Includes store := by
  rw [node_apply]
  split
  · exact ⟨id, id⟩
  · exact (includes_shareNode _ (newNode spec children store).2).trans ⟨id, id⟩

theorem includes_seedAll (subtrees : List Subtree) (store : Store) :
    (seedAll subtrees store).Includes store := by
  unfold seedAll
  induction subtrees generalizing store with
  | nil => exact .refl store
  | cons subtree rest induction =>
      refine (induction (seed subtree store)).trans ?_
      unfold seed
      split
      · exact includes_shareLeaf subtree store
      · exact .refl store

end Includes

section Repetition

variable {store larger : Store}

theorem leaf_of_noError {spec : LeafSpec} (noError : spec.error = false) (store : Store) :
    leaf spec store =
      shareLeaf (.ofLeaf store.nextId spec) { store with nextId := store.nextId + 1 } := by
  have unlike : ¬ (newLeaf spec store).1.isError = true := by
    change ¬ spec.error = true
    simp [noError]
  rw [leaf_apply, if_neg unlike]
  rfl

theorem node_of_shared {spec : NodeSpec} {children : List Subtree} (noError : spec.error = false)
    (unchanged : ∀ child ∈ children, child.hasChanges = false)
    (few : children.length ≤ maxSharedChildren) (store : Store) :
    node spec children store =
      shareNode (.ofChildren store.nextId spec children)
        { store with nextId := store.nextId + 1 } := by
  have unlike : ¬ ((newNode spec children store).1.isError = true ∨
      (newNode spec children store).1.hasChanges = true ∨
      maxSharedChildren < children.length) := by
    rintro (error | changes | many)
    · exact Bool.false_ne_true (noError.symm.trans error)
    · obtain ⟨child, member, changed⟩ := List.any_eq_true.1 changes
      exact Bool.false_ne_true ((unchanged child member).symm.trans changed)
    · exact few.not_gt many
  rw [node_apply, if_neg (by simpa [or_assoc] using unlike)]
  rfl

/-- A token that is no error is given again as long as the store holds all that it held. -/
theorem leaf_again {spec : LeafSpec} (noError : spec.error = false)
    (includes : larger.Includes (leaf spec store).2) :
    (leaf spec larger).1 = (leaf spec store).1 := by
  have stored : (leaf spec store).2.leaves[LeafKey.of (.ofLeaf store.nextId spec)]? =
      some (leaf spec store).1 := by
    rw [leaf_of_noError noError, shareLeaf_leaves, if_pos rfl]
  have found : { larger with nextId := larger.nextId + 1 }.leaves[
      LeafKey.of (.ofLeaf larger.nextId spec)]? = some (leaf spec store).1 := includes.leaves stored
  rw [leaf_of_noError noError larger, shareLeaf_of_stored found]

/-- A node above few unchanged children that is no error is given again as long as the store holds
all that it held. -/
theorem node_again {spec : NodeSpec} {children : List Subtree} (noError : spec.error = false)
    (unchanged : ∀ child ∈ children, child.hasChanges = false)
    (few : children.length ≤ maxSharedChildren)
    (includes : larger.Includes (node spec children store).2) :
    (node spec children larger).1 = (node spec children store).1 := by
  have shared := node_of_shared noError unchanged few
  have stored : (node spec children store).2.nodes[
      NodeKey.of (.ofChildren store.nextId spec children)]? =
        some (node spec children store).1 := by
    rw [shared, shareNode_nodes, if_pos rfl]
  have found : { larger with nextId := larger.nextId + 1 }.nodes[
      NodeKey.of (.ofChildren larger.nextId spec children)]? = some (node spec children store).1 :=
    includes.nodes stored
  rw [shared larger, shareNode_of_stored found]

end Repetition

end Store

/-- A store and the objects that are alive. -/
structure LiveStore where
  /-- The object at each address. -/
  memory : Memory
  /-- The store. -/
  store : Store

namespace LiveStore

/-- What may happen to a store and to the objects around it.  A step says whether the store forgets
all that it holds. -/
inductive Step : Bool → LiveStore → LiveStore → Prop
  /-- A token is asked for.  The one that is made for it is alive at least for a while, even if
  another one is given instead. -/
  | leaf {memory : Memory} {store : Store} (spec : LeafSpec)
    (free : memory.subtree? store.nextId = none) :
    Step false ⟨memory, store⟩
      ⟨memory.learn (Store.newLeaf spec store).1, (Store.leaf spec store).2⟩
  /-- A node above objects that are alive is asked for. -/
  | node {memory : Memory} {store : Store} (spec : NodeSpec) {children : List Subtree}
    (alive : ∀ child ∈ children, memory.Knows child)
    (free : memory.subtree? store.nextId = none) :
    Step false ⟨memory, store⟩
      ⟨memory.learn (Store.newNode spec children store).1, (Store.node spec children store).2⟩
  /-- Objects that are alive are registered. -/
  | seed {memory : Memory} {store : Store} {subtrees : List Subtree}
    (alive : ∀ subtree ∈ subtrees, memory.Knows subtree) :
    Step false ⟨memory, store⟩ ⟨memory, store.seedAll subtrees⟩
  /-- The store is bounded, and forgets everything if it is too large. -/
  | trim {memory : Memory} {store : Store} :
    Step (Store.maxSize < store.size) ⟨memory, store⟩ ⟨memory, store.trim⟩
  /-- The store is emptied. -/
  | clear {memory : Memory} {store : Store} : Step true ⟨memory, store⟩ ⟨memory, store.clear⟩
  /-- An object is made without the store, above objects that are alive; if it is not a changed copy,
  it is a token or a node. -/
  | create {memory : Memory} {store : Store} {subtree : Subtree}
    (original : subtree.hasChanges = false → subtree.IsOriginal)
    (alive : ∀ child ∈ subtree.children, memory.Knows child)
    (free : memory.subtree? subtree.id = none) :
    Step false ⟨memory, store⟩ ⟨memory.learn subtree, store⟩
  /-- Objects are given up, but none that the store or another object that stays holds. -/
  | release {memory smaller : Memory} {store : Store} (part : memory.Extends smaller)
    (children : ∀ subtree, smaller.Knows subtree → ∀ child ∈ subtree.children, smaller.Knows child)
    (held : ∀ subtree, store.Holds subtree → smaller.Knows subtree) :
    Step false ⟨memory, store⟩ ⟨smaller, store⟩
  /-- The next object gets any other address. -/
  | relocate {memory : Memory} {store : Store} (nextId : Nat) :
    Step false ⟨memory, store⟩ ⟨memory, { store with nextId }⟩

/-- Whether a store comes about among objects when it is used in any way from the start, where no
object is alive. -/
def Reached (live : LiveStore) : Prop :=
  ∃ nextId, Relation.ReflTransGen (fun before after => ∃ forgets, Step forgets before after)
    ⟨⟨fun _ => none⟩, .fromId nextId⟩ live

/-- Whether a store is used in any way without forgetting everything. -/
def Remembers : LiveStore → LiveStore → Prop := Relation.ReflTransGen (Step false)

/-- Whether all that a store holds is alive, stored under its own key, and neither an error nor a
changed copy. -/
structure Coherent (live : LiveStore) : Prop where
  /-- The children of what is alive are alive. -/
  closed : ∀ {subtree}, live.memory.Knows subtree →
    ∀ child ∈ subtree.children, live.memory.Knows child
  /-- What is alive and no changed copy is as it was made. -/
  original : ∀ {subtree}, live.memory.Knows subtree → subtree.hasChanges = false →
    subtree.IsOriginal
  /-- The stored tokens. -/
  leaves : ∀ {key leaf}, live.store.leaves[key]? = some leaf →
    live.memory.Knows leaf ∧ leaf.isLeaf = true ∧ leaf.isError = false ∧
      leaf.hasChanges = false ∧ LeafKey.of leaf = key
  /-- The stored nodes. -/
  nodes : ∀ {key node}, live.store.nodes[key]? = some node →
    live.memory.Knows node ∧ node.isLeaf = false ∧ node.isError = false ∧
      node.hasChanges = false ∧ NodeKey.of node = key

variable {memory : Memory} {store : Store}

namespace Coherent

/-- A new object may come to life. -/
theorem learn (coherent : Coherent ⟨memory, store⟩) {subtree : Subtree}
    (original : subtree.hasChanges = false → subtree.IsOriginal)
    (alive : ∀ child ∈ subtree.children, memory.Knows child)
    (free : memory.subtree? subtree.id = none) : Coherent ⟨memory.learn subtree, store⟩ := by
  have grows := Memory.learn_extends free
  have either : ∀ {other}, (memory.learn subtree).Knows other →
      other = subtree ∨ memory.Knows other := by
    intro other known
    rcases eq_or_ne other.id subtree.id with same | different
    · exact .inl (known.eq_of_id (Memory.knows_learn memory subtree) same)
    · right
      simpa [Memory.Knows, Memory.learn, Function.update_of_ne different] using known
  refine ⟨?_, ?_, ?_, ?_⟩
  · intro other known child member
    rcases either known with rfl | old
    · exact (alive child member).mono grows
    · exact (coherent.closed old child member).mono grows
  · intro other known unchanged
    rcases either known with rfl | old
    · exact original unchanged
    · exact coherent.original old unchanged
  · intro key leaf found
    obtain ⟨known, rest⟩ := coherent.leaves found
    exact ⟨known.mono grows, rest⟩
  · intro key node found
    obtain ⟨known, rest⟩ := coherent.nodes found
    exact ⟨known.mono grows, rest⟩

/-- The address of the next object does not matter. -/
theorem relocate (coherent : Coherent ⟨memory, store⟩) (nextId : Nat) :
    Coherent ⟨memory, { store with nextId }⟩ :=
  ⟨coherent.closed, coherent.original, coherent.leaves, coherent.nodes⟩

/-- A store may forget everything. -/
theorem clear (coherent : Coherent ⟨memory, store⟩) : Coherent ⟨memory, store.clear⟩ := by
  refine ⟨coherent.closed, coherent.original, ?_, ?_⟩
  · intro key leaf found
    simp [Store.clear, Store.fromId] at found
  · intro key node found
    simp [Store.clear, Store.fromId] at found

/-- A token that is alive may be shared; what is given for it is alive. -/
theorem shareLeaf (coherent : Coherent ⟨memory, store⟩) {leaf : Subtree}
    (known : memory.Knows leaf) (isLeaf : leaf.isLeaf = true) (noError : leaf.isError = false)
    (unchanged : leaf.hasChanges = false) :
    Coherent ⟨memory, (Store.shareLeaf leaf store).2⟩ ∧
      memory.Knows (Store.shareLeaf leaf store).1 := by
  cases found : store.leaves[LeafKey.of leaf]? with
  | some other =>
      rw [Store.shareLeaf_of_stored found]
      exact ⟨coherent, (coherent.leaves found).1⟩
  | none =>
      have same : (Store.shareLeaf leaf store).1 = leaf := by rw [Store.shareLeaf, found]
      refine ⟨⟨coherent.closed, coherent.original, ?_, ?_⟩, by rwa [same]⟩
      · intro key other stored
        rw [Store.shareLeaf_leaves, same] at stored
        split at stored
        · next here =>
            obtain rfl := Option.some.inj stored
            exact ⟨known, isLeaf, noError, unchanged, here⟩
        · exact coherent.leaves stored
      · intro key other stored
        rw [Store.shareLeaf_nodes] at stored
        exact coherent.nodes stored

/-- A node that is alive may be shared; what is given for it is alive. -/
theorem shareNode (coherent : Coherent ⟨memory, store⟩) {node : Subtree}
    (known : memory.Knows node) (isNode : node.isLeaf = false) (noError : node.isError = false)
    (unchanged : node.hasChanges = false) :
    Coherent ⟨memory, (Store.shareNode node store).2⟩ ∧
      memory.Knows (Store.shareNode node store).1 := by
  cases found : store.nodes[NodeKey.of node]? with
  | some other =>
      rw [Store.shareNode_of_stored found]
      exact ⟨coherent, (coherent.nodes found).1⟩
  | none =>
      have same : (Store.shareNode node store).1 = node := by rw [Store.shareNode, found]
      refine ⟨⟨coherent.closed, coherent.original, ?_, ?_⟩, by rwa [same]⟩
      · intro key other stored
        rw [Store.shareNode_leaves] at stored
        exact coherent.leaves stored
      · intro key other stored
        rw [Store.shareNode_nodes, same] at stored
        split at stored
        · next here =>
            obtain rfl := Option.some.inj stored
            exact ⟨known, isNode, noError, unchanged, here⟩
        · exact coherent.nodes stored

/-- A token may be asked for. -/
theorem leaf (coherent : Coherent ⟨memory, store⟩) (spec : LeafSpec)
    (free : memory.subtree? store.nextId = none) :
    Coherent ⟨memory.learn (Store.newLeaf spec store).1, (Store.leaf spec store).2⟩ := by
  have born : Coherent ⟨memory.learn (Store.newLeaf spec store).1, store⟩ :=
    coherent.learn (fun _ => .inl ⟨spec, rfl⟩) (by rintro child ⟨⟩) free
  have made : Coherent ⟨memory.learn (Store.newLeaf spec store).1, (Store.newLeaf spec store).2⟩ :=
    born.relocate (store.nextId + 1)
  rw [Store.leaf_apply]
  split
  · exact made
  · next noError =>
      exact (made.shareLeaf (Memory.knows_learn ..) rfl (Bool.eq_false_iff.2 noError) rfl).1

/-- A node may be asked for. -/
theorem node (coherent : Coherent ⟨memory, store⟩) (spec : NodeSpec) {children : List Subtree}
    (alive : ∀ child ∈ children, memory.Knows child)
    (free : memory.subtree? store.nextId = none) :
    Coherent ⟨memory.learn (Store.newNode spec children store).1,
      (Store.node spec children store).2⟩ := by
  have born : Coherent ⟨memory.learn (Store.newNode spec children store).1, store⟩ :=
    coherent.learn (fun _ => .inr ⟨spec, rfl⟩) alive free
  have made : Coherent ⟨memory.learn (Store.newNode spec children store).1,
      (Store.newNode spec children store).2⟩ := born.relocate (store.nextId + 1)
  rw [Store.node_apply]
  split
  · exact made
  · next shared =>
      simp only [not_or, Bool.or_eq_true, Bool.not_eq_true] at shared
      exact (made.shareNode (Memory.knows_learn ..) rfl shared.1.1 shared.1.2).1

/-- An object that is alive may be registered. -/
theorem seed (coherent : Coherent ⟨memory, store⟩) {subtree : Subtree}
    (alive : memory.Knows subtree) : Coherent ⟨memory, store.seed subtree⟩ := by
  unfold Store.seed
  split
  · next shared =>
      simp only [Bool.and_eq_true, Bool.not_eq_true'] at shared
      obtain ⟨⟨isLeaf, noError⟩, unchanged⟩ := shared
      exact (coherent.shareLeaf alive isLeaf noError unchanged).1
  · exact coherent

/-- Objects that are alive may be registered. -/
theorem seedAll (coherent : Coherent ⟨memory, store⟩) {subtrees : List Subtree}
    (alive : ∀ subtree ∈ subtrees, memory.Knows subtree) :
    Coherent ⟨memory, store.seedAll subtrees⟩ := by
  unfold Store.seedAll
  induction subtrees generalizing store with
  | nil => exact coherent
  | cons subtree rest induction =>
      exact induction (coherent.seed (alive subtree List.mem_cons_self)) fun other member =>
        alive other (List.mem_cons_of_mem subtree member)

/-- What nobody holds may be given up. -/
theorem release (coherent : Coherent ⟨memory, store⟩) {smaller : Memory}
    (part : memory.Extends smaller)
    (children : ∀ subtree, smaller.Knows subtree → ∀ child ∈ subtree.children, smaller.Knows child)
    (held : ∀ subtree, store.Holds subtree → smaller.Knows subtree) :
    Coherent ⟨smaller, store⟩ := by
  refine ⟨fun known => children _ known, fun known => coherent.original (known.mono part), ?_, ?_⟩
  · intro key leaf found
    exact ⟨held leaf (.inl ⟨key, found⟩), (coherent.leaves found).2⟩
  · intro key node found
    exact ⟨held node (.inr ⟨key, found⟩), (coherent.nodes found).2⟩

/-- Whatever happens, a coherent store stays coherent. -/
theorem step {forgets : Bool} {live later : LiveStore} (coherent : live.Coherent)
    (step : Step forgets live later) : later.Coherent := by
  cases step with
  | leaf spec free => exact coherent.leaf spec free
  | node spec alive free => exact coherent.node spec alive free
  | seed alive => exact coherent.seedAll alive
  | trim =>
      unfold Store.trim
      split
      · exact coherent.clear
      · exact coherent
  | clear => exact coherent.clear
  | create original alive free => exact coherent.learn original alive free
  | release part children held => exact coherent.release part children held
  | relocate nextId => exact coherent.relocate nextId

/-- A store is coherent however it came about. -/
theorem of_reached {live : LiveStore} (reached : live.Reached) : live.Coherent := by
  obtain ⟨nextId, steps⟩ := reached
  induction steps with
  | refl =>
      refine ⟨?_, ?_, ?_, ?_⟩ <;> intros <;> simp_all [Memory.Knows, Store.fromId]
  | tail _ last coherent =>
      obtain ⟨forgets, last⟩ := last
      exact coherent.step last

/-- The token that a store gives is the one that was asked for. -/
theorem leaf_eq (coherent : Coherent ⟨memory, store⟩) (spec : LeafSpec) :
    ∃ id, (Store.leaf spec store).1 = .ofLeaf id spec := by
  rw [Store.leaf_apply]
  split
  · exact ⟨store.nextId, rfl⟩
  · unfold Store.shareLeaf
    split
    · next known found =>
        obtain ⟨alive, isLeaf, -, unchanged, same⟩ := coherent.leaves found
        obtain ⟨original, made⟩ := (coherent.original alive unchanged).token isLeaf
        refine ⟨known.id, made.trans (congrArg _ ?_)⟩
        exact Subtree.leafSpec_eq_of_leafKey (made ▸ same)
    · exact ⟨store.nextId, rfl⟩

/-- The node that a store gives is the one that was asked for, above the same children. -/
theorem node_eq (coherent : Coherent ⟨memory, store⟩) (spec : NodeSpec) {children : List Subtree}
    (alive : ∀ child ∈ children, memory.Knows child) :
    ∃ id, (Store.node spec children store).1 = .ofChildren id spec children := by
  rw [Store.node_apply]
  split
  · exact ⟨store.nextId, rfl⟩
  · unfold Store.shareNode
    split
    · next known found =>
        obtain ⟨knownAlive, isNode, -, unchanged, same⟩ := coherent.nodes found
        obtain ⟨original, made⟩ := (coherent.original knownAlive unchanged).node isNode
        have above : known.children = children :=
          Memory.eq_of_ids (coherent.closed knownAlive) alive (congrArg NodeKey.children same)
        rw [above] at made
        refine ⟨known.id, made.trans ?_⟩
        exact Subtree.ofChildren_eq_of_nodeKey (made ▸ same) known.id
    · exact ⟨store.nextId, rfl⟩

end Coherent

/-- Until a store forgets everything, it holds all that it held. -/
theorem Remembers.includes {live later : LiveStore} (remembers : live.Remembers later) :
    later.store.Includes live.store := by
  induction remembers with
  | refl => exact .refl live.store
  | @tail middle last _ step includes =>
      refine Store.Includes.trans ?_ includes
      generalize remembered : false = forgets at step
      cases step with
      | leaf spec free => exact Store.includes_leaf spec _
      | node spec alive free => exact Store.includes_node spec _ _
      | seed alive => exact Store.includes_seedAll _ _
      | trim =>
          rw [Store.trim, if_neg (of_decide_eq_false remembered.symm)]
          exact .refl _
      | clear => cases remembered
      | create => exact .refl _
      | release => exact .refl _
      | relocate => exact ⟨fun found => found, fun found => found⟩

/-- Whether nobody can tell a store from a maker that shares nothing, except by the identity of what
it gives. -/
structure Transparent (live : LiveStore) : Prop where
  /-- Every stored token is alive and has the key under which it is stored; it is neither an error
  nor a changed copy. -/
  leaves : ∀ {key : LeafKey} {leaf : Subtree}, live.store.leaves[key]? = some leaf →
    LeafKey.of leaf = key ∧ live.memory.Knows leaf ∧ leaf.isError = false ∧
      leaf.hasChanges = false
  /-- The same holds of every stored node, and what the key calls its children are children that are
  alive. -/
  nodes : ∀ {key : NodeKey} {node : Subtree}, live.store.nodes[key]? = some node →
    NodeKey.of node = key ∧ live.memory.Knows node ∧ node.isError = false ∧
      node.hasChanges = false ∧ key.children = node.children.map Subtree.id ∧
      ∀ child ∈ node.children, live.memory.Knows child
  /-- The store gives the token that was asked for. -/
  leaf : ∀ spec : LeafSpec, ∃ id, (Store.leaf spec live.store).1 = .ofLeaf id spec
  /-- The store gives the node that was asked for, above the same objects. -/
  node : ∀ (spec : NodeSpec) {children : List Subtree},
    (∀ child ∈ children, live.memory.Knows child) →
    ∃ id, (Store.node spec children live.store).1 = .ofChildren id spec children
  /-- A token that is no error is the same object each time, until everything is forgotten. -/
  leaf_again : ∀ {spec : LeafSpec}, spec.error = false → ∀ {later : LiveStore},
    Remembers ⟨live.memory.learn (Store.newLeaf spec live.store).1,
      (Store.leaf spec live.store).2⟩ later →
    (Store.leaf spec later.store).1 = (Store.leaf spec live.store).1
  /-- So is a node above few unchanged objects that is no error. -/
  node_again : ∀ {spec : NodeSpec} {children : List Subtree}, spec.error = false →
    (∀ child ∈ children, child.hasChanges = false) → children.length ≤ Store.maxSharedChildren →
    ∀ {later : LiveStore},
    Remembers ⟨live.memory.learn (Store.newNode spec children live.store).1,
      (Store.node spec children live.store).2⟩ later →
    (Store.node spec children later.store).1 = (Store.node spec children live.store).1

/-- A store is transparent however it is used, even if addresses are given again. -/
theorem transparent_of_reached {live : LiveStore} (reached : live.Reached) : live.Transparent := by
  have coherent := Coherent.of_reached reached
  refine ⟨?_, ?_, coherent.leaf_eq, coherent.node_eq, ?_, ?_⟩
  · intro key leaf found
    obtain ⟨alive, -, noError, unchanged, same⟩ := coherent.leaves found
    exact ⟨same, alive, noError, unchanged⟩
  · intro key node found
    obtain ⟨alive, -, noError, unchanged, same⟩ := coherent.nodes found
    exact ⟨same, alive, noError, unchanged, congrArg NodeKey.children same.symm,
      coherent.closed alive⟩
  · intro spec noError later remembers
    exact Store.leaf_again noError remembers.includes
  · intro spec children noError unchanged few later remembers
    exact Store.node_again noError unchanged few remembers.includes

/-- A node above a token is given again although the next object would get another address. -/
theorem transparent_of_reached_moved :
    let token := Subtree.ofLeaf 0 default
    let live : LiveStore := ⟨Memory.learn ⟨fun _ => none⟩ token, (Store.leaf default (.fromId 0)).2⟩
    let asked := Store.node default [token] live.store
    live.Reached ∧ (∃ id, asked.1 = .ofChildren id default [token]) ∧
      (Store.node default [token] { asked.2 with nextId := 5 }).1 = asked.1 := by
  intro token live asked
  have reached : live.Reached := ⟨0, .single ⟨false, .leaf default rfl⟩⟩
  have transparent := transparent_of_reached reached
  have alive : ∀ child ∈ [token], live.memory.Knows child := by
    simpa using Memory.knows_learn ⟨fun _ => none⟩ token
  have unchanged : ∀ child ∈ [token], child.hasChanges = false := by
    rintro child member
    obtain rfl := List.mem_singleton.1 member
    rfl
  refine ⟨reached, transparent.node default alive, ?_⟩
  exact transparent.node_again rfl unchanged (by decide) (.single (.relocate 5))

end LiveStore

end IncrementalGlr
