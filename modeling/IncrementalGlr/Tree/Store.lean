import IncrementalGlr.Tree.Subtree
import Std.Data.HashMap

/-!
# Shared subtrees

A store makes subtrees.  It gives each a fresh id and remembers the tokens and small nodes that it
made, so that equal ones are one object.  Children are compared by identity: two nodes are shared
only if their children already are.  Errors and changed subtrees are never shared.
-/

namespace IncrementalGlr

/-- What equal tokens have in common. -/
structure LeafKey where
  /-- Symbol of the token. -/
  symbol : Symbol
  /-- The yes-or-no properties. -/
  flags : SubtreeFlags
  /-- Length of the text. -/
  length : Nat
  /-- Number of bytes looked at after the text. -/
  lookahead : Nat
  /-- State in which the token is pushed. -/
  parseState : StateId
  /-- Lexical state in which it was found. -/
  lexState : LexStateId
  deriving DecidableEq, Hashable

namespace LeafKey

/-- The key of a token. -/
def of (subtree : Subtree) : LeafKey :=
  let data := subtree.data
  ⟨data.symbol, data.flags, data.length, data.lookahead, data.parseState, data.lexState⟩

end LeafKey

/-- What equal nodes have in common. -/
structure NodeKey where
  /-- Symbol of the node. -/
  symbol : Symbol
  /-- The yes-or-no properties. -/
  flags : SubtreeFlags
  /-- Production that builds it. -/
  production : ProductionId
  /-- State below it. -/
  parseState : StateId
  /-- Number of bytes after its end that influenced it. -/
  lookahead : Nat
  /-- Sum of the dynamic precedences in it. -/
  dynamicPrecedence : Int
  /-- Identities of the children. -/
  children : List Nat
  deriving DecidableEq, Hashable

namespace NodeKey

/-- The key of a node. -/
def of (subtree : Subtree) : NodeKey :=
  let data := subtree.data
  ⟨data.symbol, data.flags, data.production, data.parseState, data.lookahead,
    data.dynamicPrecedence, subtree.children.map Subtree.id⟩

end NodeKey

/-- A maker of subtrees that remembers what it made. -/
structure Store where
  /-- The id of the next subtree. -/
  nextId : Nat
  /-- The tokens to share. -/
  leaves : Std.HashMap LeafKey Subtree
  /-- The nodes to share. -/
  nodes : Std.HashMap NodeKey Subtree

namespace Store

/-- The store that gives ids from a number on and remembers nothing. -/
def fromId (nextId : Nat) : Store := ⟨nextId, ∅, ∅⟩

instance : Inhabited Store := ⟨fromId 0⟩

/-- Nodes with more children are not shared. -/
def maxSharedChildren : Nat := 3

/-- A store that remembers more subtrees starts over when it is trimmed. -/
def maxSize : Nat := 65536

/-- Number of subtrees that the store remembers. -/
def size (store : Store) : Nat := store.leaves.size + store.nodes.size

/-- Whether the store remembers nothing. -/
def isEmpty (store : Store) : Bool := store.size == 0

/-- Forgets all subtrees. -/
def clear (store : Store) : Store := fromId store.nextId

/-- Forgets all subtrees if there are too many. -/
def trim (store : Store) : Store := if maxSize < store.size then store.clear else store

/-- The next id. -/
def freshId : StateM Store Nat := fun store =>
  (store.nextId, { store with nextId := store.nextId + 1 })

/-- A token of its own. -/
def newLeaf (spec : LeafSpec) : StateM Store Subtree := do
  return .ofLeaf (← freshId) spec

/-- A node of its own. -/
def newNode (spec : NodeSpec) (children : List Subtree) : StateM Store Subtree := do
  return .ofChildren (← freshId) spec children

/-- Remembers a token unless an equal one is known; gives the one that is known from now on. -/
def shareLeaf (leaf : Subtree) : StateM Store Subtree := fun store =>
  match store.leaves[LeafKey.of leaf]? with
  | some known => (known, store)
  | none => (leaf, { store with leaves := store.leaves.insert (LeafKey.of leaf) leaf })

/-- Remembers a node unless an equal one is known; gives the one that is known from now on. -/
def shareNode (node : Subtree) : StateM Store Subtree := fun store =>
  match store.nodes[NodeKey.of node]? with
  | some known => (known, store)
  | none => (node, { store with nodes := store.nodes.insert (NodeKey.of node) node })

/-- A token, shared with equal ones. -/
def leaf (spec : LeafSpec) : StateM Store Subtree := do
  let leaf ← newLeaf spec
  if leaf.isError then return leaf else shareLeaf leaf

/-- A node, shared with equal ones. -/
def node (spec : NodeSpec) (children : List Subtree) : StateM Store Subtree := do
  let node ← newNode spec children
  if node.isError || node.hasChanges || maxSharedChildren < children.length then return node
  else shareNode node

/-- Registers an existing token, so that the same text yields the same object again. -/
def seed (subtree : Subtree) (store : Store) : Store :=
  if subtree.isLeaf && !subtree.isError && !subtree.hasChanges then (shareLeaf subtree store).2
  else store

/-- Registers existing tokens. -/
def seedAll (subtrees : List Subtree) (store : Store) : Store :=
  subtrees.foldl (fun store subtree => seed subtree store) store

end Store

/-- A monad in which subtrees are made.  The parser does not depend on how equal subtrees come to be
shared, only on what they hold. -/
class SubtreeMaker (m : Type → Type) where
  /-- A token, which may be shared with equal ones. -/
  leaf : LeafSpec → m Subtree
  /-- A token of its own. -/
  newLeaf : LeafSpec → m Subtree
  /-- A node, which may be shared with equal ones. -/
  node : NodeSpec → List Subtree → m Subtree

instance : SubtreeMaker (StateM Store) where
  leaf := Store.leaf
  newLeaf := Store.newLeaf
  node := Store.node

end IncrementalGlr
