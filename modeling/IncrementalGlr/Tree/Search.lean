import IncrementalGlr.Tree.Cursor

/-!
# Nodes seen from the root

A node does not know what stands around it.  Its parent and its siblings are found by a search for
the node from the root of the tree.  The search moves a cursor over the nodes in the order of the
text and only descends into nodes whose range covers that of the node it looks for.
-/

namespace IncrementalGlr

namespace TreeCursor

/-- Goes to the next sibling of the current node or, if it has none, of the nearest node above it
that has one.  At most as many nodes are left for their parent as the budget says. -/
def gotoNextBeyond : Nat → Move
  | 0 => return false
  | budget + 1 => do
    if ← gotoNextSibling then return true
    if ← gotoParent then gotoNextBeyond budget else return false

/-- Goes on in the search for a node: to the first child if the range of the current node covers
that of the node, and otherwise past everything below the current node. -/
def gotoNextPlace (target : Node) : Move := do
  let cursor ← get
  if cursor.node.range.covers target.range then
    if ← gotoFirstChild then return true
  gotoNextBeyond cursor.below.length

/-- Searches for a node from the current one on and says whether it has come to it.  The search
looks at as many nodes as the budget says and gives up behind the place of the node. -/
def gotoNode (target : Node) : Nat → Move
  | 0 => return false
  | budget + 1 => do
    let node := (← get).node
    if node.same target then return true
    if target.stop < node.start then return false
    if ← gotoNextPlace target then gotoNode target budget else return false

end TreeCursor

namespace SyntaxTree

/-- The cursor on a node that began at the root. -/
def cursorAt? (tree : SyntaxTree) (target : Node) : Option TreeCursor :=
  (TreeCursor.ofNode tree.rootNode).after? (TreeCursor.gotoNode target tree.root.count)

/-- The parent of a node. -/
def parent? (tree : SyntaxTree) (node : Node) : Option Node := do
  return (← (← tree.cursorAt? node).parent?).node

/-- The next sibling of a node. -/
def nextSibling? (tree : SyntaxTree) (node : Node) : Option Node := do
  return (← (← tree.cursorAt? node).nextSibling?).node

/-- The previous sibling of a node. -/
def previousSibling? (tree : SyntaxTree) (node : Node) : Option Node := do
  return (← (← tree.cursorAt? node).previousSibling?).node

/-- A node and its ancestors from there up, at most as many as the budget says. -/
def ancestorsFrom (tree : SyntaxTree) (node : Node) : Nat → List Node
  | 0 => []
  | budget + 1 =>
    node ::
      match tree.parent? node with
      | some parent => tree.ancestorsFrom parent budget
      | none => []

/-- A node and its ancestors from there up.  Each one holds more subtrees than the one before. -/
def ancestors (tree : SyntaxTree) (node : Node) : List Node :=
  tree.ancestorsFrom node (tree.root.count + 1)

end SyntaxTree

end IncrementalGlr
