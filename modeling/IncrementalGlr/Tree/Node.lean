import IncrementalGlr.Tree.Basic

/-!
# Nodes

A node is a subtree at a place.  The children of a node are the exposed subtrees below it: tokens
and visible nodes, with hidden nodes replaced by their own children.
-/

namespace IncrementalGlr

/-- A subtree at an offset. -/
structure Node where
  /-- The subtree. -/
  subtree : Subtree
  /-- Where it stands. -/
  start : Nat
  deriving Inhabited

namespace Node

/-- Whether two nodes are the same object at the same place. -/
def same (left right : Node) : Bool :=
  left.subtree.same right.subtree && left.start == right.start

/-- Where the node ends. -/
def stop (node : Node) : Nat := node.start + node.subtree.length

/-- The range of the node. -/
def range (node : Node) : Span := ⟨node.start, node.stop⟩

/-- Whether the node comes from a grammar rule rather than a literal. -/
def isNamed (node : Node) : Bool := node.subtree.isNamed

/-- The text of the node. -/
def text (node : Node) (text : Text) : Text := text.slice node.range

/-- The name of the node's symbol. -/
def kindName (grammar : Grammar) (node : Node) : String := grammar.symbolName node.subtree.symbol

/-- The node by name and range, as in debugging output. -/
def describe (grammar : Grammar) (node : Node) : String :=
  node.kindName grammar ++ "@" ++ toString node.start ++ ".." ++ toString node.stop

end Node

namespace Subtree

mutual

/-- The exposed nodes at the top of a subtree that stands at `start`: itself or, if it is hidden,
those below it. -/
def exposedNodes (start : Nat) : Subtree → List Node
  | mk data children =>
    if (mk data children).isExposed then [⟨mk data children, start⟩]
    else exposedNodesAll start children

/-- The exposed nodes at the top of subtrees that stand one after the other. -/
def exposedNodesAll (start : Nat) : List Subtree → List Node
  | [] => []
  | child :: rest => child.exposedNodes start ++ exposedNodesAll (start + child.length) rest

end

/-- Whether a subtree at `offset` spans a range, of which the start must lie in its text unless it
is empty. -/
def spans (subtree : Subtree) (offset : Nat) (range : Span) : Bool :=
  offset ≤ range.start && range.stop ≤ offset + subtree.length &&
    (range.start < offset + subtree.length || subtree.isEmpty)

mutual

/-- The lowest node that spans a range on the path that always takes the first spanning child, if
the subtree at `start` has one at its top. -/
def spanning? (range : Span) (start : Nat) : Subtree → Option Node
  | mk data children =>
    let subtree := mk data children
    if subtree.isExposed then
      if subtree.spans start range then
        some ((spanningAll? range start children).getD ⟨subtree, start⟩)
      else none
    else spanningAll? range start children

/-- The lowest spanning node below the first subtree of a list that has one. -/
def spanningAll? (range : Span) (start : Nat) : List Subtree → Option Node
  | [] => none
  | child :: rest =>
    match child.spanning? range start with
    | some node => some node
    | none => spanningAll? range (start + child.length) rest

end

end Subtree

namespace Node

/-- The exposed children. -/
def children (node : Node) : List Node :=
  Subtree.exposedNodesAll node.start node.subtree.children

/-- The named children. -/
def namedChildren (node : Node) : List Node := node.children.filter isNamed

/-- The first child that ends after an offset. -/
def childForByte? (node : Node) (byte : Nat) : Option Node :=
  node.children.find? fun child => byte < child.stop

/-- The smallest node from this one down that spans a range.  An empty range on a boundary belongs
to the node that starts there. -/
def descendant? (node : Node) (range : Span) : Option Node :=
  if range.start ≤ range.stop && node.range.covers range then
    some ((Subtree.spanningAll? range node.start node.subtree.children).getD node)
  else none

end Node

namespace SyntaxTree

/-- The node of the whole text. -/
def rootNode (tree : SyntaxTree) : Node := ⟨tree.root, 0⟩

end SyntaxTree

end IncrementalGlr
