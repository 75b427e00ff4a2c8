import IncrementalGlr.Tree.Node

/-!
# Tree cursors

A cursor stands on a node and keeps every step on the way to it from the node where it began, hidden
nodes included.  Moves go from exposed node to exposed node and step through hidden ones, down into
them and up out of them; whatever steps a move has taken or taken back, if it fails it undoes them.
-/

namespace IncrementalGlr

/-- One step on the way down a tree. -/
structure Frame where
  /-- The subtree stepped on. -/
  subtree : Subtree
  /-- Where it stands. -/
  start : Nat
  /-- Its position among the children of the step before. -/
  index : Nat
  deriving Inhabited

namespace Frame

/-- Where the subtree ends. -/
def stop (frame : Frame) : Nat := frame.start + frame.subtree.length

/-- The subtree and its place. -/
def node (frame : Frame) : Node := ⟨frame.subtree, frame.start⟩

end Frame

/-- A place in a tree together with the way to it. -/
structure TreeCursor where
  /-- The step that led to the current node. -/
  top : Frame
  /-- The steps before it, the latest first; the last one is where the cursor began. -/
  below : List Frame
  deriving Inhabited

namespace TreeCursor

/-- The cursor that begins at a node. -/
def ofNode (node : Node) : TreeCursor := ⟨⟨node.subtree, node.start, 0⟩, []⟩

/-- The current node. -/
def node (cursor : TreeCursor) : Node := cursor.top.node

/-- Whether the cursor stands where it began. -/
def isAtRoot (cursor : TreeCursor) : Bool := cursor.below.isEmpty

/-- The steps on the way, the one that led to the current node first. -/
def frames (cursor : TreeCursor) : List Frame := cursor.top :: cursor.below

/-- Number of exposed nodes on the way, the one where the cursor began not counted. -/
def depth (cursor : TreeCursor) : Nat :=
  (cursor.frames.dropLast.filter fun frame => frame.subtree.isExposed).length

/-- The cursor one step further down. -/
def down (cursor : TreeCursor) (frame : Frame) : TreeCursor := ⟨frame, cursor.frames⟩

/-- The cursor before its last step. -/
def up (cursor : TreeCursor) : TreeCursor :=
  match cursor.below with
  | [] => cursor
  | parent :: below => ⟨parent, below⟩

/-- A move changes the cursor and says whether it has succeeded. -/
abbrev Move : Type := StateM TreeCursor Bool

mutual

/-- Goes to the first exposed node at the top of a subtree, which stands at `start` and is the child
at a position. -/
def enterFirst (start index : Nat) : Subtree → Move
  | .mk data children => do
    modify (down · ⟨.mk data children, start, index⟩)
    if (Subtree.mk data children).isExposed then return true
    if ← firstOf start 0 children then return true
    modify up
    return false

/-- Goes to the first exposed node at the top of subtrees that stand one after the other, the first
one at `start`. -/
def firstOf (start index : Nat) : List Subtree → Move
  | [] => return false
  | child :: after => do
    if ← enterFirst start index child then return true
    firstOf (start + child.length) (index + 1) after

end

/-- Goes to the first child. -/
def gotoFirstChild : Move := do
  let top := (← get).top
  firstOf top.start 0 top.subtree.children

/-- Takes steps again that were taken back, the last one first. -/
def restore (popped : List Frame) : StateM TreeCursor Unit :=
  modify fun cursor => popped.foldl down cursor

/-- Goes to the first exposed node after the last step, below the nearest exposed node on the way or
below the beginning of the way, which is given without that step. -/
def nextFrom (popped : List Frame) : List Frame → Move
  | [] => do
    restore popped
    return false
  | parent :: below => do
    let frame := (← get).top
    modify up
    if ← firstOf frame.stop (frame.index + 1)
        (parent.subtree.children.drop (frame.index + 1)) then
      return true
    if below.isEmpty || parent.subtree.isExposed then
      restore (frame :: popped)
      return false
    nextFrom (frame :: popped) below

/-- Goes to the next sibling. -/
def gotoNextSibling : Move := do
  nextFrom [] (← get).below

mutual

/-- Goes to the last exposed node at the top of a subtree, which ends at `stop` and is the child at
a position. -/
def enterLast (stop index : Nat) : Subtree → Move
  | .mk data children => do
    let frame := Frame.mk (.mk data children) (stop - data.length) index
    modify (down · frame)
    if frame.subtree.isExposed then return true
    if ← lastOf frame.stop 0 children then return true
    modify up
    return false

/-- Goes to the last exposed node at the top of subtrees that stand one after the other, the last
one ending at `stop`. -/
def lastOf (stop index : Nat) : List Subtree → Move
  | [] => return false
  | child :: after => do
    if ← lastOf stop (index + 1) after then return true
    enterLast (stop - Subtree.totalLength after) index child

end

/-- Goes to the last exposed node before the last step, below the nearest exposed node on the way or
below the beginning of the way, which is given without that step. -/
def previousFrom (popped : List Frame) : List Frame → Move
  | [] => do
    restore popped
    return false
  | parent :: below => do
    let frame := (← get).top
    modify up
    if ← lastOf frame.start 0 (parent.subtree.children.take frame.index) then return true
    if below.isEmpty || parent.subtree.isExposed then
      restore (frame :: popped)
      return false
    previousFrom (frame :: popped) below

/-- Goes to the previous sibling. -/
def gotoPreviousSibling : Move := do
  previousFrom [] (← get).below

/-- Goes back to the nearest exposed node on the way, or to where the cursor began; the way is given
without its last step. -/
def leave : List Frame → StateM TreeCursor Unit
  | [] => return
  | parent :: below => do
    modify up
    unless below.isEmpty || parent.subtree.isExposed do leave below

/-- Goes to the parent. -/
def gotoParent : Move := do
  let below := (← get).below
  leave below
  return !below.isEmpty

/-- Goes from sibling to sibling, at most over as many as the budget says, up to the first one that
ends after an offset, and gives its distance from `index`.  If there is none, goes to the parent. -/
def seekByte (byte index : Nat) : Nat → StateM TreeCursor (Option Nat)
  | 0 => return none
  | budget + 1 => do
    if byte < (← get).node.stop then return some index
    if ← gotoNextSibling then seekByte byte (index + 1) budget
    else
      let _ ← gotoParent
      return none

/-- Goes to the first child that ends after an offset and gives its position among the children. -/
def gotoFirstChildForByte (byte : Nat) : StateM TreeCursor (Option Nat) := do
  let budget := (← get).top.subtree.count
  if ← gotoFirstChild then seekByte byte 0 budget else return none

/-- The cursor after a move, if it succeeds. -/
def after? (cursor : TreeCursor) (move : Move) : Option TreeCursor :=
  let (moved, next) := move.run cursor
  if moved then some next else none

/-- The first child. -/
def firstChild? (cursor : TreeCursor) : Option TreeCursor := cursor.after? gotoFirstChild

/-- The next sibling. -/
def nextSibling? (cursor : TreeCursor) : Option TreeCursor := cursor.after? gotoNextSibling

/-- The previous sibling. -/
def previousSibling? (cursor : TreeCursor) : Option TreeCursor :=
  cursor.after? gotoPreviousSibling

/-- The parent. -/
def parent? (cursor : TreeCursor) : Option TreeCursor := cursor.after? gotoParent

/-- The first child that ends after an offset, with its position among the children. -/
def firstChildForByte? (byte : Nat) (cursor : TreeCursor) : Option (Nat × TreeCursor) :=
  let (index, next) := (gotoFirstChildForByte byte).run cursor
  index.map fun index => (index, next)

end TreeCursor

end IncrementalGlr
