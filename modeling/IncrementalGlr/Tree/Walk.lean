import IncrementalGlr.Tree.Cursor

/-!
# Walks

A walk enters and leaves every node from a starting node down in the order of the text, moving a
cursor as it goes.  The nodes below an entered node can be skipped.
-/

namespace IncrementalGlr

/-- What happens at a step of a walk. -/
inductive WalkEvent
  /-- A node is entered. -/
  | enter (node : Node)
  /-- A node is left. -/
  | leave (node : Node)
  deriving Inhabited

namespace WalkEvent

/-- The node of the event. -/
def node : WalkEvent → Node
  | enter node => node
  | leave node => node

end WalkEvent

/-- The state of a walk after an event. -/
structure Walk where
  /-- The cursor at the node of the event. -/
  cursor : TreeCursor
  /-- The event. -/
  event : WalkEvent
  deriving Inhabited

namespace Walk

/-- The walk that has entered its starting node. -/
def ofNode (node : Node) : Walk :=
  let cursor := TreeCursor.ofNode node
  ⟨cursor, .enter cursor.node⟩

/-- The walk that has entered the cursor's node. -/
def entered (cursor : TreeCursor) : Walk := ⟨cursor, .enter cursor.node⟩

/-- The walk that has left the cursor's node. -/
def left (cursor : TreeCursor) : Walk := ⟨cursor, .leave cursor.node⟩

/-- The walk after its next event; `skip` passes over the nodes below the node just entered.  A
walk ends when it has left its starting node. -/
def next? (walk : Walk) (skip : Bool) : Option Walk :=
  match walk.event with
  | .enter node =>
    match if skip then none else walk.cursor.firstChild? with
    | some child => some (entered child)
    | none => some ⟨walk.cursor, .leave node⟩
  | .leave _ =>
    if walk.cursor.isAtRoot then none
    else
      match walk.cursor.nextSibling? with
      | some sibling => some (entered sibling)
      | none => some (left (walk.cursor.parent?.getD walk.cursor))

/-- Folds a function over the states of a walk, of which there are at most `budget` more.  The
nodes below an entered node are skipped if `skip` says so. -/
def foldFrom {α : Type} (skip : Node → Bool) (step : α → Walk → α) (value : α) (walk : Walk) :
    Nat → α
  | 0 => value
  | budget + 1 =>
    let value := step value walk
    match walk.next? (skip walk.event.node) with
    | some next => foldFrom skip step value next budget
    | none => value

/-- Folds a function over the states of the walk from a node down.  There are two events for each
node. -/
def fold {α : Type} (skip : Node → Bool) (step : α → Walk → α) (value : α) (node : Node) : α :=
  foldFrom skip step value (ofNode node) (2 * node.subtree.count)

/-- The states of the walk from a node down. -/
def all (skip : Node → Bool) (node : Node) : List Walk :=
  (fold skip (fun walks walk => walk :: walks) [] node).reverse

end Walk

/-- A walk whose events are asked for one after the other. -/
inductive WalkProgress
  /-- No event of the walk from a node down has been asked for. -/
  | ready (node : Node)
  /-- The walk is in a state after its latest event. -/
  | underway (walk : Walk)
  /-- There are no more events. -/
  | finished

namespace WalkProgress

/-- The walk after its next event is asked for; `skip` passes over the nodes below the node just
entered. -/
def next (progress : WalkProgress) (skip : Bool) : WalkProgress :=
  match progress with
  | ready node => underway (Walk.ofNode node)
  | underway walk =>
    match walk.next? skip with
    | some next => underway next
    | none => finished
  | finished => finished

end WalkProgress

namespace Node

/-- A node and all nodes below it in the order of the text, each with its depth. -/
def preorder (node : Node) : List (Nat × Node) :=
  (Walk.all (fun _ => false) node).filterMap fun walk =>
    match walk.event with
    | .enter node => some (walk.cursor.depth, node)
    | .leave _ => none

/-- The named nodes from a node down in nested parentheses, each after the name of its symbol. -/
def render (grammar : Grammar) (node : Node) : String :=
  let isShown (other : Node) : Bool := other.same node || other.isNamed
  Walk.fold (fun other => !isShown other)
    (fun output walk =>
      match walk.event with
      | .enter other =>
        if !isShown other then output
        else
          (if other.same node then output else output.push ' ') ++ "(" ++ other.kindName grammar
      | .leave other => if isShown other then output.push ')' else output)
    "" node

end Node

namespace SyntaxTree

/-- The named nodes of the tree in nested parentheses. -/
def render (tree : SyntaxTree) : String := tree.rootNode.render tree.grammar

end SyntaxTree

end IncrementalGlr
