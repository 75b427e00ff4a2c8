import IncrementalGlr.Proofs.Cursor.Siblings

/-!
# Cursors as zippers

If every hidden node below a node is replaced by the exposed nodes below it, the node becomes an
ordinary tree.  A cursor moves in it like a zipper: a tree in focus, with its siblings on both sides
and the same for each node above it.  The zipper knows nothing of hidden nodes and of offsets.
-/

namespace IncrementalGlr

/-- An ordinary tree of nodes. -/
inductive NodeTree
  /-- A node above the trees of its children. -/
  | mk (node : Node) (children : List NodeTree)

namespace NodeTree

/-- The node at the top. -/
def node : NodeTree → Node
  | mk node _ => node

/-- The trees below it. -/
def children : NodeTree → List NodeTree
  | mk _ children => children

end NodeTree

namespace Subtree

mutual

/-- The ordinary trees that a subtree at `start` becomes: one if it is exposed, and otherwise those
that the subtrees below it become. -/
def flattened (start : Nat) : Subtree → List NodeTree
  | mk data children =>
    if (mk data children).isExposed then
      [.mk ⟨mk data children, start⟩ (flattenedAll start children)]
    else flattenedAll start children

/-- The ordinary trees that subtrees become which stand one after the other, the first one at
`start`. -/
def flattenedAll (start : Nat) : List Subtree → List NodeTree
  | [] => []
  | child :: after => child.flattened start ++ flattenedAll (start + child.length) after

end

end Subtree

/-- The ordinary tree of a node, which stays at its top even if it is hidden. -/
def Node.flattened (node : Node) : NodeTree :=
  .mk node (Subtree.flattenedAll node.start node.subtree.children)

/-- A node on the way down an ordinary tree. -/
structure Crumb where
  /-- The node. -/
  node : Node
  /-- The trees before it, the nearest first. -/
  before : List NodeTree
  /-- The trees after it, the nearest first. -/
  after : List NodeTree

/-- A place in an ordinary tree. -/
structure Zipper where
  /-- The tree at the place. -/
  focus : NodeTree
  /-- The trees before it, the nearest first. -/
  before : List NodeTree
  /-- The trees after it, the nearest first. -/
  after : List NodeTree
  /-- The nodes above it, the nearest first. -/
  path : List Crumb

/-- A move that can be asked for. -/
inductive CursorMove
  /-- Go to the first child. -/
  | firstChild
  /-- Go to the next sibling. -/
  | nextSibling
  /-- Go to the previous sibling. -/
  | previousSibling
  /-- Go to the parent. -/
  | parent
  /-- Go to the first child that ends after an offset. -/
  | firstChildForByte (byte : Nat)

/-- What is answered to a move. -/
inductive MoveAnswer
  /-- Whether the move has succeeded. -/
  | moved (success : Bool)
  /-- The position of the child to which the move has gone, if it has succeeded. -/
  | child (position : Option Nat)
  deriving DecidableEq

namespace MoveAnswer

/-- Whether the move has failed. -/
def isFailure : MoveAnswer → Bool
  | moved success => !success
  | child position => position.isNone

end MoveAnswer

namespace TreeCursor

/-- The answer of a cursor to a move, and the cursor after it. -/
def perform (cursor : TreeCursor) : CursorMove → MoveAnswer × TreeCursor
  | .firstChild => (gotoFirstChild.run cursor).map .moved id
  | .nextSibling => (gotoNextSibling.run cursor).map .moved id
  | .previousSibling => (gotoPreviousSibling.run cursor).map .moved id
  | .parent => (gotoParent.run cursor).map .moved id
  | .firstChildForByte byte => ((gotoFirstChildForByte byte).run cursor).map .child id

/-- The cursor after moves. -/
def performAll (cursor : TreeCursor) (moves : List CursorMove) : TreeCursor :=
  moves.foldl (fun cursor move => (cursor.perform move).2) cursor

end TreeCursor

namespace Zipper

/-- The place at the top of a tree. -/
def ofTree (tree : NodeTree) : Zipper := ⟨tree, [], [], []⟩

/-- Number of nodes above the place. -/
def depth (zipper : Zipper) : Nat := zipper.path.length

/-- The node at the place, seen from below. -/
def crumb (zipper : Zipper) : Crumb := ⟨zipper.focus.node, zipper.before, zipper.after⟩

/-- The place of the first child. -/
def firstChild? (zipper : Zipper) : Option Zipper :=
  match zipper.focus.children with
  | [] => none
  | child :: after => some ⟨child, [], after, zipper.crumb :: zipper.path⟩

/-- The place of the next sibling. -/
def nextSibling? (zipper : Zipper) : Option Zipper :=
  match zipper.after with
  | [] => none
  | next :: after => some ⟨next, zipper.focus :: zipper.before, after, zipper.path⟩

/-- The place of the previous sibling. -/
def previousSibling? (zipper : Zipper) : Option Zipper :=
  match zipper.before with
  | [] => none
  | previous :: before => some ⟨previous, before, zipper.focus :: zipper.after, zipper.path⟩

/-- The place of the parent. -/
def parent? (zipper : Zipper) : Option Zipper :=
  match zipper.path with
  | [] => none
  | crumb :: path =>
    some ⟨.mk crumb.node (zipper.before.reverse ++ zipper.focus :: zipper.after), crumb.before,
      crumb.after, path⟩

/-- The place of the first child that ends after an offset, with its position among the children. -/
def firstChildForByte? (byte : Nat) (zipper : Zipper) : Option (Nat × Zipper) :=
  let early := zipper.focus.children.takeWhile fun child => child.node.stop ≤ byte
  match zipper.focus.children.dropWhile fun child => child.node.stop ≤ byte with
  | [] => none
  | child :: after =>
    some (early.length, ⟨child, early.reverse, after, zipper.crumb :: zipper.path⟩)

/-- The answer to a move that goes to a place, if there is one. -/
def moved (zipper : Zipper) : Option Zipper → MoveAnswer × Zipper
  | some next => (.moved true, next)
  | none => (.moved false, zipper)

/-- The answer of a zipper to a move, and the zipper after it. -/
def perform (zipper : Zipper) : CursorMove → MoveAnswer × Zipper
  | .firstChild => zipper.moved zipper.firstChild?
  | .nextSibling => zipper.moved zipper.nextSibling?
  | .previousSibling => zipper.moved zipper.previousSibling?
  | .parent => zipper.moved zipper.parent?
  | .firstChildForByte byte =>
    match zipper.firstChildForByte? byte with
    | some (position, next) => (.child (some position), next)
    | none => (.child none, zipper)

/-- The zipper after moves. -/
def performAll (zipper : Zipper) (moves : List CursorMove) : Zipper :=
  moves.foldl (fun zipper move => (zipper.perform move).2) zipper

end Zipper

namespace TreeCursor

/-- The ordinary tree of the cursor's node. -/
def tree (cursor : TreeCursor) : NodeTree := cursor.node.flattened

mutual

theorem map_tree_opened : ∀ (subtree : Subtree) (cursor : TreeCursor) (start index : Nat),
    (cursor.opened start index subtree).map tree = subtree.flattened start
  | .mk data children, cursor, start, index => by
      rw [opened, Subtree.flattened, apply_ite (List.map tree),
        map_tree_openedAll children _ start 0]
      rfl

theorem map_tree_openedAll : ∀ (children : List Subtree) (cursor : TreeCursor)
    (start index : Nat),
    (cursor.openedAll start index children).map tree = Subtree.flattenedAll start children
  | [], _, _, _ => rfl
  | child :: after, cursor, start, index => by
      rw [openedAll, List.map_append, map_tree_opened child, map_tree_openedAll after]
      rfl

end

/-- The children of a cursor's node are those in the ordinary tree. -/
theorem map_tree_children (cursor : TreeCursor) :
    cursor.children.map tree = cursor.tree.children :=
  map_tree_openedAll cursor.top.subtree.children cursor cursor.top.start 0

/-- How the cursors that begin at a node correspond to the places in its ordinary tree: a cursor in
the row of the children of another one corresponds to the place of that child. -/
inductive Stands (root : Node) : TreeCursor → Zipper → Prop
  /-- Both begin at the top. -/
  | top : Stands root (.ofNode root) (.ofTree root.flattened)
  /-- Both go to the same child. -/
  | child {cursor child : TreeCursor} {zipper : Zipper} {left right : List TreeCursor}
      (above : Stands root cursor zipper) (row : cursor.children = left ++ child :: right) :
      Stands root child
        ⟨child.tree, (left.map tree).reverse, right.map tree, zipper.crumb :: zipper.path⟩

namespace Stands

variable {root : Node} {cursor : TreeCursor} {zipper : Zipper}

theorem focus_eq (stands : Stands root cursor zipper) : zipper.focus = cursor.tree := by
  cases stands <;> rfl

theorem node_eq (stands : Stands root cursor zipper) : cursor.node = zipper.focus.node := by
  rw [stands.focus_eq]
  rfl

theorem exposes {child : TreeCursor} {left right : List TreeCursor}
    (row : cursor.children = left ++ child :: right) : cursor.Exposes child := by
  refine exposes_of_mem_children ?_
  rw [row]
  exact List.mem_append_right left List.mem_cons_self

theorem isStop (stands : Stands root cursor zipper) : cursor.isStop = true := by
  cases stands with
  | top => rfl
  | child _ row => exact Bool.or_eq_true_iff.2 (.inr (exposes row).isExposed)

theorem depth_eq (stands : Stands root cursor zipper) : cursor.depth = zipper.depth := by
  induction stands with
  | top => rfl
  | child _ row induction => rw [(exposes row).depth_eq, induction]; rfl

theorem linked (stands : Stands root cursor zipper) (summed : root.subtree.Summed) :
    cursor.top.subtree.Summed ∧ Linked cursor.top cursor.below := by
  induction stands with
  | top => exact ⟨summed, trivial⟩
  | child _ row induction => exact (exposes row).linked induction.1 induction.2

/-- Above the place of a child is the place of the node. -/
theorem parent?_eq (stands : Stands root cursor zipper) {child : TreeCursor}
    {left right : List TreeCursor} (row : cursor.children = left ++ child :: right) :
    Zipper.parent? ⟨child.tree, (left.map tree).reverse, right.map tree,
      zipper.crumb :: zipper.path⟩ = some zipper := by
  have whole : NodeTree.mk zipper.focus.node
      ((left.map tree).reverse.reverse ++ child.tree :: right.map tree) = zipper.focus := by
    rw [stands.focus_eq, List.reverse_reverse, ← List.map_cons, ← List.map_append, ← row,
      map_tree_children]
    rfl
  change some (Zipper.mk (.mk zipper.focus.node _) zipper.before zipper.after zipper.path) = _
  rw [whole]

/-- Whether a cursor's answer to a move and the cursor after it agree with those of the place to
which it corresponds, and the cursor stays if the move fails. -/
structure Agrees (root : Node) (cursor : TreeCursor) (result : MoveAnswer × TreeCursor)
    (expected : MoveAnswer × Zipper) : Prop where
  /-- The answers are the same. -/
  answer : result.1 = expected.1
  /-- The cursor corresponds to the place. -/
  stands : Stands root result.2 expected.2
  /-- A failure changes nothing. -/
  stays : result.1.isFailure = true → result.2 = cursor

theorem agrees_of_outcome (stands : Stands root cursor zipper) {result : Bool × TreeCursor}
    {found : Option TreeCursor} {next : Option Zipper} (leads : result = cursor.outcome found)
    (same : Option.Rel (Stands root) found next) :
    Agrees root cursor (result.map .moved id) (zipper.moved next) := by
  subst leads
  cases same with
  | none => exact ⟨rfl, stands, fun _ => rfl⟩
  | some follows => exact ⟨rfl, follows, fun failed => by cases failed⟩

theorem firstChild_agrees (stands : Stands root cursor zipper) :
    Agrees root cursor (cursor.perform .firstChild) (zipper.perform .firstChild) := by
  refine stands.agrees_of_outcome (gotoFirstChild_run cursor) ?_
  rw [Zipper.firstChild?, stands.focus_eq, ← map_tree_children]
  cases row : cursor.children with
  | nil => exact .none
  | cons child right => exact .some (stands.child (show _ = [] ++ child :: right from row))

theorem nextSibling_agrees (stands : Stands root cursor zipper) :
    Agrees root cursor (cursor.perform .nextSibling) (zipper.perform .nextSibling) := by
  cases stands with
  | top => exact Stands.top.agrees_of_outcome rfl .none
  | @child parent _ above left right stands row =>
      refine (stands.child row).agrees_of_outcome (gotoNextSibling_row stands.isStop row) ?_
      cases right with
      | nil => exact .none
      | cons next right =>
          have further := stands.child (row.trans (List.append_cons ..))
          rw [List.map_append, List.reverse_append] at further
          exact .some further

theorem previousSibling_agrees (stands : Stands root cursor zipper)
    (summed : root.subtree.Summed) :
    Agrees root cursor (cursor.perform .previousSibling) (zipper.perform .previousSibling) := by
  have way := (stands.linked summed).2
  cases stands with
  | top => exact Stands.top.agrees_of_outcome rfl .none
  | @child parent _ above left right stands row =>
      refine (stands.child row).agrees_of_outcome
        (gotoPreviousSibling_row stands.isStop row way) ?_
      rcases List.eq_nil_or_concat left with rfl | ⟨left, previous, rfl⟩
      · exact .none
      · rw [List.concat_eq_append] at row ⊢
        rw [List.getLast?_concat, Zipper.previousSibling?, List.map_append, List.reverse_append]
        exact .some (stands.child (row.trans (List.append_cons ..).symm))

theorem parent_agrees (stands : Stands root cursor zipper) :
    Agrees root cursor (cursor.perform .parent) (zipper.perform .parent) := by
  cases stands with
  | top => exact Stands.top.agrees_of_outcome rfl .none
  | @child parent _ above left right stands row =>
      have leads : gotoParent.run cursor = cursor.outcome (some parent) :=
        gotoParent_row stands.isStop row
      rw [Zipper.perform, stands.parent?_eq row]
      exact (stands.child row).agrees_of_outcome leads (.some stands)

theorem firstChildForByte_agrees (stands : Stands root cursor zipper) (byte : Nat) :
    Agrees root cursor (cursor.perform (.firstChildForByte byte))
      (zipper.perform (.firstChildForByte byte)) := by
  have early : zipper.focus.children.takeWhile (fun child => decide (child.node.stop ≤ byte)) =
      (cursor.children.takeWhile (endsBy byte)).map tree := by
    rw [stands.focus_eq, ← map_tree_children, List.takeWhile_map]
    rfl
  have late : zipper.focus.children.dropWhile (fun child => decide (child.node.stop ≤ byte)) =
      (cursor.children.dropWhile (endsBy byte)).map tree := by
    rw [stands.focus_eq, ← map_tree_children, List.dropWhile_map]
    rfl
  have row := (List.takeWhile_append_dropWhile : cursor.children.takeWhile (endsBy byte) ++ _ = _)
  rw [perform, gotoFirstChildForByte_run stands.isStop, Zipper.perform,
    Zipper.firstChildForByte?, early, late]
  cases rest : cursor.children.dropWhile (endsBy byte) with
  | nil => exact ⟨rfl, stands, fun _ => rfl⟩
  | cons found after =>
      rw [rest] at row
      refine ⟨?_, stands.child row.symm, fun failed => by cases failed⟩
      rw [List.length_map]
      rfl

/-- A move leads a cursor to where it leads the place to which the cursor corresponds. -/
theorem agrees (stands : Stands root cursor zipper) (summed : root.subtree.Summed)
    (move : CursorMove) : Agrees root cursor (cursor.perform move) (zipper.perform move) := by
  cases move with
  | firstChild => exact stands.firstChild_agrees
  | nextSibling => exact stands.nextSibling_agrees
  | previousSibling => exact stands.previousSibling_agrees summed
  | parent => exact stands.parent_agrees
  | firstChildForByte byte => exact stands.firstChildForByte_agrees byte

/-- Wherever moves lead a cursor, it corresponds to the place to which they lead the zipper. -/
theorem performAll (stands : Stands root cursor zipper) (summed : root.subtree.Summed)
    (moves : List CursorMove) : Stands root (cursor.performAll moves) (zipper.performAll moves) := by
  induction moves generalizing cursor zipper with
  | nil => exact stands
  | cons move moves induction => exact induction (stands.agrees summed move).stands

/-- After a move to the next sibling the previous sibling is where the cursor was. -/
theorem previous_of_next (stands : Stands root cursor zipper) (summed : root.subtree.Summed)
    {next : TreeCursor} (moved : gotoNextSibling.run cursor = (true, next)) :
    gotoPreviousSibling.run next = (true, cursor) := by
  cases stands with
  | top => cases congrArg Prod.fst moved
  | @child parent _ above left right stands row =>
      rw [gotoNextSibling_row stands.isStop row] at moved
      cases right with
      | nil => cases congrArg Prod.fst moved
      | cons other right =>
          obtain rfl : other = next := congrArg Prod.snd moved
          have further := row.trans (List.append_cons ..)
          rw [gotoPreviousSibling_row stands.isStop further
            ((stands.child further).linked summed).2, List.getLast?_concat]
          rfl

/-- After a move to the previous sibling the next sibling is where the cursor was. -/
theorem next_of_previous (stands : Stands root cursor zipper) (summed : root.subtree.Summed)
    {previous : TreeCursor} (moved : gotoPreviousSibling.run cursor = (true, previous)) :
    gotoNextSibling.run previous = (true, cursor) := by
  have way := (stands.linked summed).2
  cases stands with
  | top => cases congrArg Prod.fst moved
  | @child parent _ above left right stands row =>
      rw [gotoPreviousSibling_row stands.isStop row way] at moved
      rcases List.eq_nil_or_concat left with rfl | ⟨left, other, rfl⟩
      · cases congrArg Prod.fst moved
      · rw [List.concat_eq_append] at row moved
        rw [List.getLast?_concat] at moved
        obtain rfl : other = previous := congrArg Prod.snd moved
        exact gotoNextSibling_row stands.isStop (row.trans (List.append_cons ..).symm)

end Stands

/-- A cursor that begins at a node and makes any moves is at every point where the zipper of the
node's ordinary tree is that makes the same moves: the node, the depth and the answer to each next
move are the same.  A move that fails changes no step of the cursor's way, and a move to a sibling
and the move back lead to the very steps from before. -/
theorem refines_zipper (node : Node) (summed : node.subtree.Summed) (moves : List CursorMove) :
    let cursor := (ofNode node).performAll moves
    let zipper := (Zipper.ofTree node.flattened).performAll moves
    cursor.node = zipper.focus.node ∧ cursor.depth = zipper.depth ∧
      (∀ move, (cursor.perform move).1 = (zipper.perform move).1 ∧
        ((cursor.perform move).1.isFailure = true → (cursor.perform move).2 = cursor)) ∧
      (∀ next, gotoNextSibling.run cursor = (true, next) →
        gotoPreviousSibling.run next = (true, cursor)) ∧
      ∀ previous, gotoPreviousSibling.run cursor = (true, previous) →
        gotoNextSibling.run previous = (true, cursor) := by
  intro cursor zipper
  have stands : Stands node cursor zipper := Stands.top.performAll summed moves
  refine ⟨stands.node_eq, stands.depth_eq, fun move => ?_, ?_, ?_⟩
  · have agrees := stands.agrees summed move
    exact ⟨agrees.answer, agrees.stays⟩
  · exact fun next => stands.previous_of_next summed
  · exact fun previous => stands.next_of_previous summed

/-- A cursor goes past a hidden node without children and into one below another one, to the token
that ends after an offset, and out of both again to the last token, from which there is no way on. -/
theorem refines_zipper_nested :
    let token (length : Nat) : Subtree := .ofLeaf 0 { (default : LeafSpec) with length }
    let hidden (children : List Subtree) : Subtree := .ofChildren 0 default children
    let node : Node :=
      ⟨hidden [hidden [], token 1, hidden [hidden [token 2, hidden []], hidden []], token 4], 10⟩
    let cursor := (ofNode node).performAll [.firstChildForByte 11, .nextSibling]
    node.subtree.Summed ∧ cursor.node.start = 13 ∧ cursor.depth = 1 ∧
      cursor.perform .nextSibling = (.moved false, cursor) := by
  intro token hidden node cursor
  have tokens : ∀ length, (token length).Tiled := fun length => Subtree.tiled_ofLeaf _
  have nodes : ∀ {children : List Subtree}, (∀ child ∈ children, child.Tiled) →
      (hidden children).Tiled := fun tiled => Subtree.tiled_ofChildren _ tiled
  have summed : node.subtree.Summed := by
    refine (nodes ?_).summed
    have empty : (hidden []).Tiled := nodes (by simp)
    have inner : (hidden [token 2, hidden []]).Tiled := nodes (by simp [tokens, empty])
    have outer : (hidden [hidden [token 2, hidden []], hidden []]).Tiled :=
      nodes (by simp [inner, empty])
    simp [tokens, empty, outer]
  obtain ⟨same, depth, agree, -⟩ :=
    refines_zipper node summed [.firstChildForByte 11, .nextSibling]
  obtain ⟨answer, stays⟩ := agree .nextSibling
  have failed : (cursor.perform .nextSibling).1 = .moved false := answer
  refine ⟨summed, ?_, depth, Prod.ext failed (stays (by rw [answer]; rfl))⟩
  exact congrArg Node.start same

end TreeCursor

end IncrementalGlr
