import IncrementalGlr.Tree.Node

/-!
# Parts of an earlier tree

When a text is parsed again after an edit, the unchanged parts of the edited tree are offered to
the parser in the order of the text, the largest ones first.
-/

namespace IncrementalGlr

namespace Subtree

/-- Subtrees that stand one after the other with their places, the first one at `start`. -/
def placed (start : Nat) : List Subtree → List Node
  | [] => []
  | child :: rest => ⟨child, start⟩ :: placed (start + child.length) rest

end Subtree

/-- The parts of an edited tree that have not been passed, in the order of the text.  Each part
stands for itself and everything below it. -/
structure ReuseCursor where
  /-- The parts. -/
  pending : List Node

namespace ReuseCursor

/-- The cursor before a whole tree. -/
def ofRoot (root : Subtree) : ReuseCursor := ⟨[⟨root, 0⟩]⟩

mutual

/-- The parts of a subtree at `start` from the first one on that starts at a position and is
accepted, or that starts after the position.  What ends before it is passed, and what it cuts or is
not accepted is broken into its children. -/
def openAt (accepts : Subtree → Bool) (position start : Nat) : Subtree → List Node
  | .mk data children =>
    let subtree := Subtree.mk data children
    if start + data.length ≤ position then []
    else if position < start || (start == position && accepts subtree) then [⟨subtree, start⟩]
    else openAllAt accepts position start children

/-- The same for subtrees that stand one after the other; what follows the first part found stays
whole. -/
def openAllAt (accepts : Subtree → Bool) (position start : Nat) : List Subtree → List Node
  | [] => []
  | child :: rest =>
    match openAt accepts position start child with
    | [] => openAllAt accepts position (start + child.length) rest
    | parts => parts ++ Subtree.placed (start + child.length) rest

end

/-- The pending parts from the first one on that starts at a position and is accepted, or that
starts after the position. -/
def openPending (accepts : Subtree → Bool) (position : Nat) : List Node → List Node
  | [] => []
  | node :: rest =>
    match openAt accepts position node.start node.subtree with
    | [] => openPending accepts position rest
    | parts => parts ++ rest

/-- Moves on to the outermost accepted subtree that starts at a position. -/
def seek (accepts : Subtree → Bool) (position : Nat) (cursor : ReuseCursor) : ReuseCursor :=
  ⟨openPending accepts position cursor.pending⟩

/-- The subtree at the cursor if it starts at a position. -/
def candidate? (position : Nat) (cursor : ReuseCursor) : Option Subtree :=
  match cursor.pending with
  | [] => none
  | node :: _ => if node.start == position then some node.subtree else none

/-- Breaks the subtree at the cursor into its children. -/
def reject (cursor : ReuseCursor) : ReuseCursor :=
  match cursor.pending with
  | [] => cursor
  | node :: rest => ⟨Subtree.placed node.start node.subtree.children ++ rest⟩

end ReuseCursor

namespace Subtree

/-- Whether a subtree of an edited tree can be used again at all: nothing in it has changed or is
wrong, only one version was alive when it was built, and it holds text. -/
def isReusable (subtree : Subtree) : Bool :=
  !subtree.hasChanges && !subtree.hasError && !subtree.isFragile && !subtree.isEmpty &&
    subtree.firstLeaf.isSome

/-- Whether a token can be used again in a state: the same terminals were valid when it was found,
and it keeps its role as an extra. -/
def canShiftLeaf (grammar : Grammar) (state : StateId) (leaf : Subtree) : Bool :=
  leaf.data.lexState = grammar.lexState state &&
    if (grammar.actions state leaf.symbol).isEmpty then
      leaf.isExtra || !grammar.isExtra leaf.symbol
    else !leaf.isExtra

/-- Whether a node can be used again whole in a state: it was built on top of the same state. -/
def canPushNode (grammar : Grammar) (state : StateId) (node : Subtree) : Bool :=
  node.parseState = state &&
    node.firstLeaf.any (fun leaf => leaf.lexState = grammar.lexState state) &&
    (grammar.goto? state node.symbol).isSome

end Subtree

/-! ## The way to a part of an earlier tree

The cursor over an edited tree may also keep the whole way from the root to the current subtree, as
a stack of frames.  It goes down to first children and from a subtree to the next sibling, its own
or that of the nearest subtree around it that has one.
-/

/-- A subtree on the way from the root to the current subtree. -/
structure ReuseFrame where
  /-- The subtree. -/
  subtree : Subtree
  /-- Where it stands. -/
  start : Nat
  /-- Its position among the children of the subtree in the frame below. -/
  index : Nat

/-- A cursor over an edited tree with the way to its current subtree. -/
structure ReuseFrames where
  /-- The frames, that of the current subtree first.  There are none at the end of the tree. -/
  frames : List ReuseFrame

namespace ReuseFrames

/-- The cursor at the root of a tree. -/
def ofRoot (root : Subtree) : ReuseFrames := ⟨[⟨root, 0, 0⟩]⟩

/-- The current subtree in its place. -/
def current? (cursor : ReuseFrames) : Option Node :=
  cursor.frames.head?.map fun frame => ⟨frame.subtree, frame.start⟩

/-- Moves to the first child of the current subtree. -/
def descend? (cursor : ReuseFrames) : Option ReuseFrames :=
  match cursor.frames with
  | [] => none
  | frame :: below =>
    frame.subtree.children.head?.map fun child =>
      ⟨⟨child, frame.start, 0⟩ :: frame :: below⟩

/-- The frames after the subtree of the first one and all subtrees below it. -/
def passed : List ReuseFrame → List ReuseFrame
  | frame :: parent :: below =>
    match parent.subtree.children[frame.index + 1]? with
    | some next =>
      ⟨next, frame.start + frame.subtree.length, frame.index + 1⟩ :: parent :: below
    | none => passed (parent :: below)
  | _ => []

/-- Moves to the next subtree in the order of the text that is not inside the current one. -/
def advance (cursor : ReuseFrames) : ReuseFrames := ⟨passed cursor.frames⟩

/-- Moves to the first child of the current subtree, or past it if it has no children. -/
def reject (cursor : ReuseFrames) : ReuseFrames := cursor.descend?.getD cursor.advance

/-! ### Subtrees ahead -/

/-- Number of subtrees after the subtree of a frame and all below it. -/
def countAfter (frame : ReuseFrame) : List ReuseFrame → Nat
  | [] => 0
  | parent :: below =>
    Subtree.countAll (parent.subtree.children.drop (frame.index + 1)) + countAfter parent below

/-- Number of subtrees from the current one on. -/
def ahead (cursor : ReuseFrames) : Nat :=
  match cursor.frames with
  | [] => 0
  | frame :: below => frame.subtree.count + countAfter frame below

theorem ahead_advance (frame : ReuseFrame) (below : List ReuseFrame) :
    (advance ⟨frame :: below⟩).ahead = countAfter frame below := by
  induction below generalizing frame with
  | nil => rfl
  | cons parent below induction =>
    have siblings : countAfter frame (parent :: below) =
        Subtree.countAll (parent.subtree.children.drop (frame.index + 1)) +
          countAfter parent below := rfl
    rw [advance, passed, siblings]
    cases found : parent.subtree.children[frame.index + 1]? with
    | some next =>
      obtain ⟨inside, rfl⟩ := List.getElem?_eq_some_iff.1 found
      rw [List.drop_eq_getElem_cons inside, Subtree.countAll, Nat.add_assoc]
      rfl
    | none =>
      rw [List.drop_eq_nil_of_le (List.getElem?_eq_none_iff.1 found), Subtree.countAll,
        Nat.zero_add]
      exact induction parent

theorem ahead_reject (frame : ReuseFrame) (below : List ReuseFrame) :
    (reject ⟨frame :: below⟩).ahead + 1 = ahead ⟨frame :: below⟩ := by
  obtain ⟨⟨data, children⟩, start, index⟩ := frame
  cases children with
  | nil =>
    have single : ahead ⟨⟨.mk data [], start, index⟩ :: below⟩ =
        1 + countAfter ⟨.mk data [], start, index⟩ below := rfl
    rw [single, ← ahead_advance, Nat.add_comm]
    rfl
  | cons child rest =>
    change child.count + (Subtree.countAll rest + countAfter _ below) + 1 =
      child.count + Subtree.countAll rest + 1 + countAfter _ below
    omega

theorem count_pos (subtree : Subtree) : 0 < subtree.count := by
  cases subtree
  exact Nat.succ_pos _

/-! ### Offers -/

/-- The outermost subtree from the current one on that starts at a position. -/
def candidate (position : Nat) (cursor : ReuseFrames) : Option Subtree × ReuseFrames :=
  match cursor with
  | ⟨[]⟩ => (none, ⟨[]⟩)
  | ⟨frame :: below⟩ =>
    if frame.start + frame.subtree.length ≤ position then
      candidate position (advance ⟨frame :: below⟩)
    else if position < frame.start then (none, ⟨frame :: below⟩)
    else if frame.start = position then (some frame.subtree, ⟨frame :: below⟩)
    else candidate position (reject ⟨frame :: below⟩)
termination_by cursor.ahead
decreasing_by
  · rw [ahead_advance, ahead]
    exact Nat.lt_add_of_pos_left (count_pos frame.subtree)
  · rw [← ahead_reject]
    exact Nat.lt_succ_self _

theorem ahead_reject_candidate {position : Nat} {cursor : ReuseFrames}
    (offered : (cursor.candidate position).1.isSome = true) :
    (cursor.candidate position).2.reject.ahead < cursor.ahead := by
  fun_induction candidate position cursor with
  | case1 => cases offered
  | case2 frame below passed induction =>
    have shorter := induction offered
    rw [ahead_advance] at shorter
    exact Nat.lt_of_lt_of_le shorter (Nat.le_add_left _ _)
  | case3 => cases offered
  | case4 frame below => exact Nat.lt_of_succ_le (Nat.le_of_eq (ahead_reject frame below))
  | case5 frame below straddling before elsewhere induction =>
    have shorter := induction offered
    have fewer := ahead_reject frame below
    omega

/-- A subtree that was offered and rejected is not ahead any more. -/
theorem ahead_reject_lt {position : Nat} {cursor after : ReuseFrames} {subtree : Subtree}
    (found : cursor.candidate position = (some subtree, after)) :
    after.reject.ahead < cursor.ahead := by
  have offered : (cursor.candidate position).1.isSome = true := by
    rw [found]
    rfl
  have fewer := ahead_reject_candidate offered
  rwa [found] at fewer

/-- The outermost subtree from the current one on that starts at a position and is accepted. -/
def offer (accepts : Subtree → Bool) (position : Nat) (cursor : ReuseFrames) :
    Option Subtree × ReuseFrames :=
  match found : cursor.candidate position with
  | (none, after) => (none, after)
  | (some subtree, after) =>
    have := ahead_reject_lt found
    if accepts subtree then (some subtree, after) else offer accepts position after.reject
termination_by cursor.ahead

end ReuseFrames

end IncrementalGlr
