import IncrementalGlr.Proofs.Tiling
import IncrementalGlr.Tree.Cursor

/-!
# Where the moves of a cursor lead

The exposed nodes at the top of a list of subtrees are those that show up in its place when hidden
nodes are replaced by what is below them.  Every move of a cursor goes to one of the cursors on such
nodes: to the first or the last of them, or to none, if there are none, and then it leaves the cursor
as it was.
-/

namespace IncrementalGlr

namespace Subtree

/-- Whether the length of every node from a subtree down is the sum of the lengths of its
children. -/
inductive Summed : Subtree → Prop
  /-- A token, or a node whose children fill its length, with the same below it. -/
  | mk {subtree : Subtree}
    (filled : subtree.isLeaf = false → subtree.length = totalLength subtree.children)
    (under : ∀ child ∈ subtree.children, Summed child) : Summed subtree

theorem Summed.under {subtree : Subtree} (summed : subtree.Summed) :
    ∀ child ∈ subtree.children, child.Summed := by
  cases summed
  assumption

theorem Tiled.summed {subtree : Subtree} (tiled : subtree.Tiled) : subtree.Summed := by
  induction tiled with
  | mk _ filled _ induction => exact .mk filled induction

end Subtree

namespace TreeCursor

variable {cursor : TreeCursor}

mutual

/-- The cursors on the exposed nodes at the top of a subtree, for a cursor on the node above it. -/
def opened (cursor : TreeCursor) (start index : Nat) : Subtree → List TreeCursor
  | .mk data children =>
    let here := cursor.down ⟨.mk data children, start, index⟩
    if here.top.subtree.isExposed then [here] else openedAll here start 0 children

/-- The cursors on the exposed nodes at the top of subtrees that stand one after the other, for a
cursor on the node above them. -/
def openedAll (cursor : TreeCursor) (start index : Nat) : List Subtree → List TreeCursor
  | [] => []
  | child :: after =>
    opened cursor start index child ++ openedAll cursor (start + child.length) (index + 1) after

end

/-- The cursors on the children. -/
def children (cursor : TreeCursor) : List TreeCursor :=
  cursor.openedAll cursor.top.start 0 cursor.top.subtree.children

/-- Whether the cursor is on a node that counts as a parent: an exposed one, or the one where it
began. -/
def isStop (cursor : TreeCursor) : Bool := cursor.below.isEmpty || cursor.top.subtree.isExposed

/-- The cursors on the exposed nodes after a step. -/
def rightOf (frame : Frame) : List Frame → List TreeCursor
  | [] => []
  | parent :: below =>
    openedAll ⟨parent, below⟩ frame.stop (frame.index + 1)
        (parent.subtree.children.drop (frame.index + 1)) ++
      if isStop ⟨parent, below⟩ then [] else rightOf parent below

/-- The cursors on the exposed nodes before a step. -/
def leftOf (frame : Frame) : List Frame → List TreeCursor
  | [] => []
  | parent :: below =>
    (if isStop ⟨parent, below⟩ then [] else leftOf parent below) ++
      openedAll ⟨parent, below⟩ parent.start 0 (parent.subtree.children.take frame.index)

/-- What a move comes to that goes to a cursor, if there is one. -/
def outcome (cursor : TreeCursor) (found : Option TreeCursor) : Bool × TreeCursor :=
  match found with
  | some next => (true, next)
  | none => (false, cursor)

/-- A move that fails only if there is nowhere to go can be followed by another one. -/
theorem run_or {first second : Move} {here there : Option TreeCursor}
    (firstRun : first.run cursor = cursor.outcome here)
    (secondRun : second.run cursor = cursor.outcome there) :
    (do if ← first then return true else second : Move).run cursor =
      cursor.outcome (here.or there) := by
  change StateT.run (if (first.run cursor).1 then return true else second)
    (first.run cursor).2 = _
  rw [firstRun]
  cases here with
  | some next => rfl
  | none => exact secondRun

/-- A move goes down a step and then on to an exposed node, unless the step is on one, and takes the
step back if there is none. -/
theorem run_enter {frame : Frame} {inner : Move} {found : Option TreeCursor}
    (innerRun : frame.subtree.isExposed = false →
      inner.run (cursor.down frame) = (cursor.down frame).outcome found) :
    (do
      modify (down · frame)
      if frame.subtree.isExposed then return true
      if ← inner then return true
      modify up
      return false : Move).run cursor =
      cursor.outcome (if frame.subtree.isExposed then some (cursor.down frame) else found) := by
  cases exposed : frame.subtree.isExposed with
  | true => rfl
  | false =>
      change StateT.run (if (inner.run (cursor.down frame)).1 then return true else do
        modify up
        return false) (inner.run (cursor.down frame)).2 = _
      rw [innerRun exposed]
      cases found <;> rfl

mutual

theorem enterFirst_run : ∀ (subtree : Subtree) (cursor : TreeCursor) (start index : Nat),
    (enterFirst start index subtree).run cursor =
      cursor.outcome (cursor.opened start index subtree).head?
  | .mk data children, cursor, start, index => by
      rw [enterFirst, run_enter fun _ => firstOf_run children _ start 0, opened,
        apply_ite List.head?]
      rfl

/-- The first exposed node is found. -/
theorem firstOf_run : ∀ (children : List Subtree) (cursor : TreeCursor) (start index : Nat),
    (firstOf start index children).run cursor =
      cursor.outcome (cursor.openedAll start index children).head?
  | [], cursor, start, index => rfl
  | child :: after, cursor, start, index => by
      rw [openedAll, List.head?_append]
      exact run_or (enterFirst_run child cursor start index)
        (firstOf_run after cursor (start + child.length) (index + 1))

end

theorem gotoFirstChild_run (cursor : TreeCursor) :
    gotoFirstChild.run cursor = cursor.outcome cursor.children.head? :=
  firstOf_run cursor.top.subtree.children cursor cursor.top.start 0

mutual

theorem enterLast_run : ∀ (subtree : Subtree), subtree.Summed →
    ∀ (cursor : TreeCursor) {start stop : Nat} (index : Nat), stop = start + subtree.length →
      (enterLast stop index subtree).run cursor =
        cursor.outcome (cursor.opened start index subtree).getLast?
  | .mk data children, .mk filled under, cursor, start, stop, index, stops => by
      have begins : stop - data.length = start := by
        rw [stops]
        exact Nat.add_sub_cancel ..
      rw [enterLast, begins, run_enter fun hidden => ?_, opened, apply_ite List.getLast?]
      · rfl
      · -- Only a hidden node has to be filled by its children: an exposed one is not entered.
        have node : (Subtree.mk data children).isLeaf = false := (Bool.or_eq_false_iff.1 hidden).2
        exact lastOf_run children under _ 0 (congrArg (start + ·) (filled node))

/-- The last exposed node is found. -/
theorem lastOf_run : ∀ (children : List Subtree), (∀ child ∈ children, child.Summed) →
    ∀ (cursor : TreeCursor) {start stop : Nat} (index : Nat),
      stop = start + Subtree.totalLength children →
      (lastOf stop index children).run cursor =
        cursor.outcome (cursor.openedAll start index children).getLast?
  | [], _, cursor, start, stop, index, _ => rfl
  | child :: after, summed, cursor, start, stop, index, stops => by
      obtain ⟨first, rest⟩ := List.forall_mem_cons.1 summed
      have further : stop = start + child.length + Subtree.totalLength after := by
        rw [stops, Nat.add_assoc]
        rfl
      have here : stop - Subtree.totalLength after = start + child.length := by
        rw [further]
        exact Nat.add_sub_cancel ..
      rw [openedAll, List.getLast?_append]
      exact run_or (lastOf_run after rest cursor (index + 1) further)
        (enterLast_run child first cursor index here)

end

/-- A move takes a step back and goes on from there, unless it fails at a node that counts as a
parent; then it takes the step again, and the steps before it that were taken back. -/
theorem run_back {frame parent : Frame} {below popped : List Frame} {inner outer : Move}
    {found further : Option TreeCursor}
    (innerRun : inner.run ⟨parent, below⟩ = outcome ⟨parent, below⟩ found)
    (outerRun : outer.run ⟨parent, below⟩ =
      outcome (popped.foldl down ⟨frame, parent :: below⟩) further) :
    (do
      modify up
      if ← inner then return true
      if below.isEmpty || parent.subtree.isExposed then
        restore (frame :: popped)
        return false
      outer : Move).run ⟨frame, parent :: below⟩ =
      outcome (popped.foldl down ⟨frame, parent :: below⟩)
        (found.or (if isStop ⟨parent, below⟩ then none else further)) := by
  change StateT.run (if (inner.run ⟨parent, below⟩).1 then return true else
    if isStop ⟨parent, below⟩ then do
      restore (frame :: popped)
      return false
    else outer) (inner.run ⟨parent, below⟩).2 = _
  rw [innerRun]
  cases found with
  | some next => rfl
  | none =>
      cases isStop ⟨parent, below⟩ with
      | true => rfl
      | false => exact outerRun

theorem nextFrom_run : ∀ (below popped : List Frame) (frame : Frame),
    (nextFrom popped below).run ⟨frame, below⟩ =
      outcome (popped.foldl down ⟨frame, below⟩) (rightOf frame below).head?
  | [], _, _ => rfl
  | parent :: below, popped, frame => by
      rw [rightOf, List.head?_append, apply_ite List.head?]
      exact run_back (firstOf_run _ _ _ _) (nextFrom_run below (frame :: popped) parent)

theorem gotoNextSibling_run (cursor : TreeCursor) :
    gotoNextSibling.run cursor = cursor.outcome (rightOf cursor.top cursor.below).head? :=
  nextFrom_run cursor.below [] cursor.top

/-- Whether every step leads to where its subtree stands among the children of the step before. -/
def Linked (frame : Frame) : List Frame → Prop
  | [] => True
  | parent :: below =>
    (∀ child ∈ parent.subtree.children, child.Summed) ∧
      frame.start =
        parent.start + Subtree.totalLength (parent.subtree.children.take frame.index) ∧
      Linked parent below

theorem previousFrom_run : ∀ (below popped : List Frame) (frame : Frame), Linked frame below →
    (previousFrom popped below).run ⟨frame, below⟩ =
      outcome (popped.foldl down ⟨frame, below⟩) (leftOf frame below).getLast?
  | [], _, _, _ => rfl
  | parent :: below, popped, frame, ⟨summed, start, linked⟩ => by
      rw [leftOf, List.getLast?_append, apply_ite List.getLast?]
      exact run_back
        (lastOf_run _ (fun child member => summed child (List.mem_of_mem_take member)) _ 0 start)
        (previousFrom_run below (frame :: popped) parent linked)

theorem gotoPreviousSibling_run {cursor : TreeCursor} (linked : Linked cursor.top cursor.below) :
    gotoPreviousSibling.run cursor = cursor.outcome (leftOf cursor.top cursor.below).getLast? :=
  previousFrom_run cursor.below [] cursor.top linked

end TreeCursor

end IncrementalGlr
