import IncrementalGlr.Proofs.Cursor.Moves

/-!
# Rows of siblings

The children of a node stand in a row, however many hidden nodes are between the node and each of
them.  For a cursor on one of them, what lies to its right and to its left is the rest of the row,
and the way back leads to the node.
-/

namespace IncrementalGlr

namespace TreeCursor

variable {cursor : TreeCursor}

/-- Whether subtrees are the children of a cursor's node from a position and an offset on. -/
structure StandsBefore (cursor : TreeCursor) (start index : Nat) (children : List Subtree) :
    Prop where
  /-- They are all children from the position on. -/
  children : cursor.top.subtree.children.drop index = children
  /-- The offset is that of the first one of them. -/
  start : start =
    cursor.top.start + Subtree.totalLength (cursor.top.subtree.children.take index)

namespace StandsBefore

variable {start index : Nat} {child : Subtree} {after : List Subtree}

theorem all (cursor : TreeCursor) :
    cursor.StandsBefore cursor.top.start 0 cursor.top.subtree.children :=
  ⟨rfl, rfl⟩

theorem child? (stands : cursor.StandsBefore start index (child :: after)) :
    cursor.top.subtree.children[index]? = some child := by
  rw [← List.head?_drop, stands.children]
  rfl

theorem next (stands : cursor.StandsBefore start index (child :: after)) :
    cursor.StandsBefore (start + child.length) (index + 1) after where
  children := by
    rw [← List.tail_drop, stands.children]
    rfl
  start := by
    rw [List.take_add_one, stands.child?, Subtree.totalLength_append, stands.start, Nat.add_assoc]
    rfl

end StandsBefore

theorem isStop_down {frame : Frame} (hidden : frame.subtree.isExposed = false) :
    (cursor.down frame).isStop = false :=
  hidden

section Rows

variable {child : TreeCursor} {left right : List TreeCursor}

theorem rightOf_step {start index : Nat} {subtree : Subtree} {after : List Subtree}
    (stands : cursor.StandsBefore start index (subtree :: after)) :
    rightOf ⟨subtree, start, index⟩ cursor.frames =
      cursor.openedAll (start + subtree.length) (index + 1) after ++
        if cursor.isStop then [] else rightOf cursor.top cursor.below := by
  rw [← stands.next.children]
  rfl

theorem openedAll_append (cursor : TreeCursor) (start index : Nat) (first rest : List Subtree) :
    cursor.openedAll start index (first ++ rest) =
      cursor.openedAll start index first ++
        cursor.openedAll (start + Subtree.totalLength first) (index + first.length) rest := by
  induction first generalizing start index with
  | nil => rfl
  | cons child first induction =>
      rw [List.cons_append, openedAll, openedAll, induction, List.append_assoc,
        Subtree.totalLength_cons, List.length_cons, Nat.add_assoc, Nat.add_assoc, Nat.add_comm 1]

/-- The cursors on the exposed nodes that come before a position below a cursor's node, and before
the node itself, up to the nearest one that counts as a parent. -/
def leftUpTo (cursor : TreeCursor) (index : Nat) : List TreeCursor :=
  (if cursor.isStop then [] else leftOf cursor.top cursor.below) ++
    cursor.openedAll cursor.top.start 0 (cursor.top.subtree.children.take index)

theorem leftUpTo_next {start index : Nat} {subtree : Subtree} {after : List Subtree}
    (stands : cursor.StandsBefore start index (subtree :: after)) :
    cursor.leftUpTo (index + 1) = cursor.leftUpTo index ++ cursor.opened start index subtree := by
  have length : (cursor.top.subtree.children.take index).length = index := by
    have := (List.getElem?_eq_some_iff.1 stands.child?).1
    rw [List.length_take]
    omega
  rw [leftUpTo, List.take_add_one, stands.child?, openedAll_append, length, ← List.append_assoc,
    Nat.zero_add, ← stands.start]
  congr 1
  exact (List.append_nil _)

mutual

theorem opened_split : ∀ (subtree : Subtree) {cursor child : TreeCursor} {start index : Nat}
    {after : List Subtree} {left right : List TreeCursor},
    cursor.StandsBefore start index (subtree :: after) →
    cursor.opened start index subtree = left ++ child :: right →
    rightOf child.top child.below = right ++ rightOf ⟨subtree, start, index⟩ cursor.frames ∧
      leftOf child.top child.below = cursor.leftUpTo index ++ left
  | .mk data children, cursor, child, start, index, after, left, right, stands, split => by
      rw [opened] at split
      split at split
      · cases left with
        | nil =>
            obtain ⟨rfl, rfl⟩ := List.cons.inj split
            exact ⟨rfl, (List.append_nil _).symm⟩
        | cons first left => cases left <;> cases split
      · next hidden =>
        -- The row goes on beyond a hidden node, which is not where the cursor began.
        have inner := openedAll_split children (.all _) split
        have continues : isStop (cursor.down ⟨.mk data children, start, index⟩) = false :=
          isStop_down (eq_false_of_ne_true hidden)
        rw [leftUpTo, continues, List.take_zero] at inner
        rw [inner.1, inner.2]
        exact ⟨rfl, congrArg (· ++ left) (List.append_nil _)⟩

/-- The row of the cursors on the exposed nodes below a node is what lies to the left and to the
right of each of them, up to what lies to the left and to the right of the node. -/
theorem openedAll_split : ∀ (children : List Subtree) {cursor child : TreeCursor}
    {start index : Nat} {left right : List TreeCursor},
    cursor.StandsBefore start index children →
    cursor.openedAll start index children = left ++ child :: right →
    rightOf child.top child.below =
        right ++ (if cursor.isStop then [] else rightOf cursor.top cursor.below) ∧
      leftOf child.top child.below = cursor.leftUpTo index ++ left
  | [], cursor, child, start, index, left, right, stands, split => by
      cases left <;> cases split
  | subtree :: after, cursor, child, start, index, left, right, stands, split => by
      -- The child is below one of the later subtrees or at the top of the first one.
      rw [openedAll] at split
      rcases List.append_eq_append_iff.1 split with ⟨before, rfl, later⟩ | ⟨before, here, later⟩
      · rw [← List.append_assoc, ← leftUpTo_next stands]
        exact openedAll_split after stands.next later
      · cases before with
        | nil =>
            have beyond := @openedAll_split after _ child _ _ [] right stands.next later.symm
            rw [leftUpTo_next stands, here] at beyond
            simpa only [List.append_nil] using beyond
        | cons first rest =>
            obtain ⟨rfl, rfl⟩ := List.cons.inj (later.trans (List.cons_append ..))
            rw [List.append_assoc, ← rightOf_step stands]
            exact opened_split subtree stands here

end

end Rows

/-- What a cursor on an exposed node below another cursor's node has in common with all others on
such nodes: the way to it goes on from that node through hidden ones. -/
inductive Exposes : TreeCursor → TreeCursor → Prop
  /-- The exposed node is a child of the node itself. -/
  | here {cursor : TreeCursor} {start index : Nat} {subtree : Subtree} {after : List Subtree}
      (stands : cursor.StandsBefore start index (subtree :: after))
      (exposed : subtree.isExposed = true) :
      Exposes cursor (cursor.down ⟨subtree, start, index⟩)
  /-- It is below a hidden child. -/
  | through {cursor child : TreeCursor} {start index : Nat} {subtree : Subtree}
      {after : List Subtree} (stands : cursor.StandsBefore start index (subtree :: after))
      (hidden : subtree.isExposed = false)
      (inner : Exposes (cursor.down ⟨subtree, start, index⟩) child) : Exposes cursor child

mutual

theorem exposes_of_mem_opened : ∀ (subtree : Subtree) {cursor child : TreeCursor}
    {start index : Nat} {after : List Subtree},
    cursor.StandsBefore start index (subtree :: after) →
    child ∈ cursor.opened start index subtree → cursor.Exposes child
  | .mk data children, cursor, child, start, index, after, stands, member => by
      rw [opened] at member
      split at member
      · next exposed =>
        obtain rfl := List.mem_singleton.1 member
        exact .here stands exposed
      · next hidden =>
        exact .through stands (eq_false_of_ne_true hidden)
          (exposes_of_mem_openedAll children (.all _) member)

theorem exposes_of_mem_openedAll : ∀ (children : List Subtree) {cursor child : TreeCursor}
    {start index : Nat}, cursor.StandsBefore start index children →
    child ∈ cursor.openedAll start index children → cursor.Exposes child
  | [], _, _, _, _, _, member => absurd member List.not_mem_nil
  | subtree :: after, cursor, child, start, index, stands, member => by
      rcases List.mem_append.1 member with member | member
      · exact exposes_of_mem_opened subtree stands member
      · exact exposes_of_mem_openedAll after stands.next member

end

theorem exposes_of_mem_children {child : TreeCursor} (member : child ∈ cursor.children) :
    cursor.Exposes child :=
  exposes_of_mem_openedAll _ (.all cursor) member

theorem depth_down (cursor : TreeCursor) (frame : Frame) :
    (cursor.down frame).depth = cursor.depth + frame.subtree.isExposed.toNat := by
  change ((frame :: cursor.frames.dropLast).filter fun frame => frame.subtree.isExposed).length = _
  rw [List.filter_cons]
  cases frame.subtree.isExposed <;> rfl

theorem leave_down (cursor : TreeCursor) (frame : Frame) :
    (leave cursor.frames).run (cursor.down frame) =
      if cursor.isStop then ((), cursor) else (leave cursor.below).run cursor := by
  change StateT.run (if cursor.isStop then return else leave cursor.below) cursor = _
  cases cursor.isStop <;> rfl

theorem linked_down {start index : Nat} {subtree : Subtree} {after : List Subtree}
    (stands : cursor.StandsBefore start index (subtree :: after))
    (summed : cursor.top.subtree.Summed) (linked : Linked cursor.top cursor.below) :
    subtree.Summed ∧ Linked ⟨subtree, start, index⟩ cursor.frames :=
  ⟨summed.under _ (List.mem_of_getElem? stands.child?), summed.under, stands.start, linked⟩

namespace Exposes

variable {child : TreeCursor}

theorem isExposed (exposes : cursor.Exposes child) : child.top.subtree.isExposed = true := by
  induction exposes with
  | here _ exposed => exact exposed
  | through _ _ _ induction => exact induction

theorem depth_eq (exposes : cursor.Exposes child) : child.depth = cursor.depth + 1 := by
  induction exposes with
  | here _ exposed => exact (depth_down ..).trans (by rw [exposed]; rfl)
  | through _ hidden _ induction => exact induction.trans (by rw [depth_down, hidden]; rfl)

/-- From a child the way back leads to the nearest node that counts as a parent. -/
theorem leave_run (exposes : cursor.Exposes child) : child.below ≠ [] ∧
    (leave child.below).run child =
      if cursor.isStop then ((), cursor) else (leave cursor.below).run cursor := by
  induction exposes with
  | here _ _ => exact ⟨List.cons_ne_nil _ _, leave_down ..⟩
  | through _ hidden _ induction =>
      rw [isStop_down hidden] at induction
      exact ⟨induction.1, induction.2.trans (leave_down ..)⟩

theorem linked (exposes : cursor.Exposes child) (summed : cursor.top.subtree.Summed)
    (linked : Linked cursor.top cursor.below) :
    child.top.subtree.Summed ∧ Linked child.top child.below := by
  induction exposes with
  | here stands _ => exact linked_down stands summed linked
  | through stands _ _ induction =>
      obtain ⟨here, way⟩ := linked_down stands summed linked
      exact induction here way

end Exposes

mutual

theorem length_opened_le : ∀ (subtree : Subtree) (cursor : TreeCursor) (start index : Nat),
    (cursor.opened start index subtree).length ≤ subtree.count
  | .mk data children, cursor, start, index => by
      rw [opened, Subtree.count]
      split
      · exact Nat.le_add_left ..
      · exact (length_openedAll_le children _ start 0).trans (Nat.le_succ _)

theorem length_openedAll_le : ∀ (children : List Subtree) (cursor : TreeCursor)
    (start index : Nat), (cursor.openedAll start index children).length ≤ Subtree.countAll children
  | [], _, _, _ => Nat.le_refl 0
  | child :: after, cursor, start, index => by
      rw [openedAll, List.length_append, Subtree.countAll]
      exact Nat.add_le_add (length_opened_le child cursor start index)
        (length_openedAll_le after cursor _ _)

end

theorem length_children_lt (cursor : TreeCursor) :
    cursor.children.length < cursor.top.subtree.count := by
  rcases cursor with ⟨⟨⟨data, children⟩, start, index⟩, below⟩
  rw [Subtree.count]
  exact Nat.lt_succ_of_le (length_openedAll_le children _ start 0)

section Row

variable {child : TreeCursor} {left right : List TreeCursor}

/-- In the row of the children of a node that counts as a parent, what lies to the right of a child
and what lies to the left of it is the rest of the row. -/
theorem row_split (stops : cursor.isStop = true) (row : cursor.children = left ++ child :: right) :
    rightOf child.top child.below = right ∧ leftOf child.top child.below = left := by
  have split := openedAll_split _ (.all cursor) row
  rw [leftUpTo, stops] at split
  exact ⟨split.1.trans (List.append_nil _), split.2⟩

theorem gotoNextSibling_row (stops : cursor.isStop = true)
    (row : cursor.children = left ++ child :: right) :
    gotoNextSibling.run child = child.outcome right.head? := by
  rw [gotoNextSibling_run, (row_split stops row).1]

theorem gotoPreviousSibling_row (stops : cursor.isStop = true)
    (row : cursor.children = left ++ child :: right)
    (linked : Linked child.top child.below) :
    gotoPreviousSibling.run child = child.outcome left.getLast? := by
  rw [gotoPreviousSibling_run linked, (row_split stops row).2]

theorem gotoParent_row (stops : cursor.isStop = true)
    (row : cursor.children = left ++ child :: right) :
    gotoParent.run child = (true, cursor) := by
  have member : child ∈ cursor.children := by
    rw [row]
    exact List.mem_append_right left List.mem_cons_self
  obtain ⟨deeper, leaves⟩ := (exposes_of_mem_children member).leave_run
  rw [stops, if_pos rfl] at leaves
  change (!child.below.isEmpty, ((leave child.below).run child).2) = _
  rw [leaves, List.isEmpty_eq_false_iff.2 deeper]
  rfl

/-- Whether a cursor's node ends at an offset or before it. -/
def endsBy (byte : Nat) (cursor : TreeCursor) : Bool := cursor.node.stop ≤ byte

theorem seekByte_succ_run (byte index budget : Nat) (cursor : TreeCursor) :
    (seekByte byte index (budget + 1)).run cursor =
      if byte < cursor.node.stop then (some index, cursor)
      else
        match gotoNextSibling.run cursor with
        | (true, next) => (seekByte byte (index + 1) budget).run next
        | (false, same) => (none, (gotoParent.run same).2) := by
  change StateT.run (if byte < cursor.node.stop then return some index else do
    if ← gotoNextSibling then seekByte byte (index + 1) budget
    else
      let _ ← gotoParent
      return none) cursor = _
  split
  · rfl
  · change StateT.run (if (gotoNextSibling.run cursor).1 then seekByte byte (index + 1) budget else do
      let _ ← gotoParent
      return none) (gotoNextSibling.run cursor).2 = _
    rcases gotoNextSibling.run cursor with ⟨_ | _, next⟩ <;> rfl

/-- From a child on, the search for one that ends after an offset goes to the first such child of the
rest of the row, or back to the node if there is none. -/
theorem seekByte_run (stops : cursor.isStop = true) (byte : Nat) {budget : Nat}
    (row : cursor.children = left ++ child :: right) (enough : right.length < budget) :
    (seekByte byte left.length budget).run child =
      match (child :: right).dropWhile (endsBy byte) with
      | [] => (none, cursor)
      | found :: _ =>
        (some (left.length + ((child :: right).takeWhile (endsBy byte)).length), found) := by
  induction budget generalizing left child right with
  | zero => cases enough
  | succ budget induction =>
      by_cases early : endsBy byte child = true
      · have notAfter : ¬byte < child.node.stop := Nat.not_lt.2 (of_decide_eq_true early)
        rw [List.dropWhile_cons_of_pos early, List.takeWhile_cons_of_pos early,
          seekByte_succ_run, if_neg notAfter, gotoNextSibling_row stops row]
        cases right with
        | nil =>
            change (none, (gotoParent.run child).2) = _
            rw [gotoParent_row stops row]
            rfl
        | cons next right =>
            have rest : cursor.children = (left ++ [child]) ++ next :: right := by
              rw [row, List.append_assoc]
              rfl
            have found := induction rest (Nat.lt_of_succ_lt_succ enough)
            rw [List.length_append, List.length_singleton] at found
            refine found.trans ?_
            rw [List.length_cons, Nat.add_assoc, Nat.add_comm 1]
      · rw [List.dropWhile_cons_of_neg early, List.takeWhile_cons_of_neg early]
        have after : byte < child.node.stop :=
          Nat.lt_of_not_le fun less => early (decide_eq_true less)
        rw [seekByte_succ_run, if_pos after]
        rfl

end Row

/-- The search for the first child that ends after an offset finds it if there is one, and otherwise
the cursor is back where it was. -/
theorem gotoFirstChildForByte_run (stops : cursor.isStop = true) (byte : Nat) :
    (gotoFirstChildForByte byte).run cursor =
      match cursor.children.dropWhile (endsBy byte) with
      | [] => (none, cursor)
      | found :: _ => (some (cursor.children.takeWhile (endsBy byte)).length, found) := by
  have enough := length_children_lt cursor
  change StateT.run (if (gotoFirstChild.run cursor).1 then
    seekByte byte 0 cursor.top.subtree.count else return none) (gotoFirstChild.run cursor).2 = _
  rw [gotoFirstChild_run]
  cases row : cursor.children with
  | nil => rfl
  | cons child right =>
      rw [row, List.length_cons] at enough
      have found := @seekByte_run cursor child [] right stops byte _ row (Nat.lt_of_succ_lt enough)
      refine found.trans ?_
      rw [List.length_nil, Nat.zero_add]

end TreeCursor

end IncrementalGlr
