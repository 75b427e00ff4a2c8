import IncrementalGlr.Proofs.Cursor.Siblings
import IncrementalGlr.Proofs.Nodes.Places
import Mathlib.Algebra.Order.Ring.Nat
import Mathlib.Logic.Relation

/-!
# Places of cursors

The positions on the way of a cursor are the path to its node.  The cursors on the children of a
node stand at the places of the children, in the order of the text, and there is a cursor for every
node that shows up below.
-/

namespace IncrementalGlr

namespace TreeCursor

/-- The positions among the children on the way to the current node from where the cursor began. -/
def path (cursor : TreeCursor) : List Nat := (cursor.frames.dropLast.map Frame.index).reverse

variable {cursor child other : TreeCursor} {node : Node} {place : List Nat}

theorem path_down (cursor : TreeCursor) (frame : Frame) :
    (cursor.down frame).path = cursor.path ++ [frame.index] :=
  List.reverse_cons

namespace StandsBefore

variable {start index : Nat} {subtree : Subtree} {after : List Subtree}

theorem part? (stands : cursor.StandsBefore start index (subtree :: after)) :
    cursor.node.part? [index] = some ⟨subtree, start⟩ :=
  Node.part?_singleton_eq_some.2 ⟨stands.child?, stands.start⟩

end StandsBefore

theorem standsBefore_of_part? {index : Nat} (found : cursor.node.part? [index] = some node) :
    cursor.StandsBefore node.start index
      (node.subtree :: cursor.top.subtree.children.drop (index + 1)) := by
  obtain ⟨there, start⟩ := Node.part?_singleton_eq_some.1 found
  refine ⟨?_, start⟩
  obtain ⟨inside, same⟩ := List.getElem?_eq_some_iff.1 there
  rw [← same]
  exact List.drop_eq_getElem_cons inside

theorem opened_of_exposed {subtree : Subtree} (exposed : subtree.isExposed = true)
    (cursor : TreeCursor) (start index : Nat) :
    cursor.opened start index subtree = [cursor.down ⟨subtree, start, index⟩] := by
  rcases subtree with ⟨data, children⟩
  rw [opened, if_pos (by exact exposed)]

theorem opened_of_hidden {subtree : Subtree} (hidden : subtree.isExposed = false)
    (cursor : TreeCursor) (start index : Nat) :
    cursor.opened start index subtree = (cursor.down ⟨subtree, start, index⟩).children := by
  rcases subtree with ⟨data, children⟩
  rw [opened, if_neg (by exact Bool.eq_false_iff.1 hidden)]
  rfl

theorem after?_eq {move : Move} {found : Option TreeCursor}
    (leads : move.run cursor = cursor.outcome found) : cursor.after? move = found := by
  rw [after?, leads]
  cases found <;> rfl

theorem firstChild?_eq (cursor : TreeCursor) : cursor.firstChild? = cursor.children.head? :=
  after?_eq (gotoFirstChild_run cursor)

section Row

variable {left right : List TreeCursor}

theorem exposes_of_row (row : cursor.children = left ++ child :: right) : cursor.Exposes child :=
  exposes_of_mem_children (by simp [row])

theorem nextSibling?_of_row (stops : cursor.isStop = true)
    (row : cursor.children = left ++ child :: right) : child.nextSibling? = right.head? :=
  after?_eq (gotoNextSibling_row stops row)

theorem previousSibling?_of_row (stops : cursor.isStop = true)
    (row : cursor.children = left ++ child :: right) (linked : Linked child.top child.below) :
    child.previousSibling? = left.getLast? :=
  after?_eq (gotoPreviousSibling_row stops row linked)

theorem parent?_of_row (stops : cursor.isStop = true)
    (row : cursor.children = left ++ child :: right) : child.parent? = some cursor := by
  rw [parent?, after?, gotoParent_row stops row]
  rfl

end Row

/-! ## Children -/

namespace Exposes

/-- A cursor on a child stands at the place of the child. -/
theorem exists_hasChild (exposes : cursor.Exposes child) :
    ∃ place, cursor.node.HasChild place child.node ∧ child.path = cursor.path ++ place := by
  induction exposes with
  | here stands exposed => exact ⟨_, .here stands.part? exposed, path_down ..⟩
  | @through cursor child start index subtree after stands hidden inner induction =>
      obtain ⟨place, has, same⟩ := induction
      refine ⟨index :: place, .through stands.part? hidden has, ?_⟩
      rw [same, path_down, List.append_assoc]
      rfl

theorem below_lt (exposes : cursor.Exposes child) :
    cursor.below.length < child.below.length := by
  induction exposes with
  | here => exact Nat.lt_succ_self _
  | through _ _ _ induction => exact (Nat.lt_succ_self _).trans induction

theorem isStop (exposes : cursor.Exposes child) : child.isStop = true :=
  Bool.or_eq_true_iff.2 (.inr exposes.isExposed)

theorem count_lt (exposes : cursor.Exposes child) :
    child.top.subtree.count < cursor.top.subtree.count := by
  obtain ⟨place, has, -⟩ := exposes.exists_hasChild
  exact has.count_lt

theorem mem_openedAll {start index : Nat} {subtree : Subtree} {after : List Subtree}
    (stands : cursor.StandsBefore start index (subtree :: after))
    (member : child ∈ cursor.opened start index subtree) : child ∈ cursor.children := by
  have split : cursor.top.subtree.children =
      cursor.top.subtree.children.take index ++ subtree :: after := by
    rw [← stands.children, List.take_append_drop]
  have length : (cursor.top.subtree.children.take index).length = index :=
    List.length_take_of_le (List.getElem?_eq_some_iff.1 stands.child?).1.le
  rw [children, split, openedAll_append, length, ← stands.start, Nat.zero_add, openedAll]
  exact List.mem_append_right _ (List.mem_append_left _ member)

theorem mem_children (exposes : cursor.Exposes child) : child ∈ cursor.children := by
  induction exposes with
  | here stands exposed =>
      refine mem_openedAll stands ?_
      rw [opened_of_exposed exposed]
      exact List.mem_singleton_self _
  | through stands hidden _ induction =>
      refine mem_openedAll stands ?_
      rwa [opened_of_hidden hidden]

end Exposes

/-- For every child there is a cursor at its place. -/
theorem exists_exposes (has : cursor.node.HasChild place node) :
    ∃ child, cursor.Exposes child ∧ child.node = node ∧ child.path = cursor.path ++ place := by
  generalize begins : cursor.node = parent at has
  induction has generalizing cursor with
  | @here parent node index found exposed =>
      subst begins
      exact ⟨_, .here (standsBefore_of_part? found) exposed, rfl, path_down ..⟩
  | @through parent hidden node index place found isHidden inner induction =>
      subst begins
      obtain ⟨child, exposes, same, path⟩ :=
        @induction (cursor.down ⟨hidden.subtree, hidden.start, index⟩) rfl
      refine ⟨child, .through (standsBefore_of_part? found) isHidden exposes, same, ?_⟩
      rw [path, path_down, List.append_assoc]
      rfl

mutual

theorem map_node_opened : ∀ (subtree : Subtree) (cursor : TreeCursor) (start index : Nat),
    (cursor.opened start index subtree).map TreeCursor.node = subtree.exposedNodes start
  | .mk data children, cursor, start, index => by
      rw [opened, Subtree.exposedNodes, apply_ite (List.map TreeCursor.node),
        map_node_openedAll children _ start 0]
      rfl

theorem map_node_openedAll : ∀ (children : List Subtree) (cursor : TreeCursor)
    (start index : Nat),
    (cursor.openedAll start index children).map TreeCursor.node =
      Subtree.exposedNodesAll start children
  | [], _, _, _ => rfl
  | child :: after, cursor, start, index => by
      rw [openedAll, List.map_append, map_node_opened child, map_node_openedAll after]
      rfl

end

/-- The nodes of the cursors on the children are the children. -/
theorem map_node_children (cursor : TreeCursor) :
    cursor.children.map TreeCursor.node = cursor.node.children :=
  map_node_openedAll cursor.top.subtree.children cursor cursor.top.start 0

mutual

theorem sum_count_opened_le : ∀ (subtree : Subtree) (cursor : TreeCursor) (start index : Nat),
    ((cursor.opened start index subtree).map fun child => child.top.subtree.count).sum ≤
      subtree.count
  | .mk data children, cursor, start, index => by
      rw [opened]
      split
      · simp [down]
      · exact (sum_count_openedAll_le children _ start 0).trans
          (by rw [Subtree.count]; exact Nat.le_succ _)

theorem sum_count_openedAll_le : ∀ (children : List Subtree) (cursor : TreeCursor)
    (start index : Nat),
    ((cursor.openedAll start index children).map fun child => child.top.subtree.count).sum ≤
      Subtree.countAll children
  | [], _, _, _ => Nat.le_refl 0
  | child :: after, cursor, start, index => by
      rw [openedAll, List.map_append, List.sum_append, Subtree.countAll]
      exact Nat.add_le_add (sum_count_opened_le child cursor start index)
        (sum_count_openedAll_le after cursor _ _)

end

/-- The children and all below them are fewer subtrees than the node and all below it. -/
theorem sum_count_children_lt (cursor : TreeCursor) :
    (cursor.children.map fun child => child.top.subtree.count).sum <
      cursor.top.subtree.count := by
  rcases cursor with ⟨⟨⟨data, children⟩, start, index⟩, below⟩
  rw [Subtree.count]
  exact Nat.lt_succ_of_le (sum_count_openedAll_le children _ start 0)

/-! ## Order -/

mutual

theorem path_of_mem_opened : ∀ (subtree : Subtree) {cursor : TreeCursor} {start index : Nat},
    child ∈ cursor.opened start index subtree →
      ∃ rest, child.path = cursor.path ++ index :: rest
  | .mk data children, cursor, start, index, member => by
      rw [opened] at member
      split at member
      · obtain rfl := List.mem_singleton.1 member
        exact ⟨[], path_down ..⟩
      · obtain ⟨place, rest, -, path⟩ := path_of_mem_openedAll children member
        exact ⟨place :: rest, by rw [path, path_down, List.append_assoc]; rfl⟩

theorem path_of_mem_openedAll : ∀ (children : List Subtree) {cursor : TreeCursor}
    {start index : Nat}, child ∈ cursor.openedAll start index children →
      ∃ place rest, index ≤ place ∧ child.path = cursor.path ++ place :: rest
  | [], _, _, _, member => absurd member List.not_mem_nil
  | first :: after, cursor, start, index, member => by
      rcases List.mem_append.1 member with member | member
      · obtain ⟨rest, path⟩ := path_of_mem_opened first member
        exact ⟨index, rest, le_rfl, path⟩
      · obtain ⟨place, rest, less, path⟩ := path_of_mem_openedAll after member
        exact ⟨place, rest, (Nat.le_succ index).trans less, path⟩

end

mutual

theorem pairwise_opened : ∀ (subtree : Subtree) (cursor : TreeCursor) (start index : Nat),
    (cursor.opened start index subtree).Pairwise fun left right =>
      ComesBefore left.path right.path
  | .mk data children, cursor, start, index => by
      rw [opened]
      split
      · exact List.pairwise_singleton _ _
      · exact pairwise_openedAll children _ start 0

theorem pairwise_openedAll : ∀ (children : List Subtree) (cursor : TreeCursor)
    (start index : Nat), (cursor.openedAll start index children).Pairwise fun left right =>
      ComesBefore left.path right.path
  | [], _, _, _ => .nil
  | child :: after, cursor, start, index => by
      refine List.pairwise_append.2 ⟨pairwise_opened child cursor start index,
        pairwise_openedAll after cursor _ _, fun left leftMember right rightMember => ?_⟩
      obtain ⟨rest, leftPath⟩ := path_of_mem_opened child leftMember
      obtain ⟨place, further, less, rightPath⟩ := path_of_mem_openedAll after rightMember
      rw [leftPath, rightPath]
      exact (ComesBefore.of_lt less rest further).under cursor.path

end

/-- The children come in the order of the text. -/
theorem pairwise_children (cursor : TreeCursor) :
    cursor.children.Pairwise fun left right => ComesBefore left.path right.path :=
  pairwise_openedAll cursor.top.subtree.children cursor cursor.top.start 0

/-! ## Nodes below -/

/-- A cursor that has gone from child to child is where its path leads. -/
theorem exists_shows (reached : Relation.ReflTransGen Exposes cursor other) :
    ∃ place, cursor.node.Shows place other.node ∧ other.path = cursor.path ++ place := by
  induction reached using Relation.ReflTransGen.head_induction_on with
  | refl => exact ⟨[], Node.shows_nil _, (List.append_nil _).symm⟩
  | head exposes _ induction =>
      obtain ⟨above, has, first⟩ := exposes.exists_hasChild
      obtain ⟨below, shows, rest⟩ := induction
      exact ⟨above ++ below, has.shows shows, by rw [rest, first, List.append_assoc]⟩

/-- For every node that shows up below there is a cursor that goes there from child to child. -/
theorem exists_reached (shows : cursor.node.Shows place node) :
    ∃ other, Relation.ReflTransGen Exposes cursor other ∧ other.node = node ∧
      other.path = cursor.path ++ place := by
  induction size : cursor.top.subtree.count using Nat.strong_induction_on
    generalizing cursor place with
  | h size induction =>
      subst size
      by_cases proper : place = []
      · subst proper
        exact ⟨cursor, .refl, Option.some.inj shows.found, (List.append_nil _).symm⟩
      · obtain ⟨above, below, child, rfl, has, later⟩ := shows.exists_child proper
        obtain ⟨middle, exposes, rfl, first⟩ := exists_exposes has
        obtain ⟨other, reached, same, rest⟩ := induction _ exposes.count_lt later rfl
        exact ⟨other, .head exposes reached, same, by rw [rest, first, List.append_assoc]⟩

end TreeCursor

end IncrementalGlr
