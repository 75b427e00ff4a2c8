import IncrementalGlr.Proofs.Cursor.Places
import IncrementalGlr.Tree.Search

/-!
# Parents and siblings

The search for a node goes over the nodes in the order of the text.  It enters every ancestor of the
node, because the range of an ancestor covers that of the node, and climbs out again of every node
before it that it has entered for another reason.  Nothing before the node stops it: no other node
is the same object at the same place, and none of them starts behind the end of the node.

In a tree in which no two nodes are the same object at the same place, the search for a node from
the root ends on the node.  So its parent is the nearest node above it, its siblings are those
beside it among the children of the parent, and the way from parent to parent ends at the root.
-/

namespace IncrementalGlr

namespace TreeCursor

/-- Whether a cursor is the next one past everything below another one: on its next sibling, or on
that of the nearest node above it that has one. -/
inductive Beyond : TreeCursor → TreeCursor → Prop
  /-- There is a next sibling. -/
  | sibling {cursor child next : TreeCursor} {left right : List TreeCursor}
      (stops : cursor.isStop = true) (row : cursor.children = left ++ child :: next :: right) :
      Beyond child next
  /-- There is none, and the next one is past the parent. -/
  | above {cursor child next : TreeCursor} {left : List TreeCursor}
      (stops : cursor.isStop = true) (row : cursor.children = left ++ [child])
      (further : Beyond cursor next) : Beyond child next

/-- Whether the search for a node gets from one cursor to another one in so many steps. -/
inductive Seeks (target : Node) : Nat → TreeCursor → TreeCursor → Prop
  /-- It is there already. -/
  | refl (cursor : TreeCursor) : Seeks target 0 cursor cursor
  /-- It goes on from a node that is not the one it looks for. -/
  | step {steps : Nat} {cursor next last : TreeCursor}
      (differs : cursor.node.same target = false) (notPast : cursor.node.start ≤ target.stop)
      (moves : (gotoNextPlace target).run cursor = (true, next))
      (rest : Seeks target steps next last) : Seeks target (steps + 1) cursor last

/-- Whether the search for a node neither ends at a cursor nor at one below it. -/
def Misses (target : Node) (cursor : TreeCursor) : Prop :=
  ∀ below, Relation.ReflTransGen Exposes cursor below →
    below.node.same target = false ∧ below.node.start ≤ target.stop

variable {target : Node} {cursor child next last found : TreeCursor}
  {left middle right : List TreeCursor} {steps more budget : Nat}

/-! ## Single moves -/

theorem Beyond.gotoNextBeyond_run (beyond : Beyond child next)
    (enough : child.below.length ≤ budget) :
    (gotoNextBeyond budget).run child = (true, next) := by
  induction beyond generalizing budget with
  | @sibling cursor child next left right stops row =>
      have deeper := (exposes_of_row row).below_lt
      obtain ⟨budget, rfl⟩ := Nat.exists_eq_succ_of_ne_zero (show budget ≠ 0 by omega)
      rw [gotoNextBeyond, StateT.run_bind, gotoNextSibling_row stops row]
      rfl
  | @above cursor child next left stops row further induction =>
      have deeper := (exposes_of_row row).below_lt
      obtain ⟨budget, rfl⟩ := Nat.exists_eq_succ_of_ne_zero (show budget ≠ 0 by omega)
      rw [gotoNextBeyond, StateT.run_bind, gotoNextSibling_row stops row]
      change StateT.run (gotoParent >>= _) child = _
      rw [StateT.run_bind, gotoParent_row stops row]
      exact induction (by omega)

/-- The search enters a node whose range covers that of the node it looks for. -/
theorem gotoNextPlace_enters (covers : cursor.node.range.covers target.range = true)
    (first : cursor.children.head? = some child) :
    (gotoNextPlace target).run cursor = (true, child) := by
  change StateT.run (if cursor.node.range.covers target.range then gotoFirstChild >>= _ else _)
    cursor = _
  rw [if_pos covers, StateT.run_bind, gotoFirstChild_run, first]
  rfl

/-- The search goes past a node that it does not enter. -/
theorem gotoNextPlace_passes
    (bare : cursor.node.range.covers target.range = true → cursor.children = [])
    (beyond : Beyond cursor next) : (gotoNextPlace target).run cursor = (true, next) := by
  have past := beyond.gotoNextBeyond_run le_rfl
  change StateT.run (if cursor.node.range.covers target.range then gotoFirstChild >>= _ else _)
    cursor = _
  cases covers : cursor.node.range.covers target.range with
  | true =>
      rw [if_pos rfl, StateT.run_bind, gotoFirstChild_run, bare covers]
      exact past
  | false => exact past

/-! ## Runs of the search -/

namespace Seeks

theorem single (differs : cursor.node.same target = false)
    (notPast : cursor.node.start ≤ target.stop)
    (moves : (gotoNextPlace target).run cursor = (true, next)) : Seeks target 1 cursor next :=
  .step differs notPast moves (.refl next)

theorem trans (first : Seeks target steps cursor next) (rest : Seeks target more next last) :
    Seeks target (steps + more) cursor last := by
  induction first with
  | refl => rwa [Nat.zero_add]
  | step differs notPast moves _ induction =>
      rw [Nat.add_right_comm]
      exact .step differs notPast moves (induction rest)

theorem gotoNode_run (seeks : Seeks target steps cursor last) (budget : Nat) :
    (gotoNode target (steps + budget)).run cursor = (gotoNode target budget).run last := by
  induction seeks with
  | refl => rw [Nat.zero_add]
  | @step steps cursor next last differs notPast moves _ induction =>
      rw [Nat.add_right_comm]
      change StateT.run (if cursor.node.same target then pure true
        else if target.stop < cursor.node.start then pure false
        else gotoNextPlace target >>= _) cursor = _
      rw [differs, if_neg Bool.false_ne_true, if_neg (Nat.not_lt.2 notPast), StateT.run_bind, moves]
      exact induction

end Seeks

theorem gotoNode_found (same : cursor.node.same target = true) (budget : Nat) :
    (gotoNode target (budget + 1)).run cursor = (true, cursor) := by
  change StateT.run (if cursor.node.same target then pure true else _) cursor = _
  rw [if_pos same]
  rfl

theorem Misses.under (misses : cursor.Misses target) (exposes : cursor.Exposes child) :
    child.Misses target :=
  fun below reached => misses below (.head exposes reached)

/-- In a row, the search gets from the first cursor of a stretch to the one after it if it gets past
each of them. -/
theorem seeks_along (stops : cursor.isStop = true)
    (row : cursor.children = left ++ middle ++ last :: right)
    (passes : ∀ child ∈ middle, ∀ next, Beyond child next →
      ∃ steps ≤ child.top.subtree.count, Seeks target steps child next) :
    ∃ first, (middle ++ [last]).head? = some first ∧
      ∃ steps ≤ (middle.map fun child => child.top.subtree.count).sum,
        Seeks target steps first last := by
  induction middle generalizing left with
  | nil => exact ⟨last, rfl, 0, le_rfl, .refl last⟩
  | cons child middle induction =>
      obtain ⟨passesChild, passesRest⟩ := List.forall_mem_cons.1 passes
      obtain ⟨next, isNext, more, fewer, rest⟩ :=
        induction (show cursor.children = left ++ [child] ++ middle ++ last :: right by simp [row])
          passesRest
      obtain ⟨later, same⟩ := List.head?_eq_some_iff.1 isNext
      have beyond : Beyond child next := by
        have split : cursor.children = left ++ child :: next :: (later ++ right) := by
          calc cursor.children
              = left ++ child :: (middle ++ [last]) ++ right := by simp [row]
            _ = left ++ child :: next :: (later ++ right) := by simp [same]
        exact .sibling stops split
      obtain ⟨steps, few, seeks⟩ := passesChild next beyond
      exact ⟨child, rfl, steps + more, by simpa using Nat.add_le_add few fewer, seeks.trans rest⟩

/-- The search gets past a cursor if it does not end there or below. -/
theorem Misses.seeks (misses : cursor.Misses target) (stops : cursor.isStop = true)
    (beyond : Beyond cursor next) :
    ∃ steps ≤ cursor.top.subtree.count, Seeks target steps cursor next := by
  induction size : cursor.top.subtree.count using Nat.strong_induction_on
    generalizing cursor next with
  | h size induction =>
      subst size
      have small := sum_count_children_lt cursor
      obtain ⟨differs, notPast⟩ := misses cursor .refl
      have passes : ∀ child ∈ cursor.children, ∀ next, Beyond child next →
          ∃ steps ≤ child.top.subtree.count, Seeks target steps child next := by
        intro child member next beyond
        have exposes := exposes_of_mem_children member
        exact induction _ exposes.count_lt (misses.under exposes) exposes.isStop beyond rfl
      by_cases bare : cursor.node.range.covers target.range = true → cursor.children = []
      · exact ⟨1, by omega, .single differs notPast (gotoNextPlace_passes bare beyond)⟩
      · obtain ⟨covers, occupied⟩ := Classical.not_imp.1 bare
        obtain ⟨first, child, row⟩ := (List.eq_nil_or_concat cursor.children).resolve_left occupied
        rw [List.concat_eq_append] at row
        rw [row, List.forall_mem_append] at passes
        rw [row] at small
        obtain ⟨head, isHead, steps, few, along⟩ :=
          seeks_along stops (show cursor.children = [] ++ first ++ [child] from row) passes.1
        obtain ⟨more, fewer, past⟩ := passes.2 child (List.mem_singleton_self _) next
          (.above stops row beyond)
        have enters := gotoNextPlace_enters covers (row ▸ isHead)
        have all := (Seeks.single differs notPast enters).trans (along.trans past)
        refine ⟨1 + (steps + more), ?_, all⟩
        simp only [List.map_append, List.map_cons, List.map_nil, List.sum_append, List.sum_cons,
          List.sum_nil] at small
        omega

section Finding

variable {other : TreeCursor}

/-- The search neither ends at nor below a child that comes before the one above the node, if every
cursor with the node stands at the same place. -/
theorem misses_of_before (tiled : cursor.node.subtree.Tiled) (first : cursor.Exposes other)
    (second : cursor.Exposes child) (before : ComesBefore other.path child.path)
    (reached : Relation.ReflTransGen Exposes child found)
    (alone : ∀ other, Relation.ReflTransGen Exposes cursor other →
      other.node.same found.node = true → other.path = found.path) :
    other.Misses found.node := by
  intro later further
  obtain ⟨place, hasOther, otherPath⟩ := first.exists_hasChild
  obtain ⟨above, has, childPath⟩ := second.exists_hasChild
  obtain ⟨rest, laterShows, laterPath⟩ := exists_shows further
  obtain ⟨below, foundShows, foundPath⟩ := exists_shows reached
  constructor
  · refine Bool.eq_false_iff.2 fun same => (before.append rest below).ne ?_
    rw [← laterPath, ← foundPath]
    exact alone later (.head first further) same
  · rw [otherPath, childPath] at before
    calc later.node.start
        ≤ later.node.stop := Nat.le_add_right ..
      _ ≤ other.node.stop :=
        (Node.part_inside (Node.tiled_of_part tiled hasOther.found) laterShows.found).2
      _ ≤ child.node.start :=
        Node.stop_le_start tiled hasOther.found has.found before.of_append_left
      _ ≤ found.node.start :=
        (Node.part_inside (Node.tiled_of_part tiled has.found) foundShows.found).1
      _ ≤ found.node.stop := Nat.le_add_right ..

/-- The search gets to a node below a cursor if every cursor there with such a node stands at the
same place. -/
theorem exists_seeks (tiled : cursor.node.subtree.Tiled) (stops : cursor.isStop = true)
    (reached : Relation.ReflTransGen Exposes cursor found)
    (alone : ∀ other, Relation.ReflTransGen Exposes cursor other →
      other.node.same found.node = true → other.path = found.path) :
    ∃ steps, steps + found.top.subtree.count ≤ cursor.top.subtree.count ∧
      Seeks found.node steps cursor found := by
  induction reached using Relation.ReflTransGen.head_induction_on with
  | refl => exact ⟨0, (Nat.zero_add _).le, .refl found⟩
  | @head cursor child exposes reached induction =>
      have small := sum_count_children_lt cursor
      obtain ⟨above, has, childPath⟩ := exposes.exists_hasChild
      obtain ⟨below, shows, foundPath⟩ := exists_shows reached
      obtain ⟨starts, ends⟩ := Node.part_inside tiled (has.shows shows).found
      -- The node is above the one looked for and so at another place.
      have differs : cursor.node.same found.node = false := by
        refine Bool.eq_false_iff.2 fun same => has.nonempty ?_
        have path : above = [] ∧ below = [] := by
          simpa [foundPath, childPath] using alone cursor .refl same
        exact path.1
      have covers : cursor.node.range.covers found.node.range = true :=
        Span.covers_iff.2 ⟨starts, ends⟩
      have notPast : cursor.node.start ≤ found.node.stop := starts.trans (Nat.le_add_right ..)
      obtain ⟨left, right, row⟩ := List.append_of_mem exposes.mem_children
      have order := cursor.pairwise_children
      rw [row, List.pairwise_append] at order
      rw [row, List.map_append, List.map_cons, List.sum_append, List.sum_cons] at small
      obtain ⟨head, isHead, steps, few, along⟩ := seeks_along stops
        (show cursor.children = [] ++ left ++ child :: right from row)
        fun other member next beyond => by
          have first : cursor.Exposes other := exposes_of_mem_children (by simp [row, member])
          have before := order.2.2 other member child List.mem_cons_self
          have misses := misses_of_before tiled first exposes before reached alone
          exact misses.seeks first.isStop beyond
      obtain ⟨more, fewer, rest⟩ := induction (Node.tiled_of_part tiled has.found) exposes.isStop
        fun other further => alone other (.head exposes further)
      have isFirst : cursor.children.head? = some head := by
        rw [row, ← isHead]
        simp
      have enters := gotoNextPlace_enters covers isFirst
      exact ⟨1 + (steps + more), by omega,
        (Seeks.single differs notPast enters).trans (along.trans rest)⟩

end Finding

end TreeCursor

/-! ## What stands around a node -/

/-- Whether a node is the nearest one that shows up above a place. -/
structure Node.NearestAbove (root : Node) (path above : List Nat) (parent : Node) : Prop where
  /-- It shows up. -/
  shows : root.Shows above parent
  /-- It is above the place. -/
  start : above <+: path
  /-- It is not at the place itself. -/
  proper : above ≠ path
  /-- Every other one above the place is above it as well. -/
  nearest : ∀ between other, root.Shows between other → between <+: path → between ≠ path →
    between <+: above

/-- A child is nearest to the node of which it is a child. -/
theorem Node.HasChild.nearestAbove {root parent child : Node} {above place : List Nat}
    (shows : root.Shows above parent) (has : parent.HasChild place child) :
    root.NearestAbove (above ++ place) above parent := by
  refine ⟨shows, List.prefix_append .., fun same => has.nonempty (by simpa using same), ?_⟩
  intro between other otherShows start proper
  rcases List.prefix_or_prefix_of_prefix start (List.prefix_append above place) with under | beyond
  · exact under
  · obtain ⟨rest, rfl⟩ := beyond
    by_cases nothing : rest = []
    · simp [nothing]
    -- Between the parent and the child every subtree is hidden.
    have exposed := otherShows.shown.resolve_left (by simp [nothing])
    obtain ⟨middle, found, last⟩ := part?_append_eq_some.1 otherShows.found
    obtain rfl := Option.some.inj (shows.found.symm.trans found)
    have hidden := has.hidden_between ((List.prefix_append_right_inj above).1 start)
      (fun same => proper (same ▸ rfl)) nothing last
    exact absurd exposed (Bool.eq_false_iff.1 hidden)

namespace TreeCursor

variable {cursor child : TreeCursor}

theorem isStop_of_reached (stops : cursor.isStop = true)
    (reached : Relation.ReflTransGen Exposes cursor child) : child.isStop = true := by
  cases reached with
  | refl => exact stops
  | tail _ exposes => exact exposes.isStop

theorem linked_of_reached (summed : cursor.top.subtree.Summed)
    (linked : Linked cursor.top cursor.below)
    (reached : Relation.ReflTransGen Exposes cursor child) :
    child.top.subtree.Summed ∧ Linked child.top child.below := by
  induction reached with
  | refl => exact ⟨summed, linked⟩
  | tail _ exposes induction => exact exposes.linked induction.1 induction.2

end TreeCursor

namespace SyntaxTree

/-- Whether no two nodes of a tree are the same object at the same place. -/
def NodesDiffer (tree : SyntaxTree) : Prop :=
  ∀ path place node other, tree.rootNode.Shows path node → tree.rootNode.Shows place other →
    node.same other = true → path = place

variable {tree : SyntaxTree} {node : Node} {path : List Nat}

theorem nodesDiffer_of_nodup (distinct : tree.root.ids.Nodup) : tree.NodesDiffer := by
  intro path place node other shows otherShows same
  obtain ⟨_, first, rfl⟩ := Option.map_eq_some_iff.1 shows.found
  obtain ⟨_, second, rfl⟩ := Option.map_eq_some_iff.1 otherShows.found
  refine Subtree.path_eq_of_id_eq distinct first second ?_
  simpa [Subtree.same] using (Bool.and_eq_true_iff.1 same).1

/-- The search for a node ends on the node within as many steps as there are subtrees. -/
theorem exists_cursorAt? (tiled : tree.root.Tiled) (differ : tree.NodesDiffer)
    (shows : tree.rootNode.Shows path node) :
    ∃ cursor, Relation.ReflTransGen TreeCursor.Exposes (.ofNode tree.rootNode) cursor ∧
      cursor.node = node ∧ cursor.path = path ∧
      (∀ budget, tree.root.count ≤ budget →
        (TreeCursor.gotoNode node budget).run (.ofNode tree.rootNode) = (true, cursor)) ∧
      tree.cursorAt? node = some cursor := by
  let root : TreeCursor := .ofNode tree.rootNode
  obtain ⟨cursor, reached, rfl, atPath⟩ :=
    TreeCursor.exists_reached (show root.node.Shows path node from shows)
  have rootTiled : root.node.subtree.Tiled := tiled
  obtain ⟨steps, few, seeks⟩ :=
    TreeCursor.exists_seeks rootTiled rfl reached fun other further same => by
      obtain ⟨place, otherShows, atPlace⟩ := TreeCursor.exists_shows further
      rw [atPath, atPlace, differ place path _ _ otherShows shows same]
  have positive : 0 < cursor.top.subtree.count := by
    rcases cursor.top.subtree with ⟨data, children⟩
    exact Nat.succ_pos _
  have lands : ∀ budget, tree.root.count ≤ budget →
      (TreeCursor.gotoNode cursor.node budget).run (.ofNode tree.rootNode) = (true, cursor) := by
    intro budget enough
    obtain ⟨rest, rfl⟩ : ∃ rest, budget = steps + (rest + 1) :=
      ⟨budget - steps - 1, by
        change steps + cursor.top.subtree.count ≤ tree.root.count at few
        omega⟩
    rw [seeks.gotoNode_run]
    exact TreeCursor.gotoNode_found (by simp [Node.same, Subtree.same]) rest
  refine ⟨cursor, reached, rfl, atPath, lands, ?_⟩
  rw [cursorAt?, TreeCursor.after?, lands _ le_rfl]
  rfl

theorem parent?_rootNode (tiled : tree.root.Tiled) (differ : tree.NodesDiffer) :
    tree.parent? tree.rootNode = none := by
  obtain ⟨cursor, reached, -, atPath, -, lands⟩ :=
    exists_cursorAt? tiled differ (Node.shows_nil tree.rootNode)
  obtain rfl | ⟨parent, above, exposes⟩ := reached.cases_tail
  · rw [parent?, lands]
    rfl
  · obtain ⟨place, has, atPlace⟩ := exposes.exists_hasChild
    rw [atPath] at atPlace
    exact absurd (List.append_eq_nil_iff.1 atPlace.symm).2 has.nonempty

/-- What stands around a node below the root. -/
theorem exists_surroundings (tiled : tree.root.Tiled) (differ : tree.NodesDiffer)
    (shows : tree.rootNode.Shows path node) (proper : path ≠ []) :
    ∃ above parent left right, tree.parent? node = some parent ∧
      tree.rootNode.NearestAbove path above parent ∧
      node.subtree.count < parent.subtree.count ∧
      parent.children = left ++ node :: right ∧ node ∉ left ∧ node ∉ right ∧
      tree.nextSibling? node = right.head? ∧ tree.previousSibling? node = left.getLast? := by
  obtain ⟨cursor, reached, rfl, atPath, -, lands⟩ := exists_cursorAt? tiled differ shows
  obtain rfl | ⟨parent, above, exposes⟩ := reached.cases_tail
  · exact absurd atPath.symm proper
  obtain ⟨abovePath, aboveShows, atAbove⟩ := TreeCursor.exists_shows above
  obtain ⟨place, has, atPlace⟩ := exposes.exists_hasChild
  obtain rfl : abovePath ++ place = path := by rw [← atPath, atPlace, atAbove]; rfl
  have stops : parent.isStop = true := TreeCursor.isStop_of_reached rfl above
  let root : TreeCursor := .ofNode tree.rootNode
  have summed : root.top.subtree.Summed := tiled.summed
  have way := (TreeCursor.linked_of_reached summed trivial reached).2
  obtain ⟨left, right, row⟩ := List.append_of_mem exposes.mem_children
  have order := parent.pairwise_children
  rw [row, List.pairwise_append, List.pairwise_cons] at order
  have alone : ∀ other ∈ left ++ right, other.node ≠ cursor.node := by
    intro other member same
    have otherExposes : parent.Exposes other := TreeCursor.exposes_of_mem_children <| by
      rw [row]
      simp only [List.mem_append, List.mem_cons] at member ⊢
      tauto
    obtain ⟨otherPath, otherShows, atOther⟩ := TreeCursor.exists_shows (above.tail otherExposes)
    have samePath : other.path = cursor.path := by
      have alike : other.node.same cursor.node = true := by simp [same, Node.same, Subtree.same]
      rw [atPath, atOther, differ _ _ _ _ otherShows shows alike]
      rfl
    rcases List.mem_append.1 member with before | behind
    · exact (order.2.2 other before cursor List.mem_cons_self).ne samePath
    · exact (order.2.1.1 other behind).ne samePath.symm
  refine ⟨abovePath, parent.node, left.map TreeCursor.node, right.map TreeCursor.node, ?_,
    has.nearestAbove aboveShows, exposes.count_lt, ?_, ?_, ?_, ?_, ?_⟩
  · rw [parent?, lands]
    change (do return (← cursor.parent?).node) = _
    rw [TreeCursor.parent?_of_row stops row]
    rfl
  · rw [← TreeCursor.map_node_children, row, List.map_append, List.map_cons]
  · simpa using fun other member => alone other (List.mem_append_left right member)
  · simpa using fun other member => alone other (List.mem_append_right left member)
  · rw [nextSibling?, lands]
    change (do return (← cursor.nextSibling?).node) = _
    rw [TreeCursor.nextSibling?_of_row stops row]
    cases right <;> rfl
  · rw [previousSibling?, lands]
    change (do return (← cursor.previousSibling?).node) = _
    rw [TreeCursor.previousSibling?_of_row stops row way, List.getLast?_map]
    cases left.getLast? <;> rfl

/-- From a node its ancestors lead from parent to parent to the root. -/
theorem ancestorsFrom_leads (tiled : tree.root.Tiled) (differ : tree.NodesDiffer)
    (shows : tree.rootNode.Shows path node) {budget : Nat}
    (enough : tree.root.count < budget + node.subtree.count) :
    ((tree.ancestorsFrom node budget).IsChain fun child parent =>
        tree.parent? child = some parent) ∧
      (tree.ancestorsFrom node budget).head? = some node ∧
      (tree.ancestorsFrom node budget).getLast? = some tree.rootNode := by
  induction budget generalizing node path with
  | zero =>
      have small : node.subtree.count ≤ tree.root.count := Node.count_part_le shows.found
      omega
  | succ budget induction =>
      by_cases isRoot : path = []
      · subst isRoot
        obtain rfl := Option.some.inj shows.found
        rw [ancestorsFrom]
        simp [parent?_rootNode tiled differ]
      · obtain ⟨above, parent, _, _, isParent, nearest, more, -⟩ :=
          exists_surroundings tiled differ shows isRoot
        obtain ⟨chain, first, last⟩ := induction nearest.shows (by omega)
        simp only [ancestorsFrom, isParent]
        obtain ⟨rest, row⟩ := List.head?_eq_some_iff.1 first
        rw [row] at chain last ⊢
        exact ⟨.cons_cons isParent chain, rfl, last⟩

/-- In a tree in which no two nodes are the same object at the same place, the search from the root
for a node below the root ends on the node.  The parent of the node is the nearest one that shows up
above it, and among the children of the parent its siblings are those beside it.  The way from
parent to parent ends at the root, which has no parent. -/
theorem surroundings_found (tiled : tree.root.Tiled) (differ : tree.NodesDiffer)
    (shows : tree.rootNode.Shows path node) (proper : path ≠ []) :
    (∃ cursor : TreeCursor, cursor.node = node ∧ cursor.path = path ∧
      ∀ budget, tree.root.count ≤ budget →
        (TreeCursor.gotoNode node budget).run (.ofNode tree.rootNode) = (true, cursor)) ∧
    (∃ above parent left right, tree.parent? node = some parent ∧
      tree.rootNode.NearestAbove path above parent ∧
      parent.children = left ++ node :: right ∧ node ∉ left ∧ node ∉ right ∧
      tree.nextSibling? node = right.head? ∧ tree.previousSibling? node = left.getLast?) ∧
    ((tree.ancestors node).IsChain fun child parent => tree.parent? child = some parent) ∧
      (tree.ancestors node).head? = some node ∧
      (tree.ancestors node).getLast? = some tree.rootNode ∧
      tree.parent? tree.rootNode = none := by
  obtain ⟨cursor, -, same, atPath, lands, -⟩ := exists_cursorAt? tiled differ shows
  obtain ⟨above, parent, left, right, isParent, nearest, -, row⟩ :=
    exists_surroundings tiled differ shows proper
  obtain ⟨chain, first, last⟩ := ancestorsFrom_leads tiled differ shows
    (show tree.root.count < tree.root.count + 1 + node.subtree.count by omega)
  exact ⟨⟨cursor, same, atPath, lands⟩, ⟨above, parent, left, right, isParent, nearest, row⟩,
    chain, first, last, parent?_rootNode tiled differ⟩

/-- Before the inner node the search comes to an empty token that begins at the same offset, and it
ends on the node all the same. -/
theorem surroundings_found_touching :
    ∃ inner, touching.root.Tiled ∧ touching.NodesDiffer ∧ touching.rootNode.Shows [1, 1] inner ∧
      (∃ above parent left right, touching.parent? inner = some parent ∧
        touching.rootNode.NearestAbove [1, 1] above parent ∧
        parent.children = left ++ inner :: right ∧
        touching.nextSibling? inner = right.head? ∧
        touching.previousSibling? inner = left.getLast?) ∧
      (touching.previousSibling? inner).map Node.range = some ⟨1, 1⟩ ∧
      inner.range = ⟨1, 3⟩ ∧ (touching.ancestors inner).getLast? = some touching.rootNode := by
  have differ : touching.NodesDiffer := nodesDiffer_of_nodup nodup_touching
  obtain ⟨inner, found⟩ : ∃ inner, touching.rootNode.part? [1, 1] = some inner := ⟨_, rfl⟩
  have shows : touching.rootNode.Shows [1, 1] inner := ⟨found, .inr (by cases found; decide)⟩
  obtain ⟨-, ⟨above, parent, left, right, isParent, nearest, row, -, -, next, previous⟩, -, -, last,
    -⟩ := surroundings_found tiled_touching differ shows (by decide)
  exact ⟨inner, tiled_touching, differ, shows,
    ⟨above, parent, left, right, isParent, nearest, row, next, previous⟩, by cases found; decide,
    by cases found; decide, last⟩

end SyntaxTree

end IncrementalGlr
