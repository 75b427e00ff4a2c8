import IncrementalGlr.Proofs.Cursor.Places
import IncrementalGlr.Proofs.Cursor.Zipper
import IncrementalGlr.Proofs.Differences.Counterparts
import IncrementalGlr.Tree.Walk
import Mathlib.Algebra.BigOperators.Ring.List
import Mathlib.Algebra.Order.BigOperators.Group.List

/-!
# Walks follow the tree

A tour is the list of the states of a walk from a node down: the node is entered, then comes the
tour of each child, unless the nodes below are skipped, and then the node is left.  A walk that
enters a node goes on its tour, whatever comes after it, and then goes on to the next sibling or
leaves the parent.  So the walk that begins at a node is the tour of the node.

The events of a walk are those of the recursion that enters a node, goes through its children and
leaves it, whatever nodes are skipped on the way.  So the text made from the events is the text that
the same recursion makes of the tree.
-/

namespace IncrementalGlr

/-! ## Tours -/

namespace TreeCursor

/-- The states of a walk that goes through others between entering and leaving a cursor's node,
unless they are skipped. -/
def tourAround (skip : Walk → Bool) (cursor : TreeCursor) (below : List Walk) : List Walk :=
  .entered cursor :: (if skip (.entered cursor) then [] else below) ++ [.left cursor]

mutual

/-- The tours of the exposed nodes at the top of a subtree, for a cursor on the node above it. -/
def toursAt (skip : Walk → Bool) (cursor : TreeCursor) (start index : Nat) : Subtree → List Walk
  | .mk data children =>
    let here := cursor.down ⟨.mk data children, start, index⟩
    let below := toursAll skip here start 0 children
    if here.top.subtree.isExposed then tourAround skip here below else below

/-- The tours of the exposed nodes at the top of subtrees that stand one after the other, for a
cursor on the node above them. -/
def toursAll (skip : Walk → Bool) (cursor : TreeCursor) (start index : Nat) :
    List Subtree → List Walk
  | [] => []
  | child :: after =>
    toursAt skip cursor start index child ++
      toursAll skip cursor (start + child.length) (index + 1) after

end

/-- The states of a walk from a cursor's node down. -/
def tour (skip : Walk → Bool) (cursor : TreeCursor) : List Walk :=
  tourAround skip cursor (toursAll skip cursor cursor.top.start 0 cursor.top.subtree.children)

mutual

theorem toursAt_eq (skip : Walk → Bool) : ∀ (subtree : Subtree) (cursor : TreeCursor)
    (start index : Nat),
    toursAt skip cursor start index subtree =
      (cursor.opened start index subtree).flatMap (tour skip)
  | .mk data children, cursor, start, index => by
      rw [toursAt, opened, apply_ite (List.flatMap (tour skip)),
        ← toursAll_eq skip children _ start 0, List.flatMap_singleton]
      rfl

theorem toursAll_eq (skip : Walk → Bool) : ∀ (children : List Subtree) (cursor : TreeCursor)
    (start index : Nat),
    toursAll skip cursor start index children =
      (cursor.openedAll start index children).flatMap (tour skip)
  | [], _, _, _ => rfl
  | child :: after, cursor, start, index => by
      rw [toursAll, openedAll, List.flatMap_append, toursAt_eq skip child,
        toursAll_eq skip after]

end

/-- Below a node there are the tours of its children. -/
theorem tour_eq (skip : Walk → Bool) (cursor : TreeCursor) :
    cursor.tour skip = tourAround skip cursor (cursor.children.flatMap (tour skip)) :=
  congrArg (tourAround skip cursor) (toursAll_eq skip _ cursor _ 0)

/-- What holds of a cursor if it holds of the cursors on its children holds of every cursor. -/
theorem children_induction {motive : TreeCursor → Prop}
    (step : ∀ cursor : TreeCursor, (∀ child ∈ cursor.children, motive child) → motive cursor)
    (cursor : TreeCursor) : motive cursor := by
  induction size : cursor.top.subtree.count using Nat.strong_induction_on generalizing cursor with
  | h size induction =>
      subst size
      exact step cursor fun child member =>
        induction _ (exposes_of_mem_children member).count_lt child rfl

/-- A tour has at most so many states of a kind for each subtree from the node down as there are
among the two of a node. -/
theorem countP_tour_le {kind : Walk → Bool} {most : Nat}
    (each : ∀ cursor, [Walk.entered cursor, .left cursor].countP kind ≤ most)
    (skip : Walk → Bool) (cursor : TreeCursor) :
    (cursor.tour skip).countP kind ≤ most * cursor.top.subtree.count := by
  induction cursor using children_induction with
  | step cursor induction =>
      have below : (cursor.children.flatMap (tour skip)).countP kind ≤
          most * (cursor.children.map fun child => child.top.subtree.count).sum := by
        rw [List.countP_flatMap, ← List.sum_map_mul_left]
        exact List.sum_le_sum induction
      calc (cursor.tour skip).countP kind
          ≤ [Walk.entered cursor, .left cursor].countP kind +
              (cursor.children.flatMap (tour skip)).countP kind := by
            rw [tour_eq, tourAround]
            split <;> simp only [List.countP_append, List.countP_cons, List.countP_nil] <;> omega
        _ ≤ most +
              most * (cursor.children.map fun child => child.top.subtree.count).sum :=
            Nat.add_le_add (each cursor) below
        _ = most * ((cursor.children.map fun child => child.top.subtree.count).sum + 1) := by
            rw [Nat.mul_add_one, Nat.add_comm]
        _ ≤ most * cursor.top.subtree.count :=
            Nat.mul_le_mul_left most (sum_count_children_lt cursor)

theorem length_tour_le (skip : Walk → Bool) (cursor : TreeCursor) :
    (cursor.tour skip).length ≤ 2 * cursor.top.subtree.count := by
  rw [← List.countP_true]
  exact countP_tour_le (fun _ => by simp) skip cursor

/-- The cursor stands at the node of the event. -/
theorem node_eq_of_mem_tour {skip : Walk → Bool} {cursor : TreeCursor} {walk : Walk}
    (member : walk ∈ cursor.tour skip) : walk.cursor.node = walk.event.node := by
  induction cursor using children_induction with
  | step cursor induction =>
      rw [tour_eq, tourAround, List.cons_append, List.mem_cons, List.mem_append,
        List.mem_singleton] at member
      rcases member with rfl | below | rfl
      · rfl
      · split at below
        · cases below
        · obtain ⟨child, childMember, below⟩ := List.mem_flatMap.1 below
          exact induction child childMember below
      · rfl

end TreeCursor

namespace WalkProgress

variable {walk : Walk}

/-- Whether the nodes below the one just entered are skipped, which depends on the latest event. -/
def skips (skip : Walk → Bool) : WalkProgress → Bool
  | underway walk => skip walk
  | _ => false

/-- Whether the events asked for from here on bring a walk to these states and then end. -/
inductive Yields (skip : Walk → Bool) : WalkProgress → List Walk → Prop
  /-- There are no more events. -/
  | ends {progress : WalkProgress} (stops : progress.next (progress.skips skip) = finished) :
      Yields skip progress []
  /-- There is another event. -/
  | gives {progress : WalkProgress} {walk : Walk} {walks : List Walk}
      (next : progress.next (progress.skips skip) = underway walk)
      (rest : Yields skip (underway walk) walks) : Yields skip progress (walk :: walks)

theorem next_eq_finished {skipped : Bool} :
    (underway walk).next skipped = finished ↔ walk.next? skipped = none := by
  rw [next]
  cases walk.next? skipped <;> simp

theorem next_eq_underway {later : Walk} {skipped : Bool} :
    (underway walk).next skipped = underway later ↔ walk.next? skipped = some later := by
  rw [next]
  cases walk.next? skipped <;> simp

end WalkProgress

namespace TreeCursor

open WalkProgress

variable {skip : Walk → Bool} {progress : WalkProgress} {cursor child next : TreeCursor}
  {left right : List TreeCursor} {walks : List Walk} {skipped : Bool}

theorem next_entered (row : cursor.children = child :: right) :
    (underway (.entered cursor)).next false = underway (.entered child) := by
  have first : cursor.firstChild? = some child := by
    rw [firstChild?_eq, row]
    rfl
  simp [WalkProgress.next, Walk.next?, Walk.entered, first]

theorem next_entered_of_bare (bare : skipped = false → cursor.children = []) :
    (underway (.entered cursor)).next skipped = underway (.left cursor) := by
  cases skipped with
  | true => rfl
  | false =>
      have first : cursor.firstChild? = none := by
        rw [firstChild?_eq, bare rfl]
        rfl
      simp [WalkProgress.next, Walk.next?, Walk.entered, Walk.left, first]

theorem next_left (stops : cursor.isStop = true)
    (row : cursor.children = left ++ child :: next :: right) :
    (underway (.left child)).next skipped = underway (.entered next) := by
  have away : child.below ≠ [] := (exposes_of_row row).leave_run.1
  have sibling : child.nextSibling? = some next := nextSibling?_of_row stops row
  simp [WalkProgress.next, Walk.next?, Walk.left, isAtRoot, away, sibling]

theorem next_left_of_last (stops : cursor.isStop = true)
    (row : cursor.children = left ++ [child]) :
    (underway (.left child)).next skipped = underway (.left cursor) := by
  have away : child.below ≠ [] := (exposes_of_row row).leave_run.1
  have sibling : child.nextSibling? = none := nextSibling?_of_row stops row
  have parent : child.parent? = some cursor := parent?_of_row stops row
  simp [WalkProgress.next, Walk.next?, Walk.left, isAtRoot, away, sibling, parent]

/-- In a row of siblings a walk goes from tour to tour and then leaves the parent. -/
theorem yields_row (stops : cursor.isStop = true)
    (each : ∀ child ∈ cursor.children, ∀ progress walks,
      progress.next (progress.skips skip) = underway (.entered child) →
        Yields skip (underway (.left child)) walks →
          Yields skip progress (child.tour skip ++ walks))
    (row : cursor.children = left ++ child :: right)
    (enters : progress.next (progress.skips skip) = underway (.entered child))
    (after : Yields skip (underway (.left cursor)) walks) :
    Yields skip progress ((child :: right).flatMap (tour skip) ++ .left cursor :: walks) := by
  induction right generalizing left child progress with
  | nil =>
      rw [List.flatMap_singleton]
      have leaves : Yields skip (underway (.left child)) (.left cursor :: walks) :=
        .gives (next_left_of_last stops row) after
      exact each child (by simp [row]) progress _ enters leaves
  | cons next right induction =>
      rw [List.flatMap_cons, List.append_assoc]
      exact each child (by simp [row]) progress _ enters
        (induction (show cursor.children = (left ++ [child]) ++ next :: right by simp [row])
          (next_left stops row))

/-- A walk that enters a node goes on its tour, and then on to what comes after leaving it. -/
theorem yields_tour (stops : cursor.isStop = true)
    (enters : progress.next (progress.skips skip) = underway (.entered cursor))
    (after : Yields skip (underway (.left cursor)) walks) :
    Yields skip progress (cursor.tour skip ++ walks) := by
  induction cursor using children_induction generalizing progress walks with
  | step cursor induction =>
      rw [tour_eq, tourAround, List.cons_append, List.cons_append, List.append_assoc]
      refine .gives enters ?_
      -- The node is left next if the nodes below are skipped or there are none.
      cases skipped : skip (.entered cursor) with
      | true => exact .gives (next_entered_of_bare (by simp [skips, skipped])) after
      | false =>
          cases row : cursor.children with
          | nil => exact .gives (next_entered_of_bare fun _ => row) after
          | cons child right =>
              let entered := underway (.entered cursor)
              have first : entered.next (entered.skips skip) = underway (.entered child) := by
                rw [skips, skipped]
                exact next_entered row
              refine yields_row stops (fun other member progress walks => ?_)
                (show cursor.children = [] ++ child :: right from row) first after
              exact induction other member (exposes_of_mem_children member).isStop

/-- The walk from a node down is the tour of the node. -/
theorem yields_ofNode (skip : Walk → Bool) (node : Node) :
    Yields skip (.ready node) ((ofNode node).tour skip) := by
  rw [← List.append_nil (tour ..)]
  exact yields_tour rfl rfl (.ends rfl)

end TreeCursor

/-! ## Events -/

namespace Subtree

mutual

/-- The events at the exposed nodes at the top of a subtree at the end of a path and at all exposed
nodes below them, in the order of the text.  Those below a node are left out if the path to the node
is to be skipped. -/
def events (skip : List Nat → Bool) (path : List Nat) (start : Nat) : Subtree → List WalkEvent
  | .mk data children =>
    let node : Node := ⟨.mk data children, start⟩
    let below := eventsAll skip path start 0 children
    if node.subtree.isExposed then
      .enter node :: (if skip path then [] else below) ++ [.leave node]
    else below

/-- The events at the exposed nodes from subtrees down that stand one after the other and are the
children from a position on below the end of a path. -/
def eventsAll (skip : List Nat → Bool) (path : List Nat) (start index : Nat) :
    List Subtree → List WalkEvent
  | [] => []
  | child :: after =>
    child.events skip (path ++ [index]) start ++
      eventsAll skip path (start + child.length) (index + 1) after

end

end Subtree

/-- The events of a walk from a node down: the node is entered, then come the events below it,
unless they are skipped, and then it is left. -/
def Node.events (skip : List Nat → Bool) (node : Node) : List WalkEvent :=
  .enter node ::
    (if skip [] then [] else Subtree.eventsAll skip [] node.start 0 node.subtree.children) ++
      [.leave node]

namespace TreeCursor

theorem map_event_tourAround (skip : List Nat → Bool) (cursor : TreeCursor) (below : List Walk) :
    (tourAround (fun walk => skip walk.cursor.path) cursor below).map Walk.event =
      .enter cursor.node :: (if skip cursor.path then [] else below.map Walk.event) ++
        [.leave cursor.node] := by
  rw [tourAround, List.map_append, List.map_cons, apply_ite (List.map Walk.event)]
  rfl

mutual

theorem map_event_toursAt (skip : List Nat → Bool) : ∀ (subtree : Subtree) (cursor : TreeCursor)
    (start index : Nat),
    (toursAt (fun walk => skip walk.cursor.path) cursor start index subtree).map Walk.event =
      subtree.events skip (cursor.path ++ [index]) start
  | .mk data children, cursor, start, index => by
      rw [toursAt, Subtree.events, apply_ite (List.map Walk.event), map_event_tourAround,
        map_event_toursAll skip children, path_down]
      rfl

theorem map_event_toursAll (skip : List Nat → Bool) : ∀ (children : List Subtree)
    (cursor : TreeCursor) (start index : Nat),
    (toursAll (fun walk => skip walk.cursor.path) cursor start index children).map Walk.event =
      Subtree.eventsAll skip cursor.path start index children
  | [], _, _, _ => rfl
  | child :: after, cursor, start, index => by
      rw [toursAll, Subtree.eventsAll, List.map_append, map_event_toursAt skip child,
        map_event_toursAll skip after]

end

/-- The events of the tour of a node are those of the node. -/
theorem map_event_tour (skip : List Nat → Bool) (node : Node) :
    ((ofNode node).tour fun walk => skip walk.cursor.path).map Walk.event = node.events skip := by
  rw [tour, map_event_tourAround, map_event_toursAll]
  rfl

end TreeCursor

/-! ## Matched events -/

namespace WalkEvent

/-- Whether each event at which a node is entered is matched by one after it at which the node is
left, and between them every event is matched by one between them. -/
inductive Matched : List WalkEvent → Prop
  /-- There are no events. -/
  | nil : Matched []
  /-- The first event is matched, and so are those before and after its match. -/
  | around (node : Node) {inner after : List WalkEvent} (within : Matched inner)
      (beyond : Matched after) : Matched (.enter node :: inner ++ .leave node :: after)

theorem Matched.append {first second : List WalkEvent} (matched : Matched first)
    (also : Matched second) : Matched (first ++ second) := by
  induction matched with
  | nil => exact also
  | around node within _ _ induction =>
      simpa using Matched.around node within induction

end WalkEvent

open WalkEvent (Matched)

mutual

theorem Subtree.matched_events (skip : List Nat → Bool) : ∀ (subtree : Subtree) (path : List Nat)
    (start : Nat), Matched (subtree.events skip path start)
  | .mk data children, path, start => by
      have below := Subtree.matched_eventsAll skip children path start 0
      rw [events]
      split
      · refine .around _ ?_ .nil
        split
        · exact .nil
        · exact below
      · exact below

theorem Subtree.matched_eventsAll (skip : List Nat → Bool) : ∀ (children : List Subtree)
    (path : List Nat) (start index : Nat),
    Matched (Subtree.eventsAll skip path start index children)
  | [], _, _, _ => .nil
  | child :: after, path, start, _ =>
      (Subtree.matched_events skip child _ start).append
        (Subtree.matched_eventsAll skip after path _ _)

end

/-! ## Rendering -/

namespace NodeTree

mutual

/-- The named nodes of an ordinary tree in nested parentheses.  Those that are not named are left
out with everything below them, but for the node at the top. -/
def render (grammar : Grammar) : NodeTree → String
  | .mk node children => "(" ++ node.kindName grammar ++ renderAll grammar children ++ ")"

/-- The named trees among others in nested parentheses, each one after a blank. -/
def renderAll (grammar : Grammar) : List NodeTree → String
  | [] => ""
  | child :: after =>
    (if child.node.isNamed then " " ++ child.render grammar else "") ++ renderAll grammar after

end

end NodeTree

namespace Walk

variable {α : Type} {skip : Node → Bool} {step : α → Walk → α} {value : α} {walk : Walk}
  {walks : List Walk} {budget : Nat}

theorem foldFrom_eq
    (yields : (WalkProgress.underway walk).Yields (fun walk => skip walk.event.node) walks)
    (enough : walks.length < budget) :
    foldFrom skip step value walk budget = (walk :: walks).foldl step value := by
  induction walks generalizing walk value budget with
  | nil =>
      obtain ⟨budget, rfl⟩ := Nat.exists_eq_succ_of_ne_zero (Nat.ne_zero_of_lt enough)
      cases yields with
      | ends stops =>
          have ended : walk.next? (skip walk.event.node) = none :=
            WalkProgress.next_eq_finished.1 stops
          simp [foldFrom, ended]
  | cons later walks induction =>
      obtain ⟨budget, rfl⟩ := Nat.exists_eq_succ_of_ne_zero (Nat.ne_zero_of_lt enough)
      cases yields with
      | gives next rest =>
          have goes : walk.next? (skip walk.event.node) = some later :=
            WalkProgress.next_eq_underway.1 next
          simp only [foldFrom, goes]
          exact induction rest (Nat.lt_of_succ_lt_succ enough)

/-- Folding over a walk is folding over the tour of its starting node. -/
theorem fold_eq (skip : Node → Bool) (step : α → Walk → α) (value : α) (node : Node) :
    fold skip step value node =
      ((TreeCursor.ofNode node).tour fun walk => skip walk.event.node).foldl step value := by
  have few := TreeCursor.length_tour_le (fun walk => skip walk.event.node) (.ofNode node)
  have yields := TreeCursor.yields_ofNode (fun walk => skip walk.event.node) node
  rw [TreeCursor.tour, TreeCursor.tourAround, List.cons_append] at few yields ⊢
  cases yields with
  | gives _ rest => exact foldFrom_eq rest few

end Walk

namespace Node

variable {root other : Node} {path : List Nat}

/-- Whether a node is shown in the text made of another one: it is that node, or it is named. -/
def isShown (root other : Node) : Bool := other.same root || other.isNamed

/-- The text made of a node so far, after another state of the walk. -/
def renderStep (grammar : Grammar) (root : Node) (output : String) (walk : Walk) : String :=
  match walk.event with
  | .enter other =>
    if !root.isShown other then output
    else (if other.same root then output else output.push ' ') ++ "(" ++ other.kindName grammar
  | .leave other => if root.isShown other then output.push ')' else output

theorem render_eq_foldl (grammar : Grammar) (node : Node) : node.render grammar =
    ((TreeCursor.ofNode node).tour fun walk => !node.isShown walk.event.node).foldl
      (renderStep grammar node) "" :=
  Walk.fold_eq (fun other => !node.isShown other) (renderStep grammar node) "" node

/-- No part of a node is the node itself. -/
theorem not_same_of_part (apart : root.subtree.ToldApart root.subtree)
    (found : root.part? path = some other) (proper : path ≠ []) : other.same root = false := by
  refine Bool.eq_false_iff.2 fun same => ?_
  obtain ⟨index, rest, rfl⟩ := List.exists_cons_of_ne_nil proper
  obtain ⟨between, first, later⟩ := part?_cons_eq_some.1 found
  have less := (count_part_le later).trans_lt (count_part_lt first)
  obtain ⟨place, there, rfl⟩ := Option.map_eq_some_iff.1 found
  have known : place.2 = root.subtree := apart _ _ _ [] 0 _ there rfl
    (by simpa [Subtree.same] using (Bool.and_eq_true_iff.1 same).1)
  simp [known] at less

end Node

namespace TreeCursor

variable {grammar : Grammar} {root : Node}

theorem tree_eq (cursor : TreeCursor) : cursor.tree = .mk cursor.node (cursor.children.map tree) :=
  (congrArg (NodeTree.mk cursor.node) (map_tree_children cursor)).symm

/-- Whether the text made at a cursor's node below the one at the top is that of its tree after a
blank, if the node is named, and otherwise there is none. -/
def RendersTree (grammar : Grammar) (root : Node) (cursor : TreeCursor) : Prop :=
  ∀ output : String,
    (cursor.tour fun walk => !root.isShown walk.event.node).foldl (root.renderStep grammar) output =
      output ++ if cursor.node.isNamed then " " ++ cursor.tree.render grammar else ""

/-- The text made at siblings is that of their trees if this is so at each of them. -/
theorem foldl_flatMap_tour {children : List TreeCursor}
    (each : ∀ child ∈ children, child.RendersTree grammar root) (output : String) :
    (children.flatMap (tour fun walk => !root.isShown walk.event.node)).foldl
        (root.renderStep grammar) output =
      output ++ NodeTree.renderAll grammar (children.map tree) := by
  induction children generalizing output with
  | nil => simp [NodeTree.renderAll]
  | cons child after induction =>
      rw [List.flatMap_cons, List.foldl_append, each child List.mem_cons_self,
        induction fun other member => each other (List.mem_cons_of_mem child member),
        List.map_cons, NodeTree.renderAll, String.append_assoc]
      rfl

/-- The text made at a node that is shown is that of its tree, after a blank unless the node is the
one at the top. -/
theorem foldl_tour_of_shown {cursor : TreeCursor} (shown : root.isShown cursor.node = true)
    (each : ∀ child ∈ cursor.children, child.RendersTree grammar root) (output : String) :
    (cursor.tour fun walk => !root.isShown walk.event.node).foldl (root.renderStep grammar) output =
      output ++ ((if cursor.node.same root then "" else " ") ++ cursor.tree.render grammar) := by
  have enters : root.renderStep grammar output (.entered cursor) =
      output ++ ((if cursor.node.same root then "" else " ") ++
        ("(" ++ cursor.node.kindName grammar)) := by
    simp only [Node.renderStep, Walk.entered, shown]
    cases cursor.node.same root <;> exact String.toList_injective (by simp)
  have leaves (text : String) : root.renderStep grammar text (.left cursor) = text ++ ")" := by
    simp only [Node.renderStep, Walk.left, shown]
    exact String.toList_injective (by simp)
  have enterShown : (!root.isShown (Walk.entered cursor).event.node) = false := by
    rw [Walk.entered, WalkEvent.node, shown]
    rfl
  rw [tour_eq, tourAround, enterShown, if_neg Bool.false_ne_true, tree_eq, NodeTree.render]
  simp only [List.foldl_append, List.foldl_cons, List.foldl_nil, enters, foldl_flatMap_tour each,
    leaves, String.append_assoc]

theorem rendersTree (cursor : TreeCursor)
    (below : ∀ path other, cursor.node.Shows path other → other.same root = false) :
    cursor.RendersTree grammar root := by
  induction cursor using children_induction with
  | step cursor induction =>
      intro output
      have differs : cursor.node.same root = false := below [] _ (Node.shows_nil _)
      cases named : cursor.node.isNamed with
      | false =>
          rw [tour_eq, tourAround]
          simp [Walk.entered, Walk.left, WalkEvent.node, Node.renderStep, Node.isShown, differs,
            named]
      | true =>
          have shown : root.isShown cursor.node = true := by simp [Node.isShown, named]
          rw [foldl_tour_of_shown shown ?_ output, differs]
          · rfl
          · intro child member
            obtain ⟨place, has, -⟩ := (exposes_of_mem_children member).exists_hasChild
            exact induction child member fun path node shows => below _ node (has.shows shows)

end TreeCursor

/-- The text made of a node is that of its tree if ids tell objects apart. -/
theorem Node.render_eq {node : Node} (apart : node.subtree.ToldApart node.subtree)
    (grammar : Grammar) : node.render grammar = node.flattened.render grammar := by
  have same : (TreeCursor.ofNode node).node.same node = true := by
    simp [Node.same, Subtree.same, TreeCursor.node, TreeCursor.ofNode, Frame.node]
  have shown : node.isShown (TreeCursor.ofNode node).node = true := by simp [isShown, same]
  rw [render_eq_foldl, TreeCursor.foldl_tour_of_shown shown ?_ ""]
  · rw [same, if_pos rfl, String.empty_append, String.empty_append]
    rfl
  · intro child member
    obtain ⟨place, has, -⟩ := (TreeCursor.exposes_of_mem_children member).exists_hasChild
    refine child.rendersTree fun path other shows => ?_
    exact not_same_of_part apart (has.shows shows).found (by simp [has.nonempty])

theorem Subtree.toldApart_of_nodup {subtree : Subtree} (distinct : subtree.ids.Nodup) :
    subtree.ToldApart subtree := by
  intro path offset part place within other first second same
  obtain rfl := path_eq_of_id_eq distinct first second same
  exact (Prod.mk.inj (Option.some.inj (first.symm.trans second))).2

/-- Whatever nodes are skipped, the events of the walk from a node down are those of the recursion
over the exposed nodes: the node is entered first and left last, and every event between is matched.
The cursor stands at the node of each event.  If ids tell objects apart, the text made of the node
is the one that the recursion over its tree makes, in which nodes that are not named are left out
with everything below them. -/
theorem Node.walk_follows_tree (node : Node) (skip : List Nat → Bool) (grammar : Grammar) :
    (∃ walks, (WalkProgress.ready node).Yields (fun walk => skip walk.cursor.path) walks ∧
      walks.map Walk.event = node.events skip ∧
      ∀ walk ∈ walks, walk.cursor.node = walk.event.node) ∧
    (∃ inner, node.events skip = .enter node :: inner ++ [.leave node] ∧ Matched inner) ∧
    (node.subtree.ToldApart node.subtree →
      node.render grammar = node.flattened.render grammar) := by
  refine ⟨⟨_, TreeCursor.yields_ofNode _ node, TreeCursor.map_event_tour skip node,
    fun walk member => TreeCursor.node_eq_of_mem_tour member⟩, ⟨_, rfl, ?_⟩,
    fun apart => render_eq apart grammar⟩
  split
  · exact .nil
  · exact Subtree.matched_eventsAll skip _ _ _ _

/-- The tokens of the inner node are passed over if it is skipped, and the hidden node above it is
never seen. -/
theorem Node.walk_follows_tree_touching :
    let root := SyntaxTree.touching.rootNode
    ∃ walks, root.subtree.ToldApart root.subtree ∧
      (WalkProgress.ready root).Yields (fun walk => walk.cursor.path == [1, 1]) walks ∧
      walks.map (fun walk => walk.event.node.subtree.id) = [6, 0, 0, 1, 1, 4, 4, 6] ∧
      root.render default = root.flattened.render default := by
  intro root
  have apart : root.subtree.ToldApart root.subtree :=
    Subtree.toldApart_of_nodup SyntaxTree.nodup_touching
  obtain ⟨⟨walks, yields, events, -⟩, -, text⟩ :=
    walk_follows_tree root (fun path => path == [1, 1]) default
  refine ⟨walks, apart, yields, ?_, text apart⟩
  have ids : (root.events fun path => path == [1, 1]).map (fun event => event.node.subtree.id) =
      [6, 0, 0, 1, 1, 4, 4, 6] := by decide
  rwa [← events, List.map_map] at ids

end IncrementalGlr
