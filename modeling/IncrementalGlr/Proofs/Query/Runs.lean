import IncrementalGlr.Proofs.Walks
import IncrementalGlr.Query.Matching

/-!
# Runs of queries

Patterns are tried at the visible nodes in the order of the text, each time with the visible
siblings after the node.  A walk that passes over the nodes that do not touch a range, and over
everything below them, comes to exactly those of the places that touch the range, because whatever
is below a node lies inside its range.

A run of a query asks for one match at a time.  What it still owes is a list: the matches of the
patterns that are left at the current node, and after them the matches of all patterns at each place
to which the rest of its walk comes.  The next match is the first one of the list, and the run after
it owes the others.  So all matches together are those of the loop over places and patterns.
-/

namespace IncrementalGlr

/-! ## Places -/

/-- A node at which patterns are tried. -/
structure QueryPlace where
  /-- The node. -/
  node : Node
  /-- The visible ones among the nodes after it below the same parent. -/
  siblings : List Node

namespace NodeTree

/-- The nodes at the top of ordinary trees that are shown in trees. -/
def visibleNodes (trees : List NodeTree) : List Node :=
  (trees.map node).filter fun node => node.subtree.isVisible

mutual

/-- All nodes of an ordinary tree in the order of the text with the siblings after them; the trees
after this one below the same parent are given. -/
def places (after : List NodeTree) : NodeTree → List QueryPlace
  | .mk node children => ⟨node, visibleNodes after⟩ :: placesAll children

/-- All nodes of the ordinary trees below one parent with the siblings after them. -/
def placesAll : List NodeTree → List QueryPlace
  | [] => []
  | child :: after => child.places after ++ placesAll after

end

theorem exists_of_mem_placesAll {place : QueryPlace} {trees : List NodeTree}
    (member : place ∈ placesAll trees) : ∃ tree ∈ trees, ∃ after, place ∈ tree.places after := by
  induction trees with
  | nil => exact absurd member List.not_mem_nil
  | cons child after induction =>
      rcases List.mem_append.1 member with here | later
      · exact ⟨child, List.mem_cons_self, after, here⟩
      · obtain ⟨tree, among, there⟩ := induction later
        exact ⟨tree, List.mem_cons_of_mem child among, there⟩

end NodeTree

namespace TreeCursor

variable {cursor child : TreeCursor} {left right : List TreeCursor} {budget : Nat}

/-! ## Siblings -/

theorem siblingsWithin_row (stops : cursor.isStop = true)
    (row : cursor.children = left ++ child :: right) (enough : right.length ≤ budget) :
    child.siblingsWithin budget = right.map TreeCursor.node := by
  induction right generalizing left child budget with
  | nil =>
      have last : child.nextSibling? = none := nextSibling?_of_row stops row
      cases budget <;> simp [siblingsWithin, last]
  | cons next right induction =>
      obtain ⟨budget, rfl⟩ := Nat.exists_eq_succ_of_ne_zero (Nat.ne_zero_of_lt enough)
      have sibling : child.nextSibling? = some next := nextSibling?_of_row stops row
      simp only [siblingsWithin, sibling, List.map_cons]
      rw [induction (show cursor.children = (left ++ [child]) ++ next :: right by simp [row])
        (Nat.le_of_succ_le_succ enough)]

/-- The visible siblings collected at a child are those in the rest of the row. -/
theorem visibleSiblings_row (stops : cursor.isStop = true)
    (row : cursor.children = left ++ child :: right) :
    child.visibleSiblings = NodeTree.visibleNodes (right.map tree) := by
  have parent : child.parent? = some cursor := parent?_of_row stops row
  have enough : right.length ≤ child.breadth := by
    have fewer := length_children_lt cursor
    simp only [row, List.length_append, List.length_cons, breadth, parent] at fewer ⊢
    omega
  rw [visibleSiblings, siblingsWithin_row stops row enough, NodeTree.visibleNodes, List.map_map]
  rfl

end TreeCursor

/-! ## Places on tours -/

namespace Query

/-- A range that touches a node touches every node around it. -/
theorem touches_of_inside {outer inner : Node} {range : Span} (starts : outer.start ≤ inner.start)
    (stops : inner.stop ≤ outer.stop) (touching : touches inner.range range = true) :
    touches outer.range range = true := by
  rw [touches, decide_eq_true_eq] at touching ⊢
  simp only [Node.range] at touching ⊢
  omega

end Query

/-- Whether patterns are tried at a place: the node touches the range and is shown in trees. -/
def QueryPlace.isTried (range : Option Span) (place : QueryPlace) : Bool :=
  range.all (Query.touches place.node.range) && place.node.subtree.isVisible

namespace Walk

/-- Whether a walk has just entered a node that does not touch a range. -/
def isOutside (range : Option Span) (walk : Walk) : Bool :=
  match walk.event with
  | .enter node => !range.all (Query.touches node.range)
  | .leave _ => false

/-- The place to which a walk has come, if patterns are tried at the node it has just entered. -/
def place? (range : Option Span) (walk : Walk) : Option QueryPlace :=
  match walk.event with
  | .enter node => Option.guard (QueryPlace.isTried range) ⟨node, walk.cursor.visibleSiblings⟩
  | .leave _ => none

end Walk

namespace TreeCursor

variable {cursor : TreeCursor} {range : Option Span} {place : QueryPlace} {after : List NodeTree}

theorem exists_shows_of_mem_places (member : place ∈ cursor.tree.places after) :
    ∃ path, cursor.node.Shows path place.node := by
  induction cursor using children_induction generalizing after with
  | step cursor induction =>
      rw [tree_eq, NodeTree.places, List.mem_cons] at member
      rcases member with rfl | below
      · exact ⟨[], Node.shows_nil _⟩
      · obtain ⟨tree, among, later, there⟩ := NodeTree.exists_of_mem_placesAll below
        obtain ⟨child, childMember, rfl⟩ := List.mem_map.1 among
        obtain ⟨path, shows⟩ := induction child childMember there
        obtain ⟨above, has, -⟩ := (exposes_of_mem_children childMember).exists_hasChild
        exact ⟨above ++ path, has.shows shows⟩

/-- No patterns are tried below a node that does not touch the range. -/
theorem isTried_of_outside (tiled : cursor.node.subtree.Tiled)
    (outside : range.all (Query.touches cursor.node.range) = false)
    (member : place ∈ cursor.tree.places after) : place.isTried range = false := by
  obtain ⟨path, shows⟩ := exists_shows_of_mem_places member
  obtain ⟨starts, stops⟩ := Node.part_inside tiled shows.found
  cases range with
  | none => cases outside
  | some range =>
      refine Bool.eq_false_iff.2 fun tried => Bool.eq_false_iff.1 outside ?_
      exact Query.touches_of_inside starts stops (Bool.and_eq_true_iff.1 tried).1

/-- The tours of siblings come to the places of their trees if this is so for each of them. -/
theorem filterMap_place?_row {left right : List TreeCursor} (stops : cursor.isStop = true)
    (each : ∀ child ∈ cursor.children, ∀ after,
      child.visibleSiblings = NodeTree.visibleNodes after →
        (child.tour (Walk.isOutside range)).filterMap (Walk.place? range) =
          (child.tree.places after).filter (QueryPlace.isTried range))
    (row : cursor.children = left ++ right) :
    (right.flatMap (tour (Walk.isOutside range))).filterMap (Walk.place? range) =
      (NodeTree.placesAll (right.map tree)).filter (QueryPlace.isTried range) := by
  induction right generalizing left with
  | nil => rfl
  | cons child right induction =>
      rw [List.flatMap_cons, List.filterMap_append, List.map_cons, NodeTree.placesAll,
        List.filter_append, each child (by simp [row]) _ (visibleSiblings_row stops row),
        induction (show cursor.children = (left ++ [child]) ++ right by simp [row])]

/-- The places to which the tour of a node comes that passes over what does not touch a range are
those from the node down that touch it. -/
theorem filterMap_place?_tour (tiled : cursor.node.subtree.Tiled) (stops : cursor.isStop = true)
    (siblings : cursor.visibleSiblings = NodeTree.visibleNodes after) :
    (cursor.tour (Walk.isOutside range)).filterMap (Walk.place? range) =
      (cursor.tree.places after).filter (QueryPlace.isTried range) := by
  induction cursor using children_induction generalizing after with
  | step cursor induction =>
      have enters : (Walk.entered cursor).place? range =
          Option.guard (QueryPlace.isTried range) ⟨cursor.node, NodeTree.visibleNodes after⟩ :=
        congrArg (fun siblings => Option.guard _ (QueryPlace.mk cursor.node siblings)) siblings
      have skips : Walk.isOutside range (.entered cursor) =
          !range.all (Query.touches cursor.node.range) := rfl
      rw [tour_eq, tourAround, List.cons_append, List.filterMap_cons, enters, skips]
      cases outside : range.all (Query.touches cursor.node.range) with
      | false =>
          -- The nodes below are not entered, and the range does not touch them.
          have nowhere : (cursor.tree.places after).filter (QueryPlace.isTried range) = [] :=
            List.filter_eq_nil_iff.2 fun place member =>
              Bool.eq_false_iff.1 (isTried_of_outside tiled outside member)
          have here :
              QueryPlace.isTried range ⟨cursor.node, NodeTree.visibleNodes after⟩ = false := by
            simp [QueryPlace.isTried, outside]
          simp [nowhere, here, Option.guard, Walk.place?, Walk.left]
      | true =>
          have below := filterMap_place?_row stops
            (fun child member after siblings => by
              have exposes := exposes_of_mem_children member
              obtain ⟨place, has, -⟩ := exposes.exists_hasChild
              exact induction child member (Node.tiled_of_part tiled has.found) exposes.isStop
                siblings)
            (show cursor.children = [] ++ cursor.children from rfl)
          rw [tree_eq, NodeTree.places, List.filter_cons, ← below]
          cases tried : QueryPlace.isTried range ⟨cursor.node, NodeTree.visibleNodes after⟩ <;>
            simp [tried, Option.guard, Walk.place?, Walk.left]

end TreeCursor

/-! ## Matches at a place -/

/-- A pattern of one step does not look at the siblings. -/
theorem QueryPattern.matchAt?_of_single {pattern : QueryPattern}
    (single : pattern.rest.isEmpty = true) (text : Text) (node : Node)
    (siblings others : List Node) :
    pattern.matchAt? text node siblings = pattern.matchAt? text node others := by
  have nothing : pattern.rest = [] := List.isEmpty_iff.1 single
  simp only [matchAt?, search, nothing, Matching.sequence]

/-- The matches of patterns at a place, at most one for each; the number of the first pattern is
given. -/
def QueryPlace.matchesFrom (text : Text) (place : QueryPlace) (first : Nat)
    (patterns : List QueryPattern) : List QueryMatch :=
  (patterns.zipIdx first).filterMap fun (pattern, number) =>
    (pattern.matchAt? text place.node place.siblings).map (QueryMatch.mk number)

theorem QueryPlace.matchesFrom_cons (text : Text) (place : QueryPlace) (first : Nat)
    (pattern : QueryPattern) (patterns : List QueryPattern) :
    place.matchesFrom text first (pattern :: patterns) =
      ((pattern.matchAt? text place.node place.siblings).map (QueryMatch.mk first)).toList ++
        place.matchesFrom text (first + 1) patterns := by
  rw [QueryPlace.matchesFrom, List.zipIdx_cons, List.filterMap_cons]
  cases matched : pattern.matchAt? text place.node place.siblings <;>
    simp [matched, QueryPlace.matchesFrom]

namespace QueryRun

variable {text : Text} {run : QueryRun} {place : QueryPlace}

/-- Whether an answer is the first one of some matches, with a run after it that owes the others,
and there is no answer if there are no matches. -/
def Answers (Owes : QueryRun → List QueryMatch → Prop) (answer : Option (QueryMatch × QueryRun)) :
    List QueryMatch → Prop
  | [] => answer = none
  | found :: more => ∃ later, answer = some (found, later) ∧ Owes later more

theorem Answers.mono {Owes Other : QueryRun → List QueryMatch → Prop}
    {answer : Option (QueryMatch × QueryRun)} {owed : List QueryMatch}
    (answers : Answers Owes answer owed)
    (weaker : ∀ later more, Owes later more → Other later more) :
    Answers Other answer owed := by
  cases owed with
  | nil => exact answers
  | cons found more =>
      obtain ⟨later, gives, owes⟩ := answers
      exact ⟨later, gives, weaker later more owes⟩

/-- Whether the siblings at hand for a run are those at a place: the walk is there, and what has
been collected has been collected there. -/
structure StandsAt (run : QueryRun) (place : QueryPlace) : Prop where
  /-- They are what the walk would collect. -/
  walk : run.progress.visibleSiblings = place.siblings
  /-- They are what has been collected. -/
  collected : ∀ siblings ∈ run.siblings, siblings = place.siblings

/-- The run after a pattern has been tried. -/
def past (run : QueryRun) (pattern : QueryPattern) : QueryRun :=
  { run.prepare pattern with nextPattern := run.nextPattern + 1 }

theorem StandsAt.past (stands : run.StandsAt place) (pattern : QueryPattern) :
    (run.past pattern).StandsAt place ∧ (run.past pattern).progress = run.progress ∧
      (run.past pattern).current = run.current := by
  rw [QueryRun.past, prepare]
  split
  · exact ⟨⟨stands.walk, stands.collected⟩, rfl, rfl⟩
  · refine ⟨⟨stands.walk, ?_⟩, rfl, rfl⟩
    rintro _ ⟨rfl⟩
    cases collected : run.siblings with
    | none => exact stands.walk
    | some siblings => exact stands.collected siblings collected

theorem tryPatterns_cons (stands : run.StandsAt place) (pattern : QueryPattern)
    (patterns : List QueryPattern) :
    run.tryPatterns text place.node (pattern :: patterns) =
      match pattern.matchAt? text place.node place.siblings with
      | some captures => some (⟨run.nextPattern, captures⟩, run.past pattern)
      | none => (run.past pattern).tryPatterns text place.node patterns := by
  -- The siblings are given to patterns of several steps only.
  have same : pattern.matchAt? text place.node
      (if pattern.rest.isEmpty then [] else (run.prepare pattern).siblings.getD []) =
        pattern.matchAt? text place.node place.siblings := by
    cases single : pattern.rest.isEmpty with
    | true => exact pattern.matchAt?_of_single single ..
    | false =>
        have collected := (stands.past pattern).1.collected
        rw [QueryRun.past, prepare, single, if_neg Bool.false_ne_true] at collected
        rw [prepare, single, if_neg Bool.false_ne_true, if_neg Bool.false_ne_true, Option.getD_some,
          collected _ rfl]
  have number : (run.prepare pattern).nextPattern = run.nextPattern := by
    rw [prepare]
    split <;> rfl
  rw [tryPatterns, same, number]
  rfl

/-- The patterns that are left are tried up to the first one that matches. -/
theorem tryPatterns_answers (text : Text) (stands : run.StandsAt place)
    (patterns : List QueryPattern) :
    Answers (fun later more => later.StandsAt place ∧ later.progress = run.progress ∧
        later.current = run.current ∧ ∃ tried, later.nextPattern = run.nextPattern + tried ∧
          place.matchesFrom text later.nextPattern (patterns.drop tried) = more)
      (run.tryPatterns text place.node patterns)
      (place.matchesFrom text run.nextPattern patterns) := by
  induction patterns generalizing run with
  | nil => rfl
  | cons pattern patterns induction =>
      obtain ⟨later, progress, current⟩ := stands.past pattern
      rw [tryPatterns_cons stands, QueryPlace.matchesFrom_cons]
      cases pattern.matchAt? text place.node place.siblings with
      | some captures => exact ⟨_, rfl, later, progress, current, 1, rfl, rfl⟩
      | none =>
          refine (induction later).mono fun last more => ?_
          rintro ⟨stands, lastProgress, lastCurrent, tried, number, rest⟩
          exact ⟨stands, lastProgress.trans progress, lastCurrent.trans current, tried + 1,
            number.trans (Nat.add_right_comm ..), rest⟩

end QueryRun

/-! ## The next node -/

namespace Walk

variable {range : Option Span} {walk : Walk} {place : QueryPlace}

theorem of_place?_eq_some (found : walk.place? range = some place) :
    walk.cursor.visibleSiblings = place.siblings ∧ walk.isOutside range = false := by
  rcases walk with ⟨cursor, node | node⟩
  · obtain ⟨rfl, tried⟩ := Option.guard_eq_some_iff.1 found
    refine ⟨rfl, ?_⟩
    simp [isOutside, (Bool.and_eq_true_iff.1 tried).1]
  · cases found

end Walk

namespace WalkProgress

variable {range : Option Span} {progress : WalkProgress} {walk : Walk} {walks : List Walk}
  {skip : Bool} {budget : Nat}

theorem nextNode_succ (next : progress.next skip = underway walk) :
    progress.nextNode range skip (budget + 1) =
      match walk.place? range with
      | some place => (some place.node, underway walk)
      | none => (underway walk).nextNode range (walk.isOutside range) budget := by
  rw [nextNode, next]
  rcases walk with ⟨cursor, node | node⟩
  · cases touching : range.all (Query.touches node.range) <;>
      cases visible : node.subtree.isVisible <;>
        simp [Walk.place?, Walk.isOutside, QueryPlace.isTried, Option.guard, touching, visible]
  · rfl

/-- The next node at which patterns are tried is that of the first place to which the rest of the
walk comes. -/
theorem nextNode_eq (yields : progress.Yields (Walk.isOutside range) walks)
    (enough : walks.length ≤ budget) :
    match walks.filterMap (Walk.place? range) with
    | [] => (progress.nextNode range (progress.skips (Walk.isOutside range)) budget).1 = none
    | place :: more => ∃ walk later,
      progress.nextNode range (progress.skips (Walk.isOutside range)) budget =
        (some place.node, underway walk) ∧
      walk.cursor.visibleSiblings = place.siblings ∧ walk.isOutside range = false ∧
      (underway walk).Yields (Walk.isOutside range) later ∧ later.length < walks.length ∧
      later.filterMap (Walk.place? range) = more := by
  induction walks generalizing progress budget with
  | nil =>
      cases yields with
      | ends stops => cases budget <;> simp [nextNode, stops]
  | cons walk walks induction =>
      obtain ⟨budget, rfl⟩ := Nat.exists_eq_succ_of_ne_zero (Nat.ne_zero_of_lt enough)
      cases yields with
      | gives next rest =>
          rw [nextNode_succ next, List.filterMap_cons]
          cases found : walk.place? range with
          | some place =>
              obtain ⟨siblings, inside⟩ := Walk.of_place?_eq_some found
              exact ⟨walk, walks, rfl, siblings, inside, rest, Nat.lt_succ_self _, rfl⟩
          | none =>
              have further := induction rest (Nat.le_of_succ_le_succ enough)
              cases places : walks.filterMap (Walk.place? range) with
              | nil =>
                  rw [places] at further
                  exact further
              | cons place more =>
                  rw [places] at further
                  obtain ⟨next, later, goes, siblings, inside, yields, fewer, same⟩ := further
                  exact ⟨next, later, goes, siblings, inside, yields, Nat.lt_succ_of_lt fewer, same⟩

end WalkProgress

/-! ## Runs -/

/-- The matches of a query at the places to which a walk comes. -/
def Query.matchesOn (query : Query) (text : Text) (places : List QueryPlace) : List QueryMatch :=
  places.flatMap fun place => place.matchesFrom text 0 query.patterns

namespace QueryRun

variable {query : Query} {text : Text} {range : Option Span} {run : QueryRun} {walks : List Walk}
  {owed : List QueryMatch} {budget steps : Nat}

/-- Whether a run has still to give some matches; fewer events are left than a number says. -/
inductive Owes (query : Query) (text : Text) (range : Option Span) (steps : Nat) :
    QueryRun → List QueryMatch → Prop
  /-- It is to go on to the next node. -/
  | between {run : QueryRun} {walks : List Walk}
    (yields : run.progress.Yields (Walk.isOutside range) walks)
    (inside : run.progress.skips (Walk.isOutside range) = false) (few : walks.length < steps)
    (current : run.current = none) :
    Owes query text range steps run (query.matchesOn text (walks.filterMap (Walk.place? range)))
  /-- It is to try patterns at a node first. -/
  | here {run : QueryRun} {walks : List Walk} {place : QueryPlace}
    (yields : run.progress.Yields (Walk.isOutside range) walks)
    (inside : run.progress.skips (Walk.isOutside range) = false) (few : walks.length < steps)
    (current : run.current = some place.node) (stands : run.StandsAt place) :
    Owes query text range steps run
      (place.matchesFrom text run.nextPattern (query.patterns.drop run.nextPattern) ++
        query.matchesOn text (walks.filterMap (Walk.place? range)))

theorem Owes.mono {more : Nat} (owes : run.Owes query text range steps owed) (most : steps ≤ more) :
    run.Owes query text range more owed := by
  cases owes with
  | between yields inside few current => exact .between yields inside (few.trans_le most) current
  | here yields inside few current stands =>
      exact .here yields inside (few.trans_le most) current stands

/-- The next match is the first one that the run owes, and afterwards it owes the others. -/
theorem next?_answers (owes : run.Owes query text range budget owed) :
    Answers (Owes query text range budget) (run.next? query text range budget) owed := by
  induction budget generalizing run owed with
  | zero => cases owes <;> contradiction
  | succ budget induction =>
      -- Once no pattern is left at the current node, the run goes on to the next one.
      have goesOn {walks : List Walk} (yields : run.progress.Yields (Walk.isOutside range) walks)
          (inside : run.progress.skips (Walk.isOutside range) = false)
          (few : walks.length ≤ budget)
          (exhausted : (run.current.bind fun node =>
            run.tryPatterns text node (query.patterns.drop run.nextPattern)) = none) :
          Answers (Owes query text range (budget + 1)) (run.next? query text range (budget + 1))
            (query.matchesOn text (walks.filterMap (Walk.place? range))) := by
        have next := WalkProgress.nextNode_eq yields few
        rw [inside] at next
        rw [next?, exhausted]
        cases places : walks.filterMap (Walk.place? range) with
        | nil =>
            rw [places] at next
            obtain ⟨progress, nowhere⟩ : ∃ progress,
                run.progress.nextNode range false budget = (none, progress) :=
              ⟨_, Prod.ext next rfl⟩
            rw [nowhere]
            rfl
        | cons place more =>
            rw [places] at next
            obtain ⟨walk, later, goes, siblings, within, rest, fewer, rfl⟩ := next
            rw [goes]
            let there : QueryRun := atNode (.underway walk) (some place.node)
            have stands : there.StandsAt place := ⟨siblings, nofun⟩
            have owes : there.Owes query text range budget _ :=
              .here rest within (fewer.trans_le few) rfl stands
            exact (induction owes).mono fun _ _ owes => owes.mono (Nat.le_succ budget)
      cases owes with
      | between yields inside few current =>
          exact goesOn yields inside (Nat.le_of_lt_succ few) (by rw [current]; rfl)
      | @here walks place yields inside few current stands =>
          let patterns := query.patterns.drop run.nextPattern
          have answers := tryPatterns_answers text stands patterns
          cases left : place.matchesFrom text run.nextPattern patterns with
          | nil =>
              rw [left] at answers
              exact goesOn yields inside (Nat.le_of_lt_succ few) (by rw [current]; exact answers)
          | cons found more =>
              rw [left] at answers
              obtain ⟨later, gives, stillStands, progress, sameCurrent, tried, number, rfl⟩ :=
                answers
              refine ⟨later, ?_, ?_⟩
              · rw [next?, current, Option.bind_some, gives]
              · rw [List.drop_drop, ← number]
                rw [← progress] at yields inside
                exact .here yields inside few (sameCurrent.trans current) stillStands

/-- The matches collected from a run are those it owes. -/
theorem collect_eq (owes : run.Owes query text range steps owed) (enough : owed.length ≤ budget) :
    run.collect query text range steps budget = owed := by
  induction budget generalizing run owed with
  | zero => rw [List.eq_nil_of_length_eq_zero (Nat.le_zero.1 enough), collect]
  | succ budget induction =>
      have answers := next?_answers owes
      cases owed with
      | nil =>
          have nothing : run.next? query text range steps = none := answers
          rw [collect, nothing]
      | cons found more =>
          obtain ⟨later, gives, owesMore⟩ := answers
          rw [collect, gives]
          exact congrArg (found :: ·) (induction owesMore (Nat.le_of_succ_le_succ enough))

end QueryRun

/-! ## All matches -/

namespace Query

variable {text : Text} {range : Option Span}

theorem length_matchesOn_le (query : Query) (text : Text) (places : List QueryPlace) :
    (query.matchesOn text places).length ≤ places.length * query.patterns.length := by
  induction places with
  | nil => exact Nat.zero_le _
  | cons place places induction =>
      have here : (place.matchesFrom text 0 query.patterns).length ≤ query.patterns.length :=
        (List.length_filterMap_le ..).trans_eq List.length_zipIdx
      rw [matchesOn, List.flatMap_cons, List.length_append, List.length_cons, Nat.succ_mul,
        Nat.add_comm]
      exact Nat.add_le_add induction here

/-- A walk comes to at most one place for each subtree from its starting node down. -/
theorem length_places_le (range : Option Span) (cursor : TreeCursor) :
    ((cursor.tour (Walk.isOutside range)).filterMap (Walk.place? range)).length ≤
      cursor.top.subtree.count := by
  rw [List.length_filterMap_eq_countP, ← Nat.one_mul cursor.top.subtree.count]
  refine TreeCursor.countP_tour_le (fun cursor => ?_) _ cursor
  have leaves : ((Walk.left cursor).place? range).isSome = false := rfl
  rw [List.countP_cons, List.countP_singleton, leaves]
  cases ((Walk.entered cursor).place? range).isSome <;> simp

/-- The matches from a node down are those at the visible nodes that touch the range. -/
theorem matchesIn_eq (query : Query) {grammar : Grammar} {node : Node} (text : Text)
    (range : Option Span) (tiled : node.subtree.Tiled)
    (compatible : query.checksum = grammar.checksum) :
    query.matchesIn grammar node text range =
      query.matchesOn text ((node.flattened.places []).filter (QueryPlace.isTried range)) := by
  let cursor : TreeCursor := .ofNode node
  let run : QueryRun := .atNode (.ready node) none
  let walks := cursor.tour (Walk.isOutside range)
  have events : walks.length ≤ 2 * node.subtree.count :=
    TreeCursor.length_tour_le (Walk.isOutside range) cursor
  have places : walks.filterMap (Walk.place? range) =
      (node.flattened.places []).filter (QueryPlace.isTried range) :=
    TreeCursor.filterMap_place?_tour (show cursor.node.subtree.Tiled from tiled) rfl rfl
  have owes : run.Owes query text range (2 * node.subtree.count + 2)
      (query.matchesOn text (walks.filterMap (Walk.place? range))) :=
    .between (TreeCursor.yields_ofNode _ node) rfl (by omega) rfl
  have few : (query.matchesOn text (walks.filterMap (Walk.place? range))).length ≤
      node.subtree.count * query.patterns.length :=
    (query.length_matchesOn_le text _).trans
      (Nat.mul_le_mul_right query.patterns.length (length_places_le range cursor))
  rw [places] at owes few
  have same : (query.checksum == grammar.checksum) = true := beq_iff_eq.2 compatible
  rw [matchesIn, same, if_pos rfl]
  exact QueryRun.collect_eq owes (few.trans (Nat.le_succ _))

/-- The matches of the loop over the visible nodes from a node down in the order of the text and
over the patterns, each with the node at which the pattern is tried.  A pattern is tried against the
visible siblings after the node below the same parent, of which the starting node has none. -/
def located (query : Query) (text : Text) (node : Node) : List (Node × QueryMatch) :=
  ((node.flattened.places []).filter fun place => place.node.subtree.isVisible).flatMap
    fun place => (place.matchesFrom text 0 query.patterns).map (Prod.mk place.node)

theorem map_filter_located (query : Query) (text : Text) (node : Node) (touching : Node → Bool) :
    ((query.located text node).filter fun found => touching found.1).map Prod.snd =
      query.matchesOn text ((node.flattened.places []).filter fun place =>
        touching place.node && place.node.subtree.isVisible) := by
  rw [located, matchesOn, ← List.filter_filter]
  induction (node.flattened.places []).filter fun place => place.node.subtree.isVisible with
  | nil => rfl
  | cons place places induction =>
      rw [List.flatMap_cons, List.filter_append, List.map_append, induction, List.filter_map,
        List.filter_cons]
      cases touched : touching place.node <;> simp [Function.comp_def, touched]

/-- A run without a range gives all matches of the loop over nodes and patterns, and with a range it
gives those of them whose first node touches the range. -/
theorem matchesIn_range (query : Query) (grammar : Grammar) (node : Node) (text : Text)
    (tiled : node.subtree.Tiled) (compatible : query.checksum = grammar.checksum) :
    query.matchesIn grammar node text none = (query.located text node).map Prod.snd ∧
      ∀ range, query.matchesIn grammar node text (some range) =
        ((query.located text node).filter fun found => touches found.1.range range).map
          Prod.snd := by
  refine ⟨?_, fun range => ?_⟩
  · rw [matchesIn_eq query text none tiled compatible, ← List.filter_true (query.located text node)]
    exact (query.map_filter_located text node fun _ => true).symm
  · rw [matchesIn_eq query text (some range) tiled compatible]
    exact (query.map_filter_located text node fun node => touches node.range range).symm

/-- A query for a named node, and for a named node with any visible node after it. -/
def namedNodes : Query where
  patterns := [⟨.node .named [] [0], [], [], 0⟩, ⟨.node .named [] [0], [.node .any [] [1]], [], 0⟩]
  captureNames := ["first", "second"]
  checksum := (default : Grammar).checksum

/-- Only the first token has a visible node after it.  It does not touch the text of the last token,
but the nodes around that one do. -/
theorem matchesIn_range_touching :
    let root := SyntaxTree.touching.rootNode
    let numbers (found : QueryMatch) := (found.pattern, found.captures.map (·.node.subtree.id))
    root.subtree.Tiled ∧ namedNodes.checksum = (default : Grammar).checksum ∧
      (namedNodes.matchesIn default root (.ofString "abc") none).map numbers =
        [(0, [6]), (0, [0]), (1, [0, 4]), (0, [4]), (0, [3])] ∧
      (namedNodes.matchesIn default root (.ofString "abc") (some ⟨2, 3⟩)).map numbers =
        [(0, [6]), (0, [4]), (0, [3])] := by
  intro root numbers
  have tiled : root.subtree.Tiled := SyntaxTree.tiled_touching
  obtain ⟨all, touching⟩ := matchesIn_range namedNodes default root (.ofString "abc") tiled rfl
  refine ⟨tiled, rfl, ?_, ?_⟩
  · rw [all]
    decide
  · rw [touching]
    decide

end Query

end IncrementalGlr
