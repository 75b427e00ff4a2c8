import IncrementalGlr.Pattern.Search
import IncrementalGlr.Query.Basic
import IncrementalGlr.Tree.Walk

/-!
# Matching patterns

A pattern is matched by a search that tries the ways of matching in order and goes back when one
fails.  Each step is told how the search goes on after it.  A step is matched somewhere among the
siblings that are left, and what follows goes on with the siblings after it.  The captured nodes
are kept in one list, and a node that turns out not to match is taken off it again.
-/

namespace IncrementalGlr

/-- A node recorded under a capture. -/
structure QueryCapture where
  /-- The number of the capture. -/
  index : Nat
  /-- The node. -/
  node : Node
  deriving Inhabited

/-- A match of a pattern. -/
structure QueryMatch where
  /-- The number of the pattern. -/
  pattern : Nat
  /-- The captured nodes in the order in which they were matched. -/
  captures : List QueryCapture
  deriving Inhabited

namespace QueryMatch

/-- The nodes recorded under a capture. -/
def nodesFor (found : QueryMatch) (index : Nat) : List Node :=
  (found.captures.filter fun capture => capture.index == index).map QueryCapture.node

end QueryMatch

namespace NodeTest

/-- Whether a node passes the test. -/
def accepts (node : Node) : NodeTest → Bool
  | kind symbol => node.subtree.symbol = symbol
  | named => node.isNamed
  | any => true

end NodeTest

namespace Node

/-- The children that are shown in trees. -/
def visibleChildren (node : Node) : List Node :=
  node.children.filter fun child => child.subtree.isVisible

end Node

namespace Matching

/-- A search changes the list of the nodes captured so far and says whether it has succeeded. -/
abbrev Search : Type := StateM (List QueryCapture) Bool

/-- How a search goes on with the siblings that are left. -/
abbrev Continuation : Type := List Node → Search

/-- The second of two searches is tried if the first one fails. -/
def either (first second : Search) : Search := do
  if ← first then return true else second

/-- A search with more captured nodes, which are taken back if it fails. -/
def capturing (captured : List QueryCapture) (search : Search) : Search := do
  let mark := (← get).length
  modify (· ++ captured)
  let matched ← search
  if !matched then modify (List.take mark)
  return matched

/-- Tries the nodes of a list, each with the nodes after it, up to the first success. -/
def tryEach (attempt : Node → Continuation) : Continuation
  | [] => return false
  | node :: rest => either (attempt node rest) (tryEach attempt rest)

/-- Matches a step as often as possible, at most as often as the budget says, and at least one
sibling further each time. -/
def repeatWithin (once : List Node → Continuation → Search) (next : Continuation) :
    Nat → Continuation
  | 0, nodes => next nodes
  | budget + 1, nodes =>
    either
      (if nodes.isEmpty then return false
      else
        once nodes fun rest =>
          if rest.length < nodes.length then repeatWithin once next budget rest else return false)
      (next nodes)

mutual

/-- Matches a step among siblings. -/
def step (nodes : List Node) (next : Continuation) : QueryStep → Search
  | .node test children names =>
    tryEach
      (fun node rest =>
        if !test.accepts node then return false
        else
          capturing (names.map fun index => ⟨index, node⟩) <|
            if children.isEmpty then next rest
            else sequence node.visibleChildren (fun _ => next rest) children)
      nodes
  | .alternation alternatives => anyOf nodes next alternatives
  | .group items => sequence nodes next items
  | .repetition inner .optional => either (step nodes next inner) (next nodes)
  | .repetition inner .many =>
    repeatWithin (fun nodes next => step nodes next inner) next nodes.length nodes
  | .repetition inner .atLeastOne =>
    step nodes
      (fun rest => repeatWithin (fun nodes next => step nodes next inner) next rest.length rest)
      inner

/-- Matches steps one after the other among siblings. -/
def sequence (nodes : List Node) (next : Continuation) : List QueryStep → Search
  | [] => next nodes
  | first :: rest => step nodes (fun nodes => sequence nodes next rest) first

/-- Matches the first of several steps that leads to success. -/
def anyOf (nodes : List Node) (next : Continuation) : List QueryStep → Search
  | [] => return false
  | first :: rest => either (step nodes next first) (anyOf nodes next rest)

end

end Matching

namespace Predicate

/-- The texts of the nodes recorded under a capture. -/
def texts (text : Text) (captures : List QueryCapture) (index : Nat) : List Text :=
  (captures.filter fun capture => capture.index == index).map fun capture =>
    capture.node.text text

/-- Whether the predicate holds.  Every node recorded under the tested capture has to pass; two
captures are compared by their first nodes, if both have one. -/
def holds (text : Text) (captures : List QueryCapture) : Predicate → Bool
  | equal capture (.text expected) negated =>
    (texts text captures capture).all fun found =>
      (found.bytes == (Text.ofString expected).bytes) != negated
  | equal capture (.capture other) negated =>
    match texts text captures capture, texts text captures other with
    | left :: _, right :: _ => (left.bytes == right.bytes) != negated
    | _, _ => true
  | found capture pattern negated =>
    (texts text captures capture).all fun found =>
      pattern.isFoundIn found.decode.toList != negated

end Predicate

namespace QueryPattern

/-- Searches for the first step at a node and for the other steps among the siblings after it. -/
def search (pattern : QueryPattern) (text : Text) (node : Node) (siblings : List Node) :
    Matching.Search :=
  Matching.step [node]
    (fun _ =>
      Matching.sequence siblings
        (fun _ => return pattern.predicates.all (Predicate.holds text (← get)))
        pattern.rest)
    pattern.first

/-- The nodes captured where the pattern matches a node and the siblings after it. -/
def matchAt? (pattern : QueryPattern) (text : Text) (node : Node) (siblings : List Node) :
    Option (List QueryCapture) :=
  let (matched, captures) := (pattern.search text node siblings).run []
  if matched then some captures else none

end QueryPattern

namespace TreeCursor

/-- The nodes after the cursor's node below the same parent, at most as many as the budget says. -/
def siblingsWithin (cursor : TreeCursor) : Nat → List Node
  | 0 => []
  | budget + 1 =>
    match cursor.nextSibling? with
    | some next => next.node :: next.siblingsWithin budget
    | none => []

/-- The number of subtrees below the parent of the cursor's node. -/
def breadth (cursor : TreeCursor) : Nat :=
  match cursor.parent? with
  | some parent => parent.top.subtree.count
  | none => 0

/-- The nodes after the cursor's node below the same parent that are shown in trees. -/
def visibleSiblings (cursor : TreeCursor) : List Node :=
  (cursor.siblingsWithin cursor.breadth).filter fun node => node.subtree.isVisible

end TreeCursor

namespace Query

/-- Whether two ranges have an offset or an end in common. -/
def touches (left right : Span) : Bool :=
  max left.start right.start ≤ min left.stop right.stop

end Query

namespace WalkProgress

/-- The nodes after the node of the latest event below the same parent that are shown in trees. -/
def visibleSiblings : WalkProgress → List Node
  | underway walk => walk.cursor.visibleSiblings
  | _ => []

/-- Goes on to the next node that is entered, touches the range and is shown in trees, at most over
as many events as the budget says.  The nodes below a node that does not touch the range are passed
over, and `skip` passes over those below the node just entered. -/
def nextNode (range : Option Span) (progress : WalkProgress) (skip : Bool) :
    Nat → Option Node × WalkProgress
  | 0 => (none, progress)
  | budget + 1 =>
    match progress.next skip with
    | underway walk =>
      match walk.event with
      | .enter node =>
        if range.all (Query.touches node.range) then
          if node.subtree.isVisible then (some node, underway walk)
          else (underway walk).nextNode range false budget
        else (underway walk).nextNode range true budget
      | .leave _ => (underway walk).nextNode range false budget
    | ended => (none, ended)

end WalkProgress

/-- A run of a query over the nodes of a tree, between two matches. -/
structure QueryRun where
  /-- The walk over the nodes. -/
  progress : WalkProgress
  /-- The node at which patterns are tried. -/
  current : Option Node
  /-- The visible siblings after that node, once a pattern has asked for them. -/
  siblings : Option (List Node)
  /-- The number of the pattern that is tried next. -/
  nextPattern : Nat

namespace QueryRun

/-- The run that tries the first pattern at a node next. -/
def atNode (progress : WalkProgress) (current : Option Node) : QueryRun where
  progress
  current
  siblings := none
  nextPattern := 0

/-- The run with the siblings that a pattern asks for.  They are collected once, from the node of
the walk, and a pattern of one step does not ask for them. -/
def prepare (run : QueryRun) (pattern : QueryPattern) : QueryRun :=
  if pattern.rest.isEmpty then run
  else { run with siblings := some (run.siblings.getD run.progress.visibleSiblings) }

/-- Tries patterns at a node, of which the first one has the number that is next, up to the first
one that matches. -/
def tryPatterns (text : Text) (node : Node) (run : QueryRun) :
    List QueryPattern → Option (QueryMatch × QueryRun)
  | [] => none
  | pattern :: rest =>
    let run := run.prepare pattern
    let siblings := if pattern.rest.isEmpty then [] else run.siblings.getD []
    let later := { run with nextPattern := run.nextPattern + 1 }
    match pattern.matchAt? text node siblings with
    | some captures => some (⟨run.nextPattern, captures⟩, later)
    | none => later.tryPatterns text node rest

/-- The next match and the run after it.  The run goes over as many nodes as the budget says. -/
def next? (query : Query) (text : Text) (range : Option Span) (run : QueryRun) :
    Nat → Option (QueryMatch × QueryRun)
  | 0 => none
  | budget + 1 =>
    match run.current.bind fun node =>
      run.tryPatterns text node (query.patterns.drop run.nextPattern) with
    | some found => some found
    | none =>
      match run.progress.nextNode range false budget with
      | (some node, progress) => (atNode progress node).next? query text range budget
      | (none, _) => none

/-- The matches from a run on, at most as many as the budget says; `steps` is the budget of each. -/
def collect (query : Query) (text : Text) (range : Option Span) (steps : Nat) (run : QueryRun) :
    Nat → List QueryMatch
  | 0 => []
  | budget + 1 =>
    match run.next? query text range steps with
    | some (found, later) => found :: later.collect query text range steps budget
    | none => []

end QueryRun

namespace Query

/-- The matches at the nodes from a node down, in the order of the nodes and then of the patterns.
With a range, only nodes that touch it are looked at.  Trees of a grammar with another checksum
have no matches.  There are two events for each node of the walk and at most one match for each node
and pattern. -/
def matchesIn (query : Query) (grammar : Grammar) (node : Node) (text : Text)
    (range : Option Span) : List QueryMatch :=
  let progress :=
    if query.checksum == grammar.checksum then WalkProgress.ready node else .finished
  let nodes := node.subtree.count
  (QueryRun.atNode progress none).collect query text range (2 * nodes + 2)
    (nodes * query.patterns.length + 1)

end Query

end IncrementalGlr
