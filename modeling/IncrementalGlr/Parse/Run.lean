import IncrementalGlr.Parse.Options
import IncrementalGlr.Parse.Reuse
import IncrementalGlr.Parse.Stack
import IncrementalGlr.Token.Lexer
import IncrementalGlr.Tree.Store

/-!
# Runs of the parser

A run keeps the versions that are alive in the order in which they forked, and the trees of the
versions that were accepted.  This module says what a single action does to a version.
-/

namespace IncrementalGlr

/-- What stays the same during a parse. -/
structure ParseJob where
  /-- The finder of tokens. -/
  lexer : Lexer
  /-- The text. -/
  text : Text

namespace ParseJob

/-- The grammar of the text. -/
def grammar (job : ParseJob) : Grammar := job.lexer.grammar

end ParseJob

/-- The tree of an accepted version. -/
structure Finished where
  /-- The subtree of the whole text. -/
  root : Subtree
  /-- The alternatives taken at conflicts. -/
  path : List Nat
  deriving Inhabited

namespace Finished

/-- The merits of the tree. -/
def rank (finished : Finished) : Rank :=
  ⟨finished.root.errorCount, finished.root.dynamicPrecedence, finished.path⟩

end Finished

/-- The state of a parse. -/
structure ParseRun where
  /-- The parts of an earlier tree that may be used again. -/
  reuse : Option ReuseCursor
  /-- The versions alive, in the order in which they forked. -/
  versions : List Version
  /-- The trees of accepted versions. -/
  finished : List Finished
  /-- The work done. -/
  stats : ParseStats
  /-- Where the latest recovery from an error began. -/
  lastRecovery : Option Nat

namespace ParseRun

variable {m : Type → Type} [Monad m] [SubtreeMaker m]

/-- The run at the start of the text. -/
def start (reuse : Option ReuseCursor) : ParseRun where
  reuse := reuse
  versions := [.start]
  finished := []
  stats := ⟨0, 0, reuse.isNone⟩
  lastRecovery := none

/-- Puts versions in the place of the one that was taken from position `index`. -/
def insertAt (index : Nat) (versions : List Version) (run : ParseRun) : ParseRun :=
  { run with versions := run.versions.take index ++ versions ++ run.versions.drop index }

/-- Counts a subtree taken over from an earlier tree if the lookahead is one. -/
def countReuse (lookahead : Lookahead) (run : ParseRun) : ParseRun :=
  match lookahead with
  | .token .. => run
  | .reused _ => { run with stats := run.stats.countReused }

/-- The leaf of a lookahead above a state. -/
def leafOf (grammar : Grammar) (state : StateId) (extra : Bool) :
    Lookahead → m Subtree
  | .reused leaf => return leaf
  | .token token lexState =>
    SubtreeMaker.leaf
      { LeafSpec.ofGrammar grammar token.symbol token.length token.lookahead with
        parseState := state, lexState, extra }

/-- Puts a lookahead on the stack of a version and moves past it. -/
def pushLeaf (grammar : Grammar) (version : Version) (lookahead : Lookahead) (next : StateId)
    (extra : Bool) : m Version := do
  let leaf ← leafOf grammar version.state extra lookahead
  return { version.push next leaf with
    position := version.position + leaf.length, lookahead := none }

/-- Replaces the subtrees of a production on the stack of a version by a node.  Extras above the
last of them stay outside.  There is no version if the stack is too short or the state below leads
nowhere. -/
def reduce (grammar : Grammar) (version : Version) (productionId : ProductionId)
    (fragile : Bool) : m (Option Version) := do
  let production := grammar.production productionId
  match version.stack.takeChildren production.length.toNat with
  | none => return none
  | some (children, trailing, below) =>
    match grammar.goto? below.state production.lhs with
    | none => return none
    | some next =>
      let following := (version.lookahead.map Lookahead.extent).getD 0
      let node ← SubtreeMaker.node
        { NodeSpec.ofGrammar grammar production.lhs with
          production := productionId
          parseState := below.state
          fragile
          dynamicPrecedence := production.dynamicPrecedence.toInt
          following := following + Subtree.totalLength trailing }
        children
      return some { version with
        stack := ParseStack.pushAll (⟨next, node⟩ :: below) next trailing }

/-- A node of the start symbol above subtrees that no accepted node covers. -/
def rootNode (grammar : Grammar) (children : List Subtree) : m Subtree :=
  SubtreeMaker.node { NodeSpec.ofGrammar grammar grammar.startSymbol with following := 1 } children

/-- The dynamic precedence that a node has from its own production. -/
def ownPrecedence (grammar : Grammar) (production : ProductionId) : Int :=
  if production = .none then 0 else (grammar.production production).dynamicPrecedence.toInt

/-- The node of the whole text: the only subtree that is not an extra, with the extras around it
taken in. -/
def foldRoot (grammar : Grammar) (subtrees : List Subtree) : m Subtree := do
  match subtrees.filter (fun subtree => !subtree.isExtra) with
  | [root] =>
    if subtrees.length == 1 then return root
    else if root.isLeaf then rootNode grammar subtrees
    else
      let before := subtrees.takeWhile Subtree.isExtra
      let after := (subtrees.dropWhile Subtree.isExtra).tail
      SubtreeMaker.node
        { NodeSpec.ofGrammar grammar root.symbol with
          production := root.production
          parseState := root.parseState
          dynamicPrecedence := ownPrecedence grammar root.production
          following := 1 }
        (before ++ root.children ++ after)
  | _ => rootNode grammar subtrees

/-- Performs an action for a version that looks at `lookahead`.  A version that is accepted leaves
its tree; one whose stack does not fit the action is lost. -/
def apply (grammar : Grammar) (version : Version) (lookahead : Lookahead) (fragile : Bool)
    (run : ParseRun) : Action → m (ParseRun × Option Version)
  | .shift next => do
    let version ← pushLeaf grammar version lookahead next false
    return (run.countReuse lookahead, some version)
  | .reduce production => do
    let version := { version with lookahead := some lookahead }
    return (run, ← reduce grammar version production fragile)
  | .accept => do
    let root ← foldRoot grammar version.stack.subtrees
    return ({ run with finished := run.finished ++ [⟨root, version.path⟩] }, none)

/-- Performs the actions of a conflict, each for a fork of the version; gives the forks that live
on.  The path of a fork records which alternative it took. -/
def applyAll (grammar : Grammar) (version : Version) (lookahead : Lookahead) (fragile : Bool)
    (alternative : Nat) (run : ParseRun) :
    List Action → m (ParseRun × List Version)
  | [] => return (run, [])
  | action :: rest => do
    let fork := { version with path := version.path ++ [alternative] }
    let (run, result) ← run.apply grammar fork lookahead fragile action
    let (run, results) ← applyAll grammar version lookahead fragile (alternative + 1) run rest
    return (run, result.toList ++ results)

end ParseRun

end IncrementalGlr
