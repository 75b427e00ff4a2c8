import IncrementalGlr.Parse.Recovery

/-!
# Steps of a run

A step takes the version that is furthest behind, finds what comes next and performs the actions
that the table calls for.  Then versions with the same future are merged and the worst ones dropped.
-/

namespace IncrementalGlr

namespace ParseRun

variable {m : Type → Type} [Monad m] [SubtreeMaker m]

/-- Most versions that stay alive after a step. -/
def maxVersions : Nat := 6

/-- The position of the version furthest behind, the first one of several. -/
def nextIndex? (versions : List Version) : Option Nat :=
  ((versions.map Version.position).min?).bind fun least =>
    versions.findIdx? fun version => version.position == least

/-- What comes next for a version.  If it is the only one, a part of the earlier tree that can be
used again is preferred to a token. -/
def nextLookahead (job : ParseJob) (version : Version) (run : ParseRun) :
    ParseRun × Lookahead :=
  let grammar := job.grammar
  let state := version.state
  let accepts (subtree : Subtree) : Bool :=
    subtree.isReusable && (!subtree.isLeaf || subtree.canShiftLeaf grammar state)
  let reuse :=
    if run.versions.isEmpty then run.reuse.map (ReuseCursor.seek accepts version.position)
    else run.reuse
  let candidate := if run.versions.isEmpty then
    reuse.bind (ReuseCursor.candidate? version.position) else none
  match candidate with
  | some subtree => ({ run with reuse }, .reused subtree)
  | none =>
    let lexState := grammar.lexState state
    let token := job.lexer.nextInState job.text version.position lexState
    ({ run with reuse, stats := run.stats.countLexed }, .token token lexState)

/-- The only action of a state on the first token of a node, if it is a reduction and the token was
found in the lexical state of the state. -/
def reductionBefore? (grammar : Grammar) (state : StateId) (node : Subtree) :
    Option ProductionId := do
  let leaf ← node.firstLeaf
  if leaf.lexState = grammar.lexState state then
    match grammar.actions state leaf.symbol with
    | [.reduce production] => some production
    | _ => none
  else none

/-- Puts a node of the earlier tree on the stack whole, or performs the reduction that its first
token calls for, or breaks it into its children. -/
def reuseNode (grammar : Grammar) (index : Nat) (version : Version) (node : Subtree)
    (run : ParseRun) : m ParseRun := do
  let state := version.state
  let next :=
    if run.versions.isEmpty && node.canPushNode grammar state then
      grammar.goto? state node.symbol
    else none
  match next, reductionBefore? grammar state node with
  | some next, _ =>
    let version := { version.push next node with position := version.position + node.length }
    return { run with stats := run.stats.countReused }.insertAt index [version]
  | none, some production =>
    let version := { version with lookahead := some (.reused node) }
    let reduced ← reduce grammar version production (!run.versions.isEmpty)
    return run.insertAt index reduced.toList
  | none, none =>
    return { run with reuse := run.reuse.map ReuseCursor.reject }.insertAt index [version]

/-- Gives up the earlier tree and starts again from the first byte, so that recovery from errors
only ever sees stacks built from tokens of this text. -/
def restart (run : ParseRun) : ParseRun where
  reuse := none
  versions := [.start]
  finished := []
  stats := { run.stats with reused := 0, full := true }
  lastRecovery := none

/-- What happens to a version that has no action on its lookahead.  An extra is put on the stack;
the last version recovers from the error; any other version is lost. -/
def withoutAction (job : ParseJob) (index : Nat) (version : Version) (lookahead : Lookahead)
    (run : ParseRun) : m ParseRun := do
  let grammar := job.grammar
  let symbol := lookahead.symbol
  if grammar.isExtra symbol && symbol ≠ .endOfInput && !lookahead.isError then
    let version ← pushLeaf grammar version lookahead version.state true
    return (run.countReuse lookahead).insertAt index [version]
  else if run.versions.isEmpty && run.finished.isEmpty then
    if run.reuse.isSome then return run.restart
    else run.recover job { version with lookahead := some lookahead }
  else return run

/-- Performs the actions that the table calls for. -/
def act (job : ParseJob) (index : Nat) (version : Version) (lookahead : Lookahead)
    (run : ParseRun) : m ParseRun := do
  let grammar := job.grammar
  match grammar.actions version.state lookahead.symbol with
  | [] => run.withoutAction job index version lookahead
  | [action] =>
    let fragile := !run.versions.isEmpty
    let (run, result) ← run.apply grammar version lookahead fragile action
    return run.insertAt index result.toList
  | actions =>
    let (run, results) ← run.applyAll grammar version lookahead true 0 actions
    return run.insertAt index results

/-- Moves on a version that was taken from position `index`. -/
def advance (job : ParseJob) (index : Nat) (version : Version) (run : ParseRun) :
    m ParseRun := do
  let (run, lookahead) :=
    match version.lookahead with
    | some lookahead => (run, lookahead)
    | none => run.nextLookahead job version
  let version := { version with lookahead := none }
  match lookahead with
  | .reused node =>
    if node.isLeaf then run.act job index version lookahead
    else run.reuseNode job.grammar index version node
  | .token .. => run.act job index version lookahead

/-- The better one of two versions. -/
def preferred (left right : Version) : Version :=
  if right.rank.better left.rank then right else left

/-- Merges a version with all later ones that agree with it; gives it and the remaining ones. -/
def absorb (version : Version) : List Version → Version × List Version
  | [] => (version, [])
  | other :: rest =>
    if version.agrees other then absorb (preferred version other) rest
    else
      let (best, kept) := absorb version rest
      (best, other :: kept)

/-- The versions with those that agree merged; each group keeps the place of its first member.
There are at most as many as the budget says. -/
def mergeWithin : Nat → List Version → List Version
  | budget + 1, version :: rest =>
    let (best, kept) := absorb version rest
    best :: mergeWithin budget kept
  | _, _ => []

/-- The versions with those that agree merged. -/
def merge (versions : List Version) : List Version := mergeWithin versions.length versions

/-- The position of the worst version, the last one of equally bad ones. -/
def worstIndex (versions : List Version) : Nat :=
  (versions.zipIdx.foldl
    (fun worst (version, index) =>
      match worst with
      | some (other, position) =>
        if version.rank.better other then some (other, position) else some (version.rank, index)
      | none => some (version.rank, index))
    (none : Option (Rank × Nat))).elim 0 Prod.snd

/-- Drops the worst version a number of times. -/
def dropWorst : Nat → List Version → List Version
  | 0, versions => versions
  | count + 1, versions => dropWorst count (versions.eraseIdx (worstIndex versions))

/-- The merged versions without those that have more errors than a finished tree. -/
def promising (run : ParseRun) : List Version :=
  match (run.finished.map fun finished => finished.root.errorCount).min? with
  | some least => (merge run.versions).filter fun version => version.stack.errorCount ≤ least
  | none => merge run.versions

/-- The best of the promising versions, at most `maxVersions` of them. -/
def survivors (run : ParseRun) : List Version :=
  dropWorst (run.promising.length - maxVersions) run.promising

/-- Merges versions with the same future, drops those with more errors than a finished tree, and
keeps the number of versions bounded. -/
def condense (run : ParseRun) : ParseRun :=
  match run.finished, run.survivors with
  | [], [version] => { run with versions := [{ version with path := [] }] }
  | _, versions => { run with versions }

/-- One step: the version furthest behind moves on.  There is none if no version is alive. -/
def step? (job : ParseJob) (run : ParseRun) : Option (m ParseRun) := do
  let index ← nextIndex? run.versions
  let version ← run.versions[index]?
  some do
    let run ← advance job index version { run with versions := run.versions.eraseIdx index }
    return run.condense

/-- Goes on after `made` steps until no version is alive, the time is over or `operations` more steps
have been made. -/
def runFor (job : ParseJob) (deadline : Option Nat) (made : Nat) :
    Nat → ParseRun → m (ParseRun × ParseStatus)
  | 0, run =>
    return (run, if (run.step? (m := m) job).isSome then .cancelled .operationLimit else .complete)
  | operations + 1, run =>
    match run.step? job with
    | none => return (run, .complete)
    | some step =>
      if ParseOptions.isOver deadline made then return (run, .cancelled .deadline)
      else do
        let next ← step
        runFor job deadline (made + 1) operations next

/-- The subtree of the whole text: the best finished tree, or else what the best version has on its
stack, followed by an error above the rest of the text. -/
def result (job : ParseJob) (run : ParseRun) : m Subtree := do
  match Rank.best? Finished.rank run.finished with
  | some best => return best.root
  | none =>
    let best := (Rank.best? Version.rank run.versions).getD .start
    let rest := job.text.size - best.position
    let errors ←
      if rest = 0 then pure []
      else do pure [← SubtreeMaker.newLeaf (LeafSpec.ofGrammar job.grammar .error rest 0)]
    rootNode job.grammar (best.stack.subtrees ++ errors)

end ParseRun

end IncrementalGlr
