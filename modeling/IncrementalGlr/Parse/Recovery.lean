import IncrementalGlr.Parse.Run

/-!
# Recovery from errors

When the last version has no action, the tokens ahead are looked through for the cheapest place to
go on: the fewest tokens skipped, then the fewest subtrees taken from the stack.  What is skipped or
taken becomes an error node on the stack.  Error nodes do not nest, and on a stack they do not stand
side by side.
-/

namespace IncrementalGlr

/-- Where parsing goes on after an error. -/
structure Resume where
  /-- Number of tokens that go into the error. -/
  skipped : Nat
  /-- Number of stack entries that go into the error. -/
  popped : Nat
  deriving DecidableEq, Inhabited

variable {m : Type → Type} [Monad m] [SubtreeMaker m]

namespace Recovery

/-- Number of tokens looked through. -/
def maxTokens : Nat := 32

/-- Number of bytes looked through. -/
def maxBytes : Nat := 4096

/-- The tokens from an offset on, every terminal being valid, up to the end of the text, to `limit`
or to the number of tokens left. -/
def tokensFrom (job : ParseJob) (limit offset : Nat) : Nat → List Token
  | 0 => []
  | count + 1 =>
    let token := job.lexer.nextInState job.text offset .errorMode
    if token.isEnd || token.range.isEmpty || limit ≤ token.range.stop then [token]
    else token :: tokensFrom job limit token.range.stop count

/-- The tokens that are looked through after an error at a position. -/
def window (job : ParseJob) (position : Nat) : List Token :=
  tokensFrom job (position + maxBytes) position maxTokens

/-- Whether parsing can go on at a token: it is not unrecognised text and not an extra. -/
def isAnchor (grammar : Grammar) (token : Token) : Bool :=
  !token.isError && (token.isEnd || !grammar.isExtra token.symbol)

/-- The first of the given states that has an action on a token.  If no token is skipped, a state
like the current one is of no use, as it has just failed. -/
def findState? (grammar : Grammar) (current : StateId) (skipped : Nat) (token : Token)
    (states : List StateId) : Option Nat :=
  states.findIdx? fun state =>
    !(skipped == 0 && state = current) && !(grammar.actions state token.symbol).isEmpty

/-- The cheapest place to go on, looked for from the token of number `skipped` on. -/
def findFrom? (grammar : Grammar) (states : List StateId) (current : StateId)
    (forceSkip : Bool) (skipped : Nat) : List Token → Option Resume
  | [] => none
  | token :: rest =>
    let here :=
      if !isAnchor grammar token || (skipped == 0 && forceSkip) then none
      else findState? grammar current skipped token states
    match here with
    | some popped => some ⟨skipped, popped⟩
    | none => findFrom? grammar states current forceSkip (skipped + 1) rest

/-- The cheapest place to go on for a version.  With `forceSkip` at least one token is skipped. -/
def find? (grammar : Grammar) (version : Version) (forceSkip : Bool) (window : List Token) :
    Option Resume :=
  findFrom? grammar version.stack.states version.state forceSkip 0 window

/-- A token inside an error. -/
def errorLeaf (grammar : Grammar) (state : StateId) (token : Token) : m Subtree :=
  let symbol := if token.isError then .error else token.symbol
  SubtreeMaker.leaf
    { LeafSpec.ofGrammar grammar symbol token.length token.lookahead with
      parseState := state, lexState := .errorMode }

/-- The subtrees with every error node among them replaced by its children. -/
def flatten (subtrees : List Subtree) : List Subtree :=
  subtrees.flatMap fun subtree =>
    if subtree.isError && !subtree.isLeaf then subtree.children else [subtree]

/-- An error above subtrees. -/
def errorNode (grammar : Grammar) (children : List Subtree) : m Subtree :=
  SubtreeMaker.node (NodeSpec.ofError grammar) (flatten children)

/-- Puts subtrees on the stack of a version as one error, together with an error that is already at
the top. -/
def pushError (grammar : Grammar) (version : Version) (children : List Subtree) :
    m Version := do
  if children.isEmpty then return version
  match version.stack with
  | entry :: below =>
    if entry.subtree.isError then
      let error ← errorNode grammar (entry.subtree :: children)
      return { version with stack := ⟨ParseStack.state below, error⟩ :: below }
    else return version.push version.state (← errorNode grammar children)
  | [] => return version.push version.state (← errorNode grammar children)

/-- An extra after an error. -/
def pushExtra (grammar : Grammar) (version : Version) (token : Token) : m Version := do
  let extra ← SubtreeMaker.leaf
    { LeafSpec.ofGrammar grammar token.symbol token.length token.lookahead with
      parseState := version.state, lexState := .errorMode, extra := true }
  return version.push version.state extra

/-- The version that goes on at a token.  Extras next to the error stay outside it. -/
def resume (grammar : Grammar) (version : Version) (window : List Token) (resume : Resume)
    (token : Token) : m Version := do
  let popped := ParseStack.subtrees (version.stack.take resume.popped)
  let below : ParseStack := version.stack.drop resume.popped
  let target := below.state
  let leading := popped.takeWhile Subtree.isExtra
  let content := popped.dropWhile Subtree.isExtra
  let isExtra (token : Token) : Bool := !token.isError && grammar.isExtra token.symbol
  let skipped := (window.take resume.skipped).reverse
  let after := (skipped.takeWhile isExtra).reverse
  let inside := (skipped.dropWhile isExtra).reverse
  let inside ← inside.mapM (errorLeaf grammar target)
  let version := { version with stack := below.pushAll target leading }
  let version ← pushError grammar version (content ++ inside)
  let version ← after.foldlM (pushExtra grammar) version
  return { version with
    position := token.range.start, lookahead := some (.token token .errorMode) }

/-- The version that has moved past a token by putting it into an error. -/
def skipToken (grammar : Grammar) (version : Version) (token : Token) :
    m Version := do
  let leaf ← errorLeaf grammar version.state token
  let version ← pushError grammar version [leaf]
  return { version with position := token.range.stop, lookahead := none }

/-- The tree in which everything but the extras at the start is one error.  If there is nothing
else, the error is empty. -/
def giveUp (grammar : Grammar) (version : Version) (window : List Token) :
    m Finished := do
  let rest ← (window.filter fun token => !token.isEnd).mapM (errorLeaf grammar version.state)
  let content := version.stack.subtrees ++ rest
  let leading := content.takeWhile Subtree.isExtra
  let wrapped := content.dropWhile Subtree.isExtra
  let error ←
    if wrapped.isEmpty then SubtreeMaker.leaf (LeafSpec.ofGrammar grammar .error 0 0)
    else errorNode grammar wrapped
  return ⟨← ParseRun.rootNode grammar (leading ++ [error]), version.path⟩

end Recovery

namespace ParseRun

/-- Goes on after an error of the only version. -/
def recover (job : ParseJob) (version : Version) (run : ParseRun) : m ParseRun := do
  let grammar := job.grammar
  let forceSkip := run.lastRecovery == some version.position
  let window := Recovery.window job version.position
  let run := { run with
    lastRecovery := some version.position
    stats := { run.stats with lexed := run.stats.lexed + window.length } }
  let target := do
    let resume ← Recovery.find? grammar version forceSkip window
    return (resume, ← window[resume.skipped]?)
  match target with
  | some (resume, token) =>
    let version ← Recovery.resume grammar version window resume token
    return { run with versions := run.versions ++ [version] }
  | none =>
    if (window.getLast?).any Token.isEnd then
      let finished ← Recovery.giveUp grammar version window
      return { run with finished := run.finished ++ [finished] }
    else
      match window.head? with
      | some token =>
        let version ← Recovery.skipToken grammar version token
        return { run with versions := run.versions ++ [version] }
      | none => return run

end ParseRun

end IncrementalGlr
