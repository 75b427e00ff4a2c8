import IncrementalGlr.Token.Basic
import IncrementalGlr.Tree.Subtree

/-!
# Parse stacks

An ambiguous text is parsed in several versions at once.  Each version has a stack of its own, a
position in the text and the choices that it took where actions were in conflict.
-/

namespace IncrementalGlr

/-- A subtree on a parse stack and the state entered with it. -/
structure StackEntry where
  /-- The state above the subtree. -/
  state : StateId
  /-- The subtree. -/
  subtree : Subtree
  deriving Inhabited

/-- The entries of a parse stack, the top one first.  Below the last one is the start state. -/
abbrev ParseStack : Type := List StackEntry

namespace ParseStack

/-- The state at the top. -/
def state : ParseStack → StateId
  | [] => .start
  | entry :: _ => entry.state

/-- All states from the top down to the start state. -/
def states (stack : ParseStack) : List StateId := stack.map StackEntry.state ++ [.start]

/-- The subtrees in the order of the text. -/
def subtrees (stack : ParseStack) : List Subtree := (stack.map StackEntry.subtree).reverse

/-- Number of errors in all subtrees. -/
def errorCount (stack : ParseStack) : Nat :=
  (stack.map fun entry => entry.subtree.errorCount).foldr (· + ·) 0

/-- Sum of the dynamic precedences of all subtrees. -/
def dynamicPrecedence (stack : ParseStack) : Int :=
  (stack.map fun entry => entry.subtree.dynamicPrecedence).foldr (· + ·) 0

/-- Puts subtrees on a stack, each with the same state above it. -/
def pushAll (stack : ParseStack) (state : StateId) (subtrees : List Subtree) : ParseStack :=
  subtrees.foldl (fun stack subtree => ⟨state, subtree⟩ :: stack) stack

/-- Takes subtrees from a stack until `count` of them are not extras.  Gives the extras above them,
the subtrees from the first to the last that is not an extra, both in the order of the text, and
the rest of the stack; none if the stack is too short. -/
def takeFrom (children trailing : List Subtree) :
    Nat → ParseStack → Option (List Subtree × List Subtree × ParseStack)
  | 0, stack => some (children, trailing, stack)
  | _ + 1, [] => none
  | count + 1, entry :: below =>
    if !entry.subtree.isExtra then takeFrom (entry.subtree :: children) trailing count below
    else if children.isEmpty then
      takeFrom children (entry.subtree :: trailing) (count + 1) below
    else takeFrom (entry.subtree :: children) trailing (count + 1) below

/-- Takes the children of a production with `count` symbols from a stack: the children, the extras
after them, and the rest of the stack. -/
def takeChildren (count : Nat) (stack : ParseStack) :
    Option (List Subtree × List Subtree × ParseStack) :=
  takeFrom [] [] count stack

end ParseStack

/-- What a version looks at next. -/
inductive Lookahead
  /-- A token of the text, found in a lexical state. -/
  | token (token : Token) (lexState : LexStateId)
  /-- A subtree of an earlier tree. -/
  | reused (subtree : Subtree)
  deriving Inhabited

namespace Lookahead

/-- The terminal that selects the next action. -/
def symbol : Lookahead → Symbol
  | token found _ => found.symbol
  | reused subtree =>
    if subtree.isLeaf then subtree.symbol
    else (subtree.firstLeaf.map FirstLeaf.symbol).getD subtree.symbol

/-- Number of bytes looked at to find the first token of the lookahead. -/
def extent : Lookahead → Nat
  | token found _ => found.length + found.lookahead
  | reused subtree => (subtree.firstLeaf.map FirstLeaf.extent).getD subtree.extent

/-- Whether the lookahead is unrecognised text. -/
def isError : Lookahead → Bool
  | token found _ => found.isError
  | reused subtree => subtree.isError

end Lookahead

/-- The merits of an outcome. -/
structure Rank where
  /-- Number of errors. -/
  errorCount : Nat
  /-- Sum of the dynamic precedences. -/
  dynamicPrecedence : Int
  /-- The alternatives taken at conflicts. -/
  path : List Nat
  deriving DecidableEq, Inhabited

namespace Rank

/-- Whether the first path comes before the second in the order of the dictionary. -/
def pathBefore : List Nat → List Nat → Bool
  | _, [] => false
  | [], _ :: _ => true
  | left :: leftRest, right :: rightRest =>
    if left ≠ right then left < right else pathBefore leftRest rightRest

/-- Whether the first outcome is better: it has fewer errors, or else a higher dynamic precedence,
or else took earlier alternatives. -/
def better (left right : Rank) : Bool :=
  if left.errorCount ≠ right.errorCount then left.errorCount < right.errorCount
  else if left.dynamicPrecedence ≠ right.dynamicPrecedence then
    right.dynamicPrecedence < left.dynamicPrecedence
  else pathBefore left.path right.path

/-- The best of several outcomes, the first one of equally good ones. -/
def best? {α : Type} (rank : α → Rank) : List α → Option α
  | [] => none
  | first :: rest =>
    some (rest.foldl (fun best other =>
      if (rank other).better (rank best) then other else best) first)

end Rank

/-- One way to parse the text up to a position. -/
structure Version where
  /-- The stack. -/
  stack : ParseStack
  /-- How far the text has been parsed. -/
  position : Nat
  /-- What comes next, if it is known. -/
  lookahead : Option Lookahead
  /-- The alternatives taken at conflicts. -/
  path : List Nat
  deriving Inhabited

namespace Version

/-- The version at the start of the text. -/
def start : Version := ⟨[], 0, none, []⟩

/-- The state at the top of the stack. -/
def state (version : Version) : StateId := version.stack.state

/-- The merits of the version. -/
def rank (version : Version) : Rank :=
  ⟨version.stack.errorCount, version.stack.dynamicPrecedence, version.path⟩

/-- Puts a subtree on the stack. -/
def push (version : Version) (state : StateId) (subtree : Subtree) : Version :=
  { version with stack := ⟨state, subtree⟩ :: version.stack }

/-- Whether two versions have come equally far with the same states on their stacks, so that they
have the same future. -/
def agrees (left right : Version) : Bool :=
  left.position == right.position && left.stack.states == right.stack.states

end Version

/-! ## Stacks that share entries

Versions that forked from one another share the entries below the fork.  An entry is never changed,
and every entry that is made gets an id of its own: two occurrences of one id are the same object.
So two stacks that come to one entry agree from there on, and their comparison may stop.
-/

/-- A parse stack whose entries have ids. -/
inductive SharedStack
  /-- The entry at the bottom, with the start state. -/
  | bottom (id : Nat)
  /-- An entry on top of a stack.  It knows the height of the stack and the merits of all subtrees
  on it. -/
  | above (id : Nat) (entry : StackEntry) (depth errorCount : Nat) (dynamicPrecedence : Int)
    (below : SharedStack)

namespace SharedStack

/-- Identity of the top entry. -/
def id : SharedStack → Nat
  | bottom id => id
  | above id .. => id

/-- The state at the top. -/
def state : SharedStack → StateId
  | bottom _ => .start
  | above _ entry .. => entry.state

/-- Number of entries above the bottom. -/
def depth : SharedStack → Nat
  | bottom _ => 0
  | above _ _ depth .. => depth

/-- Number of errors in all subtrees. -/
def errorCount : SharedStack → Nat
  | bottom _ => 0
  | above _ _ _ errorCount .. => errorCount

/-- Sum of the dynamic precedences of all subtrees. -/
def dynamicPrecedence : SharedStack → Int
  | bottom _ => 0
  | above _ _ _ _ dynamicPrecedence _ => dynamicPrecedence

/-- Puts an entry with a new id on top of a stack. -/
def push (id : Nat) (entry : StackEntry) (stack : SharedStack) : SharedStack :=
  above id entry (stack.depth + 1) (stack.errorCount + entry.subtree.errorCount)
    (stack.dynamicPrecedence + entry.subtree.dynamicPrecedence) stack

/-- Takes the top entry from a stack, unless it is the bottom. -/
def pop? : SharedStack → Option (Subtree × SharedStack)
  | bottom _ => none
  | above _ entry _ _ _ below => some (entry.subtree, below)

/-- The entries of the stack without ids. -/
def entries : SharedStack → ParseStack
  | bottom _ => []
  | above _ entry _ _ _ below => entry :: below.entries

/-- Whether two stacks of one height have the same states from the top down to an entry that they
share, or else to the bottom. -/
def statesMatch : SharedStack → SharedStack → Bool
  | above id entry _ _ _ below, above otherId other _ _ _ otherBelow =>
    id == otherId || entry.state = other.state && statesMatch below otherBelow
  | left, right => left.id == right.id || left.state = right.state

/-- Whether two stacks run through the same states.  Nothing is compared below a shared entry. -/
def sameStates (left right : SharedStack) : Bool :=
  left.depth == right.depth && left.statesMatch right

end SharedStack

end IncrementalGlr
