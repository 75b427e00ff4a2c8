import IncrementalGlr.Grammar.Table

/-!
# Subtrees

A subtree is a token or a node above other subtrees.  It knows its length but not its place, so the
same subtree can stand in several trees and at several offsets.  Every subtree that is made gets an
id of its own: two occurrences of one id are the same object.
-/

namespace IncrementalGlr

/-- The yes-or-no properties of a subtree. -/
structure SubtreeFlags where
  /-- Shown in trees. -/
  visible : Bool
  /-- Comes from a grammar rule rather than a literal. -/
  named : Bool
  /-- May stand anywhere between tokens. -/
  extra : Bool
  /-- Unrecognised text, or a node around it. -/
  error : Bool
  /-- Touched by an edit, or above a subtree that was. -/
  hasChanges : Bool
  /-- Built while several versions of the parse were alive. -/
  fragile : Bool
  /-- A token. -/
  leaf : Bool
  deriving DecidableEq, Hashable, Inhabited

/-- Summary of the first token below a subtree. -/
structure FirstLeaf where
  /-- Symbol of the token. -/
  symbol : Symbol
  /-- Lexical state in which it was found. -/
  lexState : LexStateId
  /-- Its length and lookahead together. -/
  extent : Nat
  deriving DecidableEq, Inhabited

/-- What a subtree knows of itself apart from its children. -/
structure SubtreeData where
  /-- Identity of the object. -/
  id : Nat
  /-- Symbol of the token or node. -/
  symbol : Symbol
  /-- The yes-or-no properties. -/
  flags : SubtreeFlags
  /-- Length of the text it spans. -/
  length : Nat
  /-- Number of bytes after its end that influenced it. -/
  lookahead : Nat
  /-- State below it when it was pushed. -/
  parseState : StateId
  /-- Lexical state in which its first token was found. -/
  lexState : LexStateId
  /-- Production that built it. -/
  production : ProductionId
  /-- Number of error subtrees in it, whether or not 32 bits are enough for it. -/
  errorCount : Nat
  /-- Sum of the dynamic precedences of the productions in it, whether or not 32 bits are enough for
  it. -/
  dynamicPrecedence : Int
  /-- Summary of its first token. -/
  firstLeaf : Option FirstLeaf
  deriving DecidableEq, Inhabited

/-- A token, or a node above other subtrees. -/
inductive Subtree
  /-- The subtree with the given data and children. -/
  | mk (data : SubtreeData) (children : List Subtree)
  deriving Inhabited

/-- What determines a token. -/
structure LeafSpec where
  /-- Symbol of the token. -/
  symbol : Symbol
  /-- Length of its text. -/
  length : Nat
  /-- Number of bytes looked at after its text. -/
  lookahead : Nat
  /-- State in which it is pushed. -/
  parseState : StateId
  /-- Lexical state in which it was found. -/
  lexState : LexStateId
  /-- Shown in trees. -/
  visible : Bool
  /-- Comes from a grammar rule rather than a literal. -/
  named : Bool
  /-- May stand anywhere between tokens. -/
  extra : Bool
  /-- Unrecognised text. -/
  error : Bool
  deriving DecidableEq, Inhabited

namespace LeafSpec

/-- A token with the properties that a grammar gives its symbol. -/
def ofGrammar (grammar : Grammar) (symbol : Symbol) (length lookahead : Nat) : LeafSpec where
  symbol := symbol
  length := length
  lookahead := lookahead
  parseState := .start
  lexState := .errorMode
  visible := grammar.isVisible symbol
  named := grammar.isNamed symbol
  extra := symbol ≠ .error && grammar.isExtra symbol
  error := symbol = .error

/-- The properties of the token. -/
def flags (spec : LeafSpec) : SubtreeFlags where
  visible := spec.visible
  named := spec.named
  extra := spec.extra
  error := spec.error
  hasChanges := false
  fragile := false
  leaf := true

end LeafSpec

/-- What determines a node apart from its children. -/
structure NodeSpec where
  /-- Symbol of the node. -/
  symbol : Symbol
  /-- Production that builds it. -/
  production : ProductionId
  /-- State below it. -/
  parseState : StateId
  /-- Shown in trees. -/
  visible : Bool
  /-- Comes from a grammar rule rather than a literal. -/
  named : Bool
  /-- May stand anywhere between tokens. -/
  extra : Bool
  /-- A node around unrecognised text. -/
  error : Bool
  /-- Built while several versions of the parse were alive. -/
  fragile : Bool
  /-- Dynamic precedence of the production. -/
  dynamicPrecedence : Int
  /-- Number of bytes after its end that were looked at before it was built. -/
  following : Nat
  deriving DecidableEq, Inhabited

namespace NodeSpec

/-- A node with the properties that a grammar gives its symbol. -/
def ofGrammar (grammar : Grammar) (symbol : Symbol) : NodeSpec where
  symbol := symbol
  production := .none
  parseState := .start
  visible := grammar.isVisible symbol
  named := grammar.isNamed symbol
  extra := false
  error := symbol = .error
  fragile := false
  dynamicPrecedence := 0
  following := 0

/-- An error node; it may stand anywhere. -/
def ofError (grammar : Grammar) : NodeSpec :=
  { ofGrammar grammar .error with extra := true }

end NodeSpec

namespace Subtree

/-- What the subtree knows of itself. -/
def data : Subtree → SubtreeData
  | mk data _ => data

/-- The subtrees directly below. -/
def children : Subtree → List Subtree
  | mk _ children => children

/-- Identity of the object. -/
def id (subtree : Subtree) : Nat := subtree.data.id

/-- Whether two occurrences are the same object. -/
def same (left right : Subtree) : Bool := left.id == right.id

/-- Symbol of the token or node. -/
def symbol (subtree : Subtree) : Symbol := subtree.data.symbol

/-- Length of the text it spans. -/
def length (subtree : Subtree) : Nat := subtree.data.length

/-- Number of bytes after its end that influenced it. -/
def lookahead (subtree : Subtree) : Nat := subtree.data.lookahead

/-- Number of bytes from its start on that influenced it. -/
def extent (subtree : Subtree) : Nat := subtree.length + subtree.lookahead

/-- State below it when it was pushed. -/
def parseState (subtree : Subtree) : StateId := subtree.data.parseState

/-- Production that built it. -/
def production (subtree : Subtree) : ProductionId := subtree.data.production

/-- Number of error subtrees in it. -/
def errorCount (subtree : Subtree) : Nat := subtree.data.errorCount

/-- Sum of the dynamic precedences in it. -/
def dynamicPrecedence (subtree : Subtree) : Int := subtree.data.dynamicPrecedence

/-- Summary of its first token. -/
def firstLeaf (subtree : Subtree) : Option FirstLeaf := subtree.data.firstLeaf

/-- Whether it is a token. -/
def isLeaf (subtree : Subtree) : Bool := subtree.data.flags.leaf

/-- Whether it is shown in trees. -/
def isVisible (subtree : Subtree) : Bool := subtree.data.flags.visible

/-- Whether it comes from a grammar rule rather than a literal. -/
def isNamed (subtree : Subtree) : Bool := subtree.data.flags.named

/-- Whether it may stand anywhere between tokens. -/
def isExtra (subtree : Subtree) : Bool := subtree.data.flags.extra

/-- Whether it is unrecognised text or a node around it. -/
def isError (subtree : Subtree) : Bool := subtree.data.flags.error

/-- Whether an edit touched it or a subtree below it. -/
def hasChanges (subtree : Subtree) : Bool := subtree.data.flags.hasChanges

/-- Whether it was built while several versions of the parse were alive. -/
def isFragile (subtree : Subtree) : Bool := subtree.data.flags.fragile

/-- Whether it is empty of text. -/
def isEmpty (subtree : Subtree) : Bool := subtree.length == 0

/-- Whether it or a subtree below it is an error. -/
def hasError (subtree : Subtree) : Bool := 0 < subtree.errorCount

/-- Whether 32 bits are enough for the number of errors. -/
def countFits (subtree : Subtree) : Bool := subtree.errorCount < Nat.pow 2 32

/-- The number of errors as a subtree stores it, which is in 32 bits. -/
def storedErrors (subtree : Subtree) : UInt32 := .ofNat subtree.errorCount

/-- Whether there are errors in it as far as the stored number says. -/
def storesErrors (subtree : Subtree) : Bool := 0 < subtree.storedErrors

/-- Tokens and visible nodes show up when a tree is walked; hidden nodes are replaced by their
children. -/
def isExposed (subtree : Subtree) : Bool := subtree.isVisible || subtree.isLeaf

/-- The token of a specification. -/
def ofLeaf (id : Nat) (spec : LeafSpec) : Subtree :=
  mk
    { id
      symbol := spec.symbol
      flags := spec.flags
      length := spec.length
      lookahead := spec.lookahead
      parseState := spec.parseState
      lexState := spec.lexState
      production := .none
      errorCount := spec.error.toNat
      dynamicPrecedence := 0
      firstLeaf := some ⟨spec.symbol, spec.lexState, spec.length + spec.lookahead⟩ }
    []

/-- Total length of subtrees that stand one after the other. -/
def totalLength (subtrees : List Subtree) : Nat := (subtrees.map length).foldr (· + ·) 0

/-- The last offset that influenced some of the subtrees, if the first one stands at `start`. -/
def extentEnd (start : Nat) : List Subtree → Nat
  | [] => 0
  | child :: rest => max (start + child.extent) (extentEnd (start + child.length) rest)

/-- The node of a specification above the given subtrees.  Length and summaries follow from the
children; the lookahead reaches as far as that of any child. -/
def ofChildren (id : Nat) (spec : NodeSpec) (children : List Subtree) : Subtree :=
  let length := totalLength children
  let firstLeaf := children.findSome? Subtree.firstLeaf
  mk
    { id
      symbol := spec.symbol
      flags :=
        { visible := spec.visible
          named := spec.named
          extra := spec.extra
          error := spec.error
          hasChanges := children.any hasChanges
          fragile := spec.fragile
          leaf := false }
      length
      lookahead := max (extentEnd 0 children) (length + spec.following) - length
      parseState := spec.parseState
      lexState := (firstLeaf.map FirstLeaf.lexState).getD .errorMode
      production := spec.production
      errorCount := spec.error.toNat + (children.map errorCount).foldr (· + ·) 0
      dynamicPrecedence := spec.dynamicPrecedence + (children.map dynamicPrecedence).foldr (· + ·) 0
      firstLeaf }
    children

/-- Whether 32 bits are enough for what is added up for a node, child by child: the errors and the
dynamic precedences.  A program that is built with overflow checks makes no other nodes. -/
def sumsFit (spec : NodeSpec) (children : List Subtree) : Bool :=
  (ofChildren 0 spec children).countFits &&
    ((children.map dynamicPrecedence).scanl (· + ·) spec.dynamicPrecedence).all fun sum =>
      (Int32.ofInt sum).toInt == sum

/-- A changed copy of a token with a new length. -/
def resized (subtree : Subtree) (id length : Nat) : Subtree :=
  let data := subtree.data
  mk
    { data with
      id
      length
      flags := { data.flags with hasChanges := true }
      firstLeaf := data.firstLeaf.map fun leaf => { leaf with extent := length + data.lookahead } }
    []

/-- A changed copy of a node with a new length and new children. -/
def rebuilt (subtree : Subtree) (id length : Nat) (children : List Subtree) : Subtree :=
  let data := subtree.data
  mk
    { data with
      id
      length
      flags := { data.flags with hasChanges := true }
      firstLeaf := children.findSome? Subtree.firstLeaf }
    children

mutual

/-- Number of subtrees in a subtree, itself included. -/
def count : Subtree → Nat
  | mk _ children => countAll children + 1

/-- Number of subtrees in a list of subtrees. -/
def countAll : List Subtree → Nat
  | [] => 0
  | child :: rest => child.count + countAll rest

end

mutual

/-- A subtree and all subtrees below it in preorder, each with its depth. -/
def preorder (depth : Nat) : Subtree → List (Nat × Subtree)
  | mk data children => (depth, mk data children) :: preorderAll (depth + 1) children

/-- The subtrees of a list and all below them in preorder, each with its depth. -/
def preorderAll (depth : Nat) : List Subtree → List (Nat × Subtree)
  | [] => []
  | child :: rest => child.preorder depth ++ preorderAll depth rest

end

mutual

/-- Whether two subtrees agree in symbols and lengths throughout. -/
def alike : Subtree → Subtree → Bool
  | mk left leftChildren, mk right rightChildren =>
    left.symbol = right.symbol && left.length == right.length &&
      alikeAll leftChildren rightChildren

/-- Whether two lists of subtrees agree in number, symbols and lengths throughout. -/
def alikeAll : List Subtree → List Subtree → Bool
  | [], [] => true
  | left :: leftRest, right :: rightRest => left.alike right && alikeAll leftRest rightRest
  | _, _ => false

end

mutual

/-- The subtree by symbols and lengths, as in debugging output. -/
def describe : Subtree → String
  | mk data children =>
    let head := data.symbol.describe ++ "@" ++ toString data.length
    if data.flags.leaf then head
    else head ++ " [" ++ ", ".intercalate (describeAll children) ++ "]"

/-- The subtrees of a list by symbols and lengths. -/
def describeAll : List Subtree → List String
  | [] => []
  | child :: rest => child.describe :: describeAll rest

end

end Subtree

end IncrementalGlr
