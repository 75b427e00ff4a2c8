import IncrementalGlr.Diagnostic
import IncrementalGlr.Parse.Options
import IncrementalGlr.Parse.Step
import IncrementalGlr.Tree.Basic
import IncrementalGlr.Tree.Edit
import IncrementalGlr.Unicode.Class

/-!
# Parsers

A parser keeps its subtrees from parse to parse.  When it is given an earlier tree of nearly the
same text together with the edits made since, it takes over the parts that did not change.
-/

namespace IncrementalGlr

/-! ## What a parse gives

Errors do not make a parse fail: the text that could not be understood stands in error nodes of the
tree, and every outermost one of them is reported.
-/

namespace Excerpt

/-- Number of characters of the offending text that are shown at most. -/
def maxLength : Nat := 24

/-- The characters without white space at both ends. -/
def trim (chars : List Char) : List Char :=
  ((chars.dropWhile Unicode.isSpace).reverse.dropWhile Unicode.isSpace).reverse

/-- The characters before the first line end, which is a line feed that may follow a carriage
return. -/
def firstLine : List Char → List Char
  | [] => []
  | '\n' :: _ => []
  | '\r' :: '\n' :: _ => []
  | c :: rest => c :: firstLine rest

/-- The beginning of a text that is shown in a message. -/
def ofText (text : Text) : List Char := firstLine (trim text.decode.toList)

/-- The message about a text that could not be understood. -/
def message (text : Text) : String :=
  let shown := ofText text
  if shown.isEmpty then "unexpected end of input"
  else if maxLength < shown.length then
    "unexpected `" ++ String.ofList (shown.take maxLength) ++ "...`"
  else "unexpected `" ++ String.ofList shown ++ "`"

end Excerpt

/-- The tree of a text and what is to be said about it. -/
structure ParseOutput where
  /-- The tree. -/
  tree : SyntaxTree
  /-- The messages. -/
  diagnostics : List Diagnostic
  /-- Whether the parse came to its end. -/
  status : ParseStatus
  /-- The work done. -/
  stats : ParseStats

namespace ParseOutput

/-- The messages about the errors in a tree. -/
def errors (tree : SyntaxTree) (text : Text) : List Diagnostic :=
  tree.errorRanges.map fun range => ⟨Excerpt.message (text.slice range), range, .error⟩

/-- The warning that a parse stopped before its end.  It points at the error with the rest of the
text if there is one, and at the end of the text otherwise. -/
def warning (reason : Cancelled) (length : Nat) (errors : List Diagnostic) : Diagnostic :=
  let range :=
    ((errors.getLast?.map Diagnostic.range).filter fun range => range.stop == length).getD
      ⟨length, length⟩
  ⟨reason.message, range, .warning⟩

/-- The output for a tree. -/
def ofTree (tree : SyntaxTree) (text : Text) (status : ParseStatus) (stats : ParseStats) :
    ParseOutput :=
  let errors := errors tree text
  let warnings :=
    match status with
    | .complete => []
    | .cancelled reason => [warning reason tree.length errors]
  ⟨tree, errors ++ warnings, status, stats⟩

end ParseOutput

/-! ## Parsers -/

/-- A parser for one grammar. -/
structure Parser where
  /-- The grammar. -/
  grammar : Grammar
  /-- The subtrees made so far. -/
  store : Store
  /-- The scanner for external terminals. -/
  external : Option ExternalScanner
  /-- What is asked of every parse. -/
  options : ParseOptions
  /-- Root and text of the latest parse if that came to its end. -/
  last : Option (Subtree × Text)

/-- What an earlier tree means for a parse. -/
inductive Earlier
  /-- The text is the same as that of the tree. -/
  | unchanged (tree : SyntaxTree)
  /-- Parts of the edited tree can be used again. -/
  | edited (root : Subtree)
  /-- The tree is of no use. -/
  | useless

namespace Parser

/-- A parser that has not parsed anything and numbers its subtrees from `nextId` on. -/
def ofGrammar (grammar : Grammar) (external : Option ExternalScanner) (options : ParseOptions)
    (nextId : Nat) : Parser :=
  ⟨grammar, .fromId nextId, external, options, none⟩

/-- Number of steps that no parse exceeds. -/
def maxOperations : Nat := Nat.pow 2 62

/-- Whether a tree came out of the latest parse and a text is the one that was parsed. -/
def isLastParse (last : Option (Subtree × Text)) (tree : SyntaxTree) (text : Text) : Bool :=
  last.any fun (root, lastText) => root.same tree.root && lastText.bytes == text.bytes

/-- A tree after several edits, and whether one of them replaced all of its text.  The tokens that
the edits touch are kept for the parse to come. -/
def applyEdits (tree : SyntaxTree) (replaced : Bool) :
    List Edit → StateM Store (SyntaxTree × Bool)
  | [] => return (tree, replaced)
  | edit :: rest => do
    let replaced := replaced || (edit.start == 0 && tree.length ≤ edit.oldEnd)
    let (edited, displaced) ← modifyGet fun store =>
      let (edited, displaced, nextId) := tree.edit edit store.nextId
      ((edited, displaced), { store with nextId })
    modify (Store.seedAll displaced)
    applyEdits edited replaced rest

/-- Finds out what an earlier tree means for the parse of a text. -/
def considerTree (last : Option (Subtree × Text)) (tree : SyntaxTree) (text : Text)
    (edits : List Edit) : StateM Store Earlier := do
  let edits := edits.filter fun edit => !edit.isNoop
  if (edits.isEmpty || isLastParse last tree text) && !tree.root.hasChanges &&
      tree.length == text.size then
    return .unchanged tree
  else
    let (edited, replaced) ← applyEdits tree false edits
    if replaced || edited.length ≠ text.size then return .useless
    else return .edited edited.root

/-- Finds out what an earlier tree means for the parse of a text, if there is one.  Trees of a
grammar with another checksum, and all trees if reuse is turned off, are ignored. -/
def consider (grammar : Grammar) (options : ParseOptions) (last : Option (Subtree × Text))
    (previous : Option SyntaxTree) (text : Text) (edits : List Edit) : StateM Store Earlier :=
  match previous.filter fun tree =>
      options.reuse && grammar.checksum == tree.grammar.checksum with
  | some tree => considerTree last tree text edits
  | none => return .useless

/-- Parses a text from the first byte, taking over what it can. -/
def runJob {m : Type → Type} [Monad m] [SubtreeMaker m] (job : ParseJob) (options : ParseOptions)
    (reuse : Option ReuseCursor) : m (Subtree × ParseStatus × ParseStats) := do
  let limit := options.maxOperations.getD maxOperations
  let (run, status) ← ParseRun.runFor job options.deadline 0 limit (ParseRun.start reuse)
  return (← run.result job, status, run.stats)

/-- Parses a text.  If an earlier tree is given, it is edited first; the tree may also have been
edited before, without edits being given here. -/
def parse (parser : Parser) (text : Text) (previous : Option SyntaxTree) (edits : List Edit) :
    ParseOutput × Parser :=
  match parser with
  | ⟨grammar, store, external, options, last⟩ =>
    let (earlier, store) := consider grammar options last previous text edits store.trim
    let run (reuse : Option ReuseCursor) (store : Store) : ParseOutput × Parser :=
      let parsed : StateM Store (Subtree × ParseStatus × ParseStats) :=
        runJob ⟨⟨grammar, external⟩, text⟩ options reuse
      let ((root, status, stats), store) := parsed store
      let last := if status = .complete then some (root, text) else none
      (.ofTree ⟨root, grammar⟩ text status stats, ⟨grammar, store, external, options, last⟩)
    match earlier with
    | .unchanged tree =>
      (.ofTree tree text .complete .none, ⟨grammar, store, external, options, last⟩)
    | .edited root => run (some (.ofRoot root)) store
    | .useless => run none store

end Parser

end IncrementalGlr
