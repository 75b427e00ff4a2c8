import IncrementalGlr.Tree.Subtree

/-!
# Syntax trees

A syntax tree is a subtree that spans a whole text, together with the grammar of the text.
-/

namespace IncrementalGlr

/-- A parsed text. -/
structure SyntaxTree where
  /-- The subtree of the whole text. -/
  root : Subtree
  /-- The grammar of the text. -/
  grammar : Grammar

namespace SyntaxTree

/-- Length of the text. -/
def length (tree : SyntaxTree) : Nat := tree.root.length

end SyntaxTree

mutual

/-- The ranges of the outermost errors in a subtree that stands at `start`. -/
def Subtree.errorRanges (start : Nat) : Subtree → List Span
  | .mk data children =>
    if data.flags.error then [⟨start, start + data.length⟩]
    else Subtree.errorRangesAll start children

/-- The ranges of the outermost errors in subtrees that stand one after the other.  Subtrees that
store no errors are passed over. -/
def Subtree.errorRangesAll (start : Nat) : List Subtree → List Span
  | [] => []
  | child :: rest =>
    (if child.storesErrors then child.errorRanges start else []) ++
      Subtree.errorRangesAll (start + child.length) rest

end

namespace SyntaxTree

/-- The ranges of the outermost errors in the order of the text. -/
def errorRanges (tree : SyntaxTree) : List Span :=
  if tree.root.storesErrors then tree.root.errorRanges 0 else []

end SyntaxTree

end IncrementalGlr
