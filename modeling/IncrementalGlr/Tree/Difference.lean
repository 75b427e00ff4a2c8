import IncrementalGlr.Tree.Basic

/-!
# Differences between trees

Two trees of nearly the same text are compared from the top.  Where they hold the same object at
the same place nothing differs; where they agree in shape the comparison goes on below; everywhere
else the text of both is a difference.
-/

namespace IncrementalGlr

namespace Subtree

/-- Whether two subtrees agree in all that can be seen without looking below them. -/
def sameShape (left right : Subtree) : Bool :=
  left.symbol = right.symbol && left.length == right.length && left.isLeaf == right.isLeaf &&
    left.isExtra == right.isExtra && left.children.length == right.children.length

mutual

/-- The ranges in which an old subtree and a new one differ, each at its start. -/
def differences (oldStart newStart : Nat) : Subtree → Subtree → List Span
  | mk old oldChildren, new =>
    let whole := mk old oldChildren
    if oldStart == newStart && whole.same new then []
    else if oldStart == newStart && whole.sameShape new then
      if old.flags.leaf then
        if old.flags.hasChanges then [⟨newStart, newStart + new.length⟩] else []
      else differencesAll oldStart newStart oldChildren new.children
    else [⟨min oldStart newStart, max (oldStart + old.length) (newStart + new.length)⟩]

/-- The differences of two lists of subtrees, taken in pairs. -/
def differencesAll (oldStart newStart : Nat) : List Subtree → List Subtree → List Span
  | old :: oldRest, new :: newRest =>
    old.differences oldStart newStart new ++
      differencesAll (oldStart + old.length) (newStart + new.length) oldRest newRest
  | _, _ => []

end

end Subtree

namespace Span

/-- Adds a range to ranges listed from the last to the first; it is merged with the last one if
they overlap or touch. -/
def pushMerged (ranges : List Span) (range : Span) : List Span :=
  match ranges with
  | last :: before => if range.start ≤ last.stop then last.cover range :: before else range :: ranges
  | [] => [range]

end Span

namespace SyntaxTree

/-- The ranges whose structure differs between a tree, already edited, and the tree of the edited
text. -/
def changedRanges (old new : SyntaxTree) : List Span :=
  ((old.root.differences 0 0 new.root).foldl Span.pushMerged []).reverse

end SyntaxTree

end IncrementalGlr
