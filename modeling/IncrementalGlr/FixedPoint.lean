/-!
# Iteration up to a fixed point

Analyses that grow until nothing changes are repeated steps.  The number of steps is bounded by the
number of times that the result can grow.
-/

namespace IncrementalGlr

/-- Repeats a step until it changes nothing, at most the given number of times. -/
def iterateUntilStable {α : Type} [BEq α] (step : α → α) : Nat → α → α
  | 0, value => value
  | bound + 1, value =>
    let next := step value
    if next == value then value else iterateUntilStable step bound next

/-! ## Sorting by insertion

Short lists are sorted by inserting their members one after the other.  Members that compare equal
keep their order. -/

/-- Inserts a member before the first one that is not smaller. -/
def insertSorted {α : Type} (le : α → α → Bool) (member : α) : List α → List α
  | [] => [member]
  | first :: rest =>
    if le member first then member :: first :: rest
    else first :: insertSorted le member rest

/-- The members of a list in ascending order. -/
def sortBy {α : Type} (le : α → α → Bool) (members : List α) : List α :=
  members.foldr (insertSorted le) []

end IncrementalGlr
