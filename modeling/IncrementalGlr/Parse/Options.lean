/-!
# How a parse is asked for and what becomes of it
-/

namespace IncrementalGlr

/-- What can be asked of a parse. -/
structure ParseOptions where
  /-- Stop after this many steps. -/
  maxOperations : Option Nat
  /-- Stop once the time is over.  What the clock shows is not up to the parse: this is the number of
  steps after which the time of the parses to come is over. -/
  deadline : Option Nat
  /-- Take over parts of an earlier tree if one is given. -/
  reuse : Bool
  deriving DecidableEq

namespace ParseOptions

/-- No limits, and earlier trees are used. -/
def standard : ParseOptions := ⟨none, none, true⟩

instance : Inhabited ParseOptions := ⟨standard⟩

/-- Number of steps after which the clock is looked at again. -/
def deadlineInterval : Nat := 64

/-- Whether a parse that has made so many steps looks at the clock and sees that the time is over. -/
def isOver (deadline : Option Nat) (made : Nat) : Bool :=
  made % deadlineInterval == 0 && deadline.any (· ≤ made)

theorem isOver_none (made : Nat) : isOver none made = false := Bool.and_false _

theorem isOver_eq_false {deadline : Option Nat} {made : Nat}
    (early : ∀ due ∈ deadline, made < due) : isOver deadline made = false := by
  refine Bool.and_eq_false_imp.2 fun _ => (Option.any_eq_false _ _).2 fun due given => ?_
  exact decide_eq_false (Nat.not_le.2 (early due given))

end ParseOptions

/-- Why a parse stopped before its end. -/
inductive Cancelled
  /-- The time was over. -/
  | deadline
  /-- The limit on the number of steps was reached. -/
  | operationLimit
  deriving DecidableEq, Inhabited

namespace Cancelled

/-- The reason in words. -/
def message : Cancelled → String
  | deadline => "parse deadline exceeded"
  | operationLimit => "parse exceeded its operation limit"

end Cancelled

/-- Whether a parse came to its end. -/
inductive ParseStatus
  /-- The whole text was parsed. -/
  | complete
  /-- The tree spans the whole text, but all of it after the point where the parse stopped is one
  error. -/
  | cancelled (reason : Cancelled)
  deriving DecidableEq, Inhabited

/-- The work that a parse did. -/
structure ParseStats where
  /-- Number of subtrees taken over from an earlier tree. -/
  reused : Nat
  /-- Number of tokens found. -/
  lexed : Nat
  /-- Whether no earlier tree could be used. -/
  full : Bool
  deriving DecidableEq, Inhabited

namespace ParseStats

/-- No work. -/
def none : ParseStats := ⟨0, 0, false⟩

/-- One more subtree taken over. -/
def countReused (stats : ParseStats) : ParseStats := { stats with reused := stats.reused + 1 }

/-- One more token found. -/
def countLexed (stats : ParseStats) : ParseStats := { stats with lexed := stats.lexed + 1 }

end ParseStats

end IncrementalGlr
