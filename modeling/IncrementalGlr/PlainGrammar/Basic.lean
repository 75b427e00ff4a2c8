import IncrementalGlr.Grammar.Data
import IncrementalGlr.Rule.Basic

/-!
# Plain grammars

A grammar reduced to numbered symbols and productions, each of which replaces its left-hand side by
a sequence of symbols.
-/

namespace IncrementalGlr

/-- A production with everything that decides its conflicts. -/
structure PlainProduction where
  /-- The symbol that is defined. -/
  lhs : Symbol
  /-- The symbols it may be replaced by. -/
  rhs : List Symbol
  /-- Precedence in conflicts. -/
  precedence : Int
  /-- What decides between equal precedences. -/
  associativity : Option Associativity
  /-- Preference among readings of ambiguous text. -/
  dynamicPrecedence : Int
  deriving DecidableEq, Inhabited

namespace PlainProduction

/-- Whether two productions are equal.  What tells most of them apart is compared first. -/
def same (left right : PlainProduction) : Bool :=
  left.lhs == right.lhs && left.dynamicPrecedence == right.dynamicPrecedence &&
    left.rhs == right.rhs && left.precedence == right.precedence &&
    left.associativity == right.associativity

theorem same_iff {left right : PlainProduction} : left.same right = true ↔ left = right := by
  cases left
  cases right
  simp only [same, Bool.and_eq_true, beq_iff_eq, mk.injEq]
  grind

instance : BEq PlainProduction := ⟨same⟩

instance : LawfulBEq PlainProduction where
  eq_of_beq equal := same_iff.1 equal
  rfl := same_iff.2 rfl

end PlainProduction

/-- A grammar of numbered symbols and productions. -/
structure PlainGrammar where
  /-- Name of the language. -/
  name : String
  /-- The symbols: the end of input, then terminals, then nonterminals. -/
  symbols : List SymbolInfo
  /-- Number of terminals, the end of input included. -/
  terminalCount : Nat
  /-- The nonterminal of whole texts. -/
  start : Symbol
  /-- The rules that recognise terminals. -/
  lexRules : List LexRule
  /-- The productions in the order of their ids. -/
  productions : List PlainProduction
  /-- Terminals that may stand anywhere. -/
  extras : List Symbol
  /-- Sets of symbols whose conflicts are intended. -/
  expectedConflicts : List (List Symbol)
  deriving Inhabited

namespace PlainGrammar

/-- Whether a symbol is a terminal. -/
def isTerminal (grammar : PlainGrammar) (symbol : Symbol) : Bool :=
  symbol.index < grammar.terminalCount

/-- The name of a symbol. -/
def symbolName (grammar : PlainGrammar) (symbol : Symbol) : String :=
  ((grammar.symbols[symbol.index]?).map SymbolInfo.name).getD "ERROR"

end PlainGrammar

end IncrementalGlr
