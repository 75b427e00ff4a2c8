import IncrementalGlr.Symbol

/-!
# Compiled grammars

The plain contents of a compiled grammar: symbols, lexical rules, productions, lexical states and
the parse table with its actions and gotos.
-/

namespace IncrementalGlr

/-- One step the parse table allows. -/
inductive Action
  /-- Consume the lookahead and enter a state. -/
  | shift (target : StateId)
  /-- Replace the right-hand side of a production by its left-hand side. -/
  | reduce (production : ProductionId)
  /-- The input is a sentence. -/
  | accept
  deriving DecidableEq, Inhabited

/-- What the parser needs to know of a production. -/
structure Production where
  /-- The symbol the production defines. -/
  lhs : Symbol
  /-- Number of children that are not extras. -/
  length : UInt16
  /-- Preference among readings of ambiguous text. -/
  dynamicPrecedence : Int16
  deriving DecidableEq, Inhabited

/-- How the text of a terminal looks. -/
inductive TokenPattern
  /-- Exactly the given text. -/
  | literal (source : String)
  /-- Any text a regular expression matches. -/
  | regex (source : String)
  deriving DecidableEq, Inhabited

namespace TokenPattern

/-- Whether the pattern is a fixed text. -/
def isLiteral : TokenPattern → Bool
  | literal _ => true
  | regex _ => false

/-- The text of the pattern as it was written. -/
def source : TokenPattern → String
  | literal source => source
  | regex source => source

end TokenPattern

/-- A rule that recognises a terminal. -/
structure LexRule where
  /-- The recognised terminal. -/
  symbol : Symbol
  /-- How its text looks. -/
  pattern : TokenPattern
  /-- Among matches of equal length the higher precedence wins. -/
  precedence : Int16
  deriving DecidableEq, Inhabited

/-- One state of the parse table. -/
structure StateData where
  /-- Terminals to look for in the state. -/
  lexState : LexStateId
  /-- Actions by terminal; a terminal without entry is a syntax error. -/
  actions : List (Symbol × List Action)
  /-- States entered after a reduction to a nonterminal. -/
  gotos : List (Symbol × StateId)
  deriving DecidableEq, Inhabited

/-- The contents of a compiled grammar. -/
structure GrammarData where
  /-- Name of the language. -/
  name : String
  /-- The symbols in the order of their ids. -/
  symbols : List SymbolInfo
  /-- Number of terminals, the end of input included. -/
  terminalCount : UInt16
  /-- The nonterminal of whole texts. -/
  startSymbol : Symbol
  /-- The rules that recognise terminals, in order of preference. -/
  lexRules : List LexRule
  /-- The productions in the order of their ids. -/
  productions : List Production
  /-- Terminals valid in each lexical state. -/
  lexStates : List (List Symbol)
  /-- The states of the parse table in the order of their ids. -/
  states : List StateData
  deriving DecidableEq, Inhabited

end IncrementalGlr
