import IncrementalGlr.Text.Utf8

/-!
# Defects of compiled grammars

Every reason for which a compiled grammar is refused, with the words in which it is reported.
-/

namespace IncrementalGlr

/-- What is wrong with a symbol of a compiled grammar. -/
inductive SymbolDefect
  /-- The byte that gives its kind has no meaning. -/
  | unknownKind
  /-- End, terminals and nonterminals do not stand in that order. -/
  | misplaced
  /-- The start symbol is no nonterminal. -/
  | startNotNonterminal
  /-- A lexical rule recognises something other than a lexical terminal. -/
  | lexRuleForOther
  /-- A production defines something other than a nonterminal. -/
  | productionForTerminal
  /-- A lexical state lists something other than a terminal. -/
  | nonterminalInLexState
  /-- The parse table acts on something other than a terminal. -/
  | actionOnNonterminal
  /-- The parse table has a goto on something other than a nonterminal. -/
  | gotoOnTerminal
  deriving DecidableEq, Inhabited

namespace SymbolDefect

/-- The defect in words. -/
def message : SymbolDefect → String
  | unknownKind => "unknown symbol kind"
  | misplaced => "symbol kind does not match its position"
  | startNotNonterminal => "start symbol must be a nonterminal"
  | lexRuleForOther => "lexical rule for a symbol that is not a lexical terminal"
  | productionForTerminal => "production for a terminal"
  | nonterminalInLexState => "lexical state contains a nonterminal"
  | actionOnNonterminal => "action on a nonterminal"
  | gotoOnTerminal => "goto on a terminal"

end SymbolDefect

/-- What else is wrong with the contents of a compiled grammar. -/
inductive Malformation
  /-- No symbol, or so many that an id would be the error symbol's. -/
  | symbolCount (count : Nat)
  /-- No terminal, or more terminals than symbols. -/
  | terminalCount (count : Nat)
  /-- No state, or more states than ids. -/
  | stateCount (count : Nat)
  /-- A state looks for the terminals of a lexical state that does not exist. -/
  | missingLexState (source : Nat) (lexState : Nat)
  /-- A count that has to fit sixteen bits does not. -/
  | countTooLarge (count : Nat)
  /-- A name is not UTF-8. -/
  | nameEncoding (error : Utf8Error)
  /-- The byte that gives the kind of a pattern has no meaning. -/
  | unknownPatternKind (kind : Nat)
  /-- The byte that gives the kind of an action has no meaning. -/
  | unknownActionTag (tag : Nat)
  /-- Bytes follow the end of the table. -/
  | trailingBytes (count : Nat)
  deriving DecidableEq, Inhabited

namespace Malformation

/-- The defect in words. -/
def message : Malformation → String
  | symbolCount count => "unsupported symbol count " ++ toString count
  | terminalCount count => "invalid terminal count " ++ toString count
  | stateCount count => "unsupported state count " ++ toString count
  | missingLexState source lexState =>
    "state " ++ toString source ++ " refers to missing lexical state " ++ toString lexState
  | countTooLarge count =>
    "count " ++ toString count ++
      " is too large: number too large to fit in target type"
  | nameEncoding error => "invalid UTF-8 in name: " ++ error.message
  | unknownPatternKind kind => "unknown pattern kind " ++ toString kind
  | unknownActionTag tag => "unknown action tag " ++ toString tag
  | trailingBytes count => toString count ++ " unexpected trailing bytes"

end Malformation

/-- Why a compiled grammar is refused. -/
inductive LoadError
  /-- The bytes end before the table does. -/
  | truncated (offset : Nat)
  /-- The bytes do not begin like a compiled grammar. -/
  | badMagic
  /-- The layout is of another version. -/
  | unsupportedVersion (found : UInt16) (expected : UInt16)
  /-- The bytes do not have the checksum they claim. -/
  | checksumMismatch (stored : UInt32) (computed : UInt32)
  /-- Header and table disagree about the number of symbols. -/
  | symbolCount (header : Nat) (actual : Nat)
  /-- A symbol cannot be what the grammar makes of it. -/
  | invalidSymbol (symbol : UInt16) (defect : SymbolDefect)
  /-- A state refers to a state that does not exist. -/
  | invalidState (state : UInt16) (source : Nat)
  /-- A state refers to a production that does not exist. -/
  | invalidProduction (production : UInt16) (source : Nat)
  /-- A regular expression cannot be compiled; the name is that of its terminal. -/
  | invalidPattern (name : String)
  /-- Anything else. -/
  | malformed (defect : Malformation)
  deriving DecidableEq, Inhabited

namespace LoadError

/-- A word of 32 bits as eight hexadecimal digits behind their mark. -/
def hexWord (word : UInt32) : String :=
  let digits := Nat.toDigits 16 word.toNat
  String.ofList ('0' :: 'x' :: List.replicate (8 - digits.length) '0' ++ digits)

/-- The error in words; what is wrong with a regular expression is not said. -/
def message : LoadError → String
  | truncated offset => "grammar blob is truncated at byte " ++ toString offset
  | badMagic => "not a grammar blob (bad magic)"
  | unsupportedVersion found expected =>
    "unsupported grammar format version " ++ toString found.toNat ++ ", expected " ++
      toString expected.toNat
  | checksumMismatch stored computed =>
    "grammar checksum mismatch: stored " ++ hexWord stored ++ ", computed " ++ hexWord computed
  | symbolCount header actual =>
    "grammar declares " ++ toString header ++ " symbols but contains " ++ toString actual
  | invalidSymbol symbol defect =>
    "invalid symbol " ++ toString symbol.toNat ++ ": " ++ defect.message
  | invalidState state source =>
    "invalid parse state reference " ++ toString state.toNat ++ " in state " ++ toString source
  | invalidProduction production source =>
    "invalid production " ++ toString production.toNat ++ " in state " ++ toString source
  | invalidPattern name => "pattern for `" ++ name ++ "` does not compile"
  | malformed defect => "malformed grammar: " ++ defect.message

end LoadError

end IncrementalGlr
