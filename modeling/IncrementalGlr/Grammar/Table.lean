import IncrementalGlr.Grammar.Blob
import IncrementalGlr.Grammar.Data
import IncrementalGlr.Grammar.LoadError
import IncrementalGlr.Pattern.Reader
import IncrementalGlr.Pattern.Scan
import IncrementalGlr.Symbol
import IncrementalGlr.Text.Quoted

/-!
# Loaded grammars

A loaded grammar keeps the contents of a compiled grammar in tables for constant-time access.  The
actions of all states lie in one list; a cell for each state and terminal says which part of the
list belongs to it.
-/

namespace IncrementalGlr

/-! ## Validity of compiled grammars

The first defect of a compiled grammar, in a fixed order: counts, symbols, start symbol, lexical
rules, productions, lexical states and then the states of the parse table one by one.
-/

namespace GrammarData

/-- Whether a symbol is a nonterminal of the grammar. -/
def isNonterminal (data : GrammarData) (symbol : Symbol) : Bool :=
  data.terminalCount.toNat ≤ symbol.index && symbol.index < data.symbols.length

/-- Whether a symbol is a terminal of the grammar, the end of input included. -/
def isTerminal (data : GrammarData) (symbol : Symbol) : Bool :=
  symbol.index < data.terminalCount.toNat

/-- The defect of the counts. -/
def countDefect? (data : GrammarData) : Option LoadError :=
  let symbols := data.symbols.length
  let terminals := data.terminalCount.toNat
  let states := data.states.length
  if symbols = 0 ∨ 65535 ≤ symbols then some (.malformed (.symbolCount symbols))
  else if terminals = 0 ∨ symbols < terminals then some (.malformed (.terminalCount terminals))
  else if states = 0 ∨ 65535 ≤ states then some (.malformed (.stateCount states))
  else none

/-- Whether a symbol of the given index may be of a kind. -/
def kindFits (data : GrammarData) (index : Nat) (kind : SymbolKind) : Bool :=
  if index = 0 then kind = .endOfInput
  else if index < data.terminalCount.toNat then kind.isTerminal && kind ≠ .endOfInput
  else kind = .nonterminal

/-- The defect of a symbol at its index. -/
def symbolDefect? (data : GrammarData) (entry : SymbolInfo × Nat) : Option LoadError :=
  if data.kindFits entry.2 entry.1.kind then none
  else some (.invalidSymbol (UInt16.ofNat entry.2) .misplaced)

/-- The defect of the start symbol. -/
def startDefect? (data : GrammarData) : Option LoadError :=
  if data.isNonterminal data.startSymbol then none
  else some (.invalidSymbol data.startSymbol.id .startNotNonterminal)

/-- The defect of a lexical rule. -/
def lexRuleDefect? (data : GrammarData) (rule : LexRule) : Option LoadError :=
  if (data.symbols[rule.symbol.index]?).map SymbolInfo.kind = some .terminal then none
  else some (.invalidSymbol rule.symbol.id .lexRuleForOther)

/-- The defect of a production. -/
def productionDefect? (data : GrammarData) (production : Production) : Option LoadError :=
  if data.isNonterminal production.lhs then none
  else some (.invalidSymbol production.lhs.id .productionForTerminal)

/-- The defect of a lexical state. -/
def lexStateDefect? (data : GrammarData) (symbols : List Symbol) : Option LoadError :=
  (symbols.find? fun symbol => !data.isTerminal symbol).map fun symbol =>
    .invalidSymbol symbol.id .nonterminalInLexState

/-- The defect of an action of a state. -/
def actionDefect? (data : GrammarData) (source : Nat) : Action → Option LoadError
  | .shift target =>
    if target.index < data.states.length then none else some (.invalidState target.id source)
  | .reduce production =>
    if production.index < data.productions.length then none
    else some (.invalidProduction production.id source)
  | .accept => none

/-- The defect of a state's actions on one terminal. -/
def cellDefect? (data : GrammarData) (source : Nat) (entry : Symbol × List Action) :
    Option LoadError :=
  if data.isTerminal entry.1 then entry.2.findSome? (data.actionDefect? source)
  else some (.invalidSymbol entry.1.id .actionOnNonterminal)

/-- The defect of a goto of a state. -/
def gotoDefect? (data : GrammarData) (source : Nat) (entry : Symbol × StateId) :
    Option LoadError :=
  if !data.isNonterminal entry.1 then some (.invalidSymbol entry.1.id .gotoOnTerminal)
  else if entry.2.index < data.states.length then none
  else some (.invalidState entry.2.id source)

/-- The defect of a state at its index. -/
def stateDefect? (data : GrammarData) (entry : StateData × Nat) : Option LoadError :=
  if data.lexStates.length ≤ entry.1.lexState.index then
    some (.malformed (.missingLexState entry.2 entry.1.lexState.index))
  else
    (entry.1.actions.findSome? (data.cellDefect? entry.2)).or
      (entry.1.gotos.findSome? (data.gotoDefect? entry.2))

/-- The first defect of a compiled grammar. -/
def defect? (data : GrammarData) : Option LoadError :=
  data.countDefect?
    |>.or (data.symbols.zipIdx.findSome? data.symbolDefect?)
    |>.or data.startDefect?
    |>.or (data.lexRules.findSome? data.lexRuleDefect?)
    |>.or (data.productions.findSome? data.productionDefect?)
    |>.or (data.lexStates.findSome? data.lexStateDefect?)
    |>.or (data.states.zipIdx.findSome? data.stateDefect?)

end GrammarData

/-! ## Lexical rules ready for use

The patterns of all lexical rules of a grammar, in the order of the rules. -/

/-- The compiled lexical rules of a grammar. -/
structure Lexicon where
  /-- The pattern of each rule. -/
  patterns : List Pattern
  deriving Inhabited

namespace TokenPattern

/-- What the pattern means; a text means itself, a regular expression may be malformed. -/
def compile? : TokenPattern → Option Pattern
  | literal source => some (Pattern.ofChars source.toList)
  | regex source => Pattern.read? source

end TokenPattern

namespace Lexicon

/-- The name under which all rules together are refused. -/
def name : String := "<lexer>"

/-- Compiles lexical rules.  The first malformed rule is refused under the name of its symbol.
Tokens are found byte by byte, so word boundaries that know all scripts are refused as well. -/
def compile (nameOf : Symbol → String) (rules : List LexRule) : Except LoadError Lexicon := do
  let patterns ← rules.mapM fun rule =>
    match rule.pattern.compile? with
    | some pattern => .ok pattern
    | none => .error (.invalidPattern (nameOf rule.symbol))
  if patterns.any Pattern.usesAllScripts then throw (.invalidPattern name)
  return ⟨patterns⟩

/-- Every rule and every nonempty length at which it matches from an offset on. -/
def scan (lexicon : Lexicon) (text : Text) (offset : Nat) : Scan :=
  Scan.run lexicon.patterns text offset

end Lexicon

/-! ## Loaded grammars -/

/-- The part of the list of actions that belongs to a state and a terminal. -/
structure Cell where
  /-- Position of the first action. -/
  start : Nat
  /-- Number of actions. -/
  size : Nat
  deriving DecidableEq, Inhabited

namespace Cell

/-- The cell without actions. -/
def empty : Cell := ⟨0, 0⟩

end Cell

/-- The actions of all states. -/
structure ActionTable where
  /-- A cell for each state and terminal, state by state. -/
  cells : Array Cell
  /-- The actions of all cells. -/
  actions : Array Action
  deriving Inhabited

namespace ActionTable

/-- Adds the actions of one state on one terminal; they replace earlier ones. -/
def insert (terminals state : Nat) (table : ActionTable) (entry : Symbol × List Action) :
    ActionTable where
  cells := table.cells.setIfInBounds (state * terminals + entry.1.index)
    ⟨table.actions.size, entry.2.length⟩
  actions := table.actions ++ entry.2

/-- The table of the given states. -/
def ofStates (terminals : Nat) (states : List StateData) : ActionTable :=
  states.zipIdx.foldl
    (fun table (state, index) => state.actions.foldl (insert terminals index) table)
    ⟨Array.replicate (states.length * terminals) Cell.empty, #[]⟩

/-- The actions in a cell. -/
def read (table : ActionTable) (position : Nat) : List Action :=
  match table.cells[position]? with
  | some cell =>
    (table.actions.extract cell.start (cell.start + cell.size)).toList
  | none => []

end ActionTable

namespace GotoTable

/-- The gotos of the given states, state by state with one entry for each nonterminal. -/
def ofStates (terminals nonterminals : Nat) (states : List StateData) :
    Array (Option StateId) :=
  states.zipIdx.foldl
    (fun table (state, index) =>
      state.gotos.foldl
        (fun table (symbol, target) =>
          table.setIfInBounds (index * nonterminals + (symbol.index - terminals)) (some target))
        table)
    (Array.replicate (states.length * nonterminals) none)

end GotoTable

/-- A grammar that is ready for use. -/
structure Grammar where
  /-- The contents of the compiled grammar. -/
  data : GrammarData
  /-- The checksum of its binary form. -/
  checksum : UInt32
  /-- The symbols by id. -/
  symbols : Array SymbolInfo
  /-- The actions of all states. -/
  actionTable : ActionTable
  /-- The gotos of all states. -/
  gotoTable : Array (Option StateId)
  /-- The productions by id. -/
  productions : Array Production
  /-- The lexical state of each state. -/
  lexStateTable : Array LexStateId
  /-- The lexical rules by their order. -/
  lexRules : Array LexRule
  /-- The terminals valid in each lexical state. -/
  validTable : Array SymbolSet
  /-- Whether a lexical state has terminals for an external scanner. -/
  externalTable : Array Bool
  /-- All terminals but the end of input. -/
  allTerminals : SymbolSet
  /-- The compiled lexical rules. -/
  lexicon : Lexicon
  deriving Inhabited

namespace Grammar

/-- The name of error nodes. -/
def errorName : String := "ERROR"

/-- Whether a symbol of the grammar's list is left to an external scanner. -/
def isExternal (symbols : Array SymbolInfo) (symbol : Symbol) : Bool :=
  (symbols[symbol.index]?).any fun info => info.kind = .external

/-- Checks the contents of a compiled grammar and builds its tables. -/
def withChecksum (data : GrammarData) (checksum : UInt32) : Except LoadError Grammar := do
  if let some defect := data.defect? then throw defect
  let terminals := data.terminalCount.toNat
  let symbols := data.symbols.toArray
  let lexicon ← Lexicon.compile
    (fun symbol => ((symbols[symbol.index]?).map SymbolInfo.name).getD "") data.lexRules
  return {
    data, checksum, symbols, lexicon
    actionTable := .ofStates terminals data.states
    gotoTable := GotoTable.ofStates terminals (data.symbols.length - terminals) data.states
    productions := data.productions.toArray
    lexStateTable := (data.states.map StateData.lexState).toArray
    lexRules := data.lexRules.toArray
    validTable := (data.lexStates.map SymbolSet.ofList).toArray
    externalTable := (data.lexStates.map fun list => list.any (isExternal symbols)).toArray
    allTerminals := .ofList ((List.range terminals).tail.map Symbol.ofIndex) }

/-- The grammar of given contents. -/
def ofData (data : GrammarData) : Except LoadError Grammar :=
  withChecksum data (Checksum.ofBytes (Blob.body data))

/-- The grammar of a binary form. -/
def ofBytes (bytes : List UInt8) : Except LoadError Grammar := do
  let (data, checksum) ← Blob.decodeWithChecksum bytes
  withChecksum data checksum

/-- The binary form of the grammar. -/
def toBytes (grammar : Grammar) : List UInt8 := Blob.encode grammar.data

/-- The name of the language. -/
def name (grammar : Grammar) : String := grammar.data.name

/-- Number of symbols. -/
def symbolCount (grammar : Grammar) : Nat := grammar.symbols.size

/-- Number of terminals, the end of input included. -/
def terminalCount (grammar : Grammar) : Nat := grammar.data.terminalCount.toNat

/-- Number of states of the parse table. -/
def stateCount (grammar : Grammar) : Nat := grammar.lexStateTable.size

/-- The nonterminal of whole texts. -/
def startSymbol (grammar : Grammar) : Symbol := grammar.data.startSymbol

/-- All actions of a state on a symbol in order of preference.  None means a syntax error, more
than one an ambiguity. -/
def actions (grammar : Grammar) (state : StateId) (symbol : Symbol) : List Action :=
  if grammar.terminalCount ≤ symbol.index then []
  else grammar.actionTable.read (state.index * grammar.terminalCount + symbol.index)

/-- The preferred action of a state on a symbol. -/
def action? (grammar : Grammar) (state : StateId) (symbol : Symbol) : Option Action :=
  (grammar.actions state symbol).head?

/-- The state entered from a state after a reduction to a symbol. -/
def goto? (grammar : Grammar) (state : StateId) (symbol : Symbol) : Option StateId :=
  let nonterminals := grammar.symbolCount - grammar.terminalCount
  if symbol.index < grammar.terminalCount then none
  else if nonterminals ≤ symbol.index - grammar.terminalCount then none
  else
    (grammar.gotoTable[state.index * nonterminals + (symbol.index - grammar.terminalCount)]?).join

/-- A production by its id. -/
def production (grammar : Grammar) (production : ProductionId) : Production :=
  (grammar.productions[production.index]?).getD default

/-- The lexical state of a state. -/
def lexState (grammar : Grammar) (state : StateId) : LexStateId :=
  (grammar.lexStateTable[state.index]?).getD default

/-- The terminals that may be found in a lexical state. -/
def validSymbols (grammar : Grammar) (lexState : LexStateId) : SymbolSet :=
  if lexState = .errorMode then grammar.allTerminals
  else (grammar.validTable[lexState.index]?).getD .empty

/-- Whether an external scanner is to be asked first in a lexical state. -/
def hasExternalSymbols (grammar : Grammar) (lexState : LexStateId) : Bool :=
  if lexState = .errorMode then grammar.symbols.any fun info => info.kind = .external
  else (grammar.externalTable[lexState.index]?).getD false

/-- Name and properties of a symbol; the error symbol has none. -/
def symbolInfo? (grammar : Grammar) (symbol : Symbol) : Option SymbolInfo :=
  grammar.symbols[symbol.index]?

/-- The name of a symbol. -/
def symbolName (grammar : Grammar) (symbol : Symbol) : String :=
  ((grammar.symbolInfo? symbol).map SymbolInfo.name).getD errorName

/-- Whether a symbol is a terminal. -/
def isTerminal (grammar : Grammar) (symbol : Symbol) : Bool :=
  symbol.index < grammar.terminalCount

/-- Whether a symbol may stand anywhere between tokens. -/
def isExtra (grammar : Grammar) (symbol : Symbol) : Bool :=
  (grammar.symbolInfo? symbol).any SymbolInfo.extra

/-- Whether a symbol is shown in trees; errors always are. -/
def isVisible (grammar : Grammar) (symbol : Symbol) : Bool :=
  (grammar.symbolInfo? symbol).all SymbolInfo.visible

/-- Whether a symbol is named; errors always are. -/
def isNamed (grammar : Grammar) (symbol : Symbol) : Bool :=
  (grammar.symbolInfo? symbol).all SymbolInfo.named

/-- The first symbol with a name, which may belong to a named and to an anonymous symbol. -/
def symbolForName? (grammar : Grammar) (name : String) (named : Bool) : Option Symbol :=
  if named && name == errorName then some .error
  else
    ((grammar.data.symbols.zipIdx.drop 1).find? fun (info, _) =>
      info.name == name && info.named == named).map fun (_, index) => Symbol.ofIndex index

/-- The grammar in a few words, as in debugging output. -/
def describe (grammar : Grammar) : String :=
  "Grammar \x7b name: " ++ Quoted.ofString grammar.name ++ ", symbols: " ++
    toString grammar.symbolCount ++ ", states: " ++ toString grammar.stateCount ++ ", .. \x7d"

end Grammar

end IncrementalGlr
