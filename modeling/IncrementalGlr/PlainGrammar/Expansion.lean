import IncrementalGlr.PlainGrammar.Basic
import IncrementalGlr.PlainGrammar.Terminal

/-!
# From descriptions to plain grammars

A rule expression is expanded into the alternatives it stands for.  Sequences multiply the
alternatives of their members; a repetition becomes a hidden nonterminal of its own, which refers
to itself on the left.
-/

namespace IncrementalGlr

/-- One way to expand a rule expression. -/
structure Alternative where
  /-- The symbols of the expansion. -/
  symbols : List Symbol
  /-- Precedence in conflicts, if one is given. -/
  precedence : Option (Int × Option Associativity)
  /-- Preference among readings of ambiguous text. -/
  dynamicPrecedence : Int
  deriving DecidableEq, Inhabited

namespace Alternative

/-- The empty expansion. -/
def blank : Alternative := ⟨[], none, 0⟩

/-- The expansion to one symbol. -/
def single (symbol : Symbol) : Alternative := ⟨[symbol], none, 0⟩

/-- A sum of dynamic precedences: the lowest 32 bits of it, read with their sign. -/
def sum (left right : Int) : Int := (Int32.ofInt (left + right)).toInt

/-- Whether 32 bits are too few for a sum of dynamic precedences. -/
def overflows (left right : Int) : Bool := sum left right ≠ left + right

/-- One expansion after the other.  The first precedence wins, dynamic ones add up. -/
def append (left right : Alternative) : Alternative where
  symbols := left.symbols ++ right.symbols
  precedence := left.precedence.or right.precedence
  dynamicPrecedence := sum left.dynamicPrecedence right.dynamicPrecedence

/-- Every expansion of the first list followed by every one of the second. -/
def product (left right : List Alternative) : List Alternative :=
  left.flatMap fun first => right.map first.append

/-- Whether 32 bits are too few for one of the sums in a product. -/
def productOverflows (left right : List Alternative) : Bool :=
  left.any fun first => right.any fun second =>
    overflows first.dynamicPrecedence second.dynamicPrecedence

/-- Gives a precedence to an expansion that has none yet; inner precedences win over outer ones. -/
def withPrecedence (value : Int) (associativity : Option Associativity)
    (alternative : Alternative) : Alternative :=
  { alternative with precedence := alternative.precedence.or (some (value, associativity)) }

/-- Adds to the dynamic precedence of an expansion. -/
def addDynamic (value : Int) (alternative : Alternative) : Alternative :=
  { alternative with dynamicPrecedence := sum alternative.dynamicPrecedence value }

/-- The production that makes a symbol expand in this way. -/
def toProduction (lhs : Symbol) (alternative : Alternative) : PlainProduction :=
  let (precedence, associativity) := alternative.precedence.getD (0, none)
  ⟨lhs, alternative.symbols, precedence, associativity, alternative.dynamicPrecedence⟩

end Alternative

/-- What the expansion of rules has produced so far. -/
structure Expansion where
  /-- All symbols, the helpers of repetitions last. -/
  symbols : Array SymbolInfo
  /-- The productions, each once. -/
  productions : Array PlainProduction
  /-- Number of repetitions met. -/
  repetitions : Nat
  /-- Whether 32 bits were too few for a sum of dynamic precedences. -/
  overflowed : Bool
  deriving Inhabited

namespace Expansion

/-- The names under which the expansion looks up symbols. -/
structure Scope where
  /-- The terminals of the description. -/
  terminals : Terminals
  /-- The names of the nonterminals in order. -/
  nonterminals : List String
  deriving Inhabited

namespace Scope

/-- Number of terminals, the end of input included. -/
def terminalCount (scope : Scope) : Nat := scope.terminals.list.length + 1

/-- The symbol of a name. -/
def symbol? (scope : Scope) (name : String) : Option Symbol :=
  match scope.nonterminals.findIdx? fun other => other == name with
  | some index => some (.ofIndex (scope.terminalCount + index))
  | none => (scope.terminals.find? (.named name)).map fun index => .ofIndex (index + 1)

/-- The symbol of a token written inside a rule. -/
def terminal (scope : Scope) (owner : String) (rule : Rule) : Except CompileError Symbol := do
  let (key, _) ← Terminals.inlineKey owner rule
  match scope.terminals.find? key with
  | some index => return .ofIndex (index + 1)
  | none => throw (.invalidToken owner .notCollected)

end Scope

/-- A step of the expansion.  What it has produced is there even if it fails. -/
abbrev Step (α : Type) : Type := ExceptT CompileError (StateM Expansion) α

/-- Adds a production unless there is an equal one. -/
def addProduction (expansion : Expansion) (production : PlainProduction) : Expansion :=
  if expansion.productions.contains production then expansion
  else { expansion with productions := expansion.productions.push production }

/-- Adds the productions of a symbol's alternatives. -/
def addProductions (expansion : Expansion) (lhs : Symbol) (alternatives : List Alternative) :
    Expansion :=
  alternatives.foldl (fun expansion a => expansion.addProduction (a.toProduction lhs)) expansion

/-- The name of the helper of a repetition in a rule. -/
def helperName (owner : String) (number : Nat) : String :=
  "_" ++ String.ofList (owner.toList.dropWhile (· == '_')) ++ "_repeat" ++ toString number

/-- Adds a helper for the next repetition in a rule. -/
def addHelper (owner : String) : Step Symbol := do
  let expansion ← get
  let number := expansion.repetitions + 1
  let info : SymbolInfo := ⟨helperName owner number, .nonterminal, false, true, false⟩
  set { expansion with repetitions := number, symbols := expansion.symbols.push info }
  return .ofIndex expansion.symbols.size

/-- The productions of a helper whose content has the given alternatives: first those that refer to
the helper itself. -/
def addRepetition (helper : Symbol) (alternatives : List Alternative) : Step Unit :=
  let recursive := alternatives.map (Alternative.single helper).append
  modify fun expansion =>
    (expansion.addProductions helper recursive).addProductions helper alternatives

/-- Notes whether 32 bits are too few for some sums.  The expansion goes on with what is left of the
sums; a program that is built with overflow checks stops here. -/
def note (overflow : Bool) : Step Unit :=
  modify fun expansion => { expansion with overflowed := expansion.overflowed || overflow }

mutual

/-- The alternatives of an expression in the rule of the given name. -/
def expand (scope : Scope) (owner : String) : Rule → Step (List Alternative)
  | .blank => return [.blank]
  | .string value => do return [.single (← scope.terminal owner (.string value))]
  | .pattern value flags => do return [.single (← scope.terminal owner (.pattern value flags))]
  | .token immediate content => do
    return [.single (← scope.terminal owner (.token immediate content))]
  | .aliased value named content =>
    if content.isToken then do
      return [.single (← scope.terminal owner (.aliased value named content))]
    else expand scope owner content
  | .field _ content => expand scope owner content
  | .symbol name =>
    match scope.symbol? name with
    | some symbol => return [.single symbol]
    | none => throw (.undefinedSymbol name owner)
  | .seq members => expandSeq scope owner [.blank] members
  | .choice [] => return [.blank]
  | .choice (first :: rest) => do
    return (← expand scope owner first) ++ (← expandChoice scope owner rest)
  | .repetition atLeastOnce content => do
    let helper ← addHelper owner
    let alternatives ← expand scope owner content
    addRepetition helper alternatives
    return if atLeastOnce then [.single helper] else [.blank, .single helper]
  | .precedence (.static associativity) value content => do
    return (← expand scope owner content).map (Alternative.withPrecedence value associativity)
  | .precedence .dynamic value content => do
    let alternatives ← expand scope owner content
    note (alternatives.any fun alternative =>
      Alternative.overflows alternative.dynamicPrecedence value)
    return alternatives.map (Alternative.addDynamic value)

/-- The alternatives of a sequence whose first members have the given ones. -/
def expandSeq (scope : Scope) (owner : String) (before : List Alternative) :
    List Rule → Step (List Alternative)
  | [] => return before
  | member :: rest => do
    let alternatives ← expand scope owner member
    note (Alternative.productOverflows before alternatives)
    expandSeq scope owner (Alternative.product before alternatives) rest

/-- The alternatives of all members. -/
def expandChoice (scope : Scope) (owner : String) : List Rule → Step (List Alternative)
  | [] => return []
  | member :: rest => do
    return (← expand scope owner member) ++ (← expandChoice scope owner rest)

end

/-- Expands the rule of a nonterminal into its productions. -/
def expandRule (scope : Scope) (entry : Symbol × String × Rule) : Step Unit := do
  let (lhs, name, rule) := entry
  let alternatives ← expand scope name rule
  modify fun expansion => expansion.addProductions lhs alternatives

end Expansion

namespace Description

/-- Whether the rule at a position becomes a nonterminal: the first rule does, and every rule that
is no token and has no external token of its name. -/
def isNonterminal (terminals : Terminals) (entry : (String × Rule) × Nat) : Bool :=
  entry.2 == 0 || !(entry.1.2.isToken || terminals.isNamed entry.1.1)

/-- The rules that become nonterminals. -/
def nonterminals (description : Description) (terminals : Terminals) : List (String × Rule) :=
  (description.rules.zipIdx.filter (isNonterminal terminals)).map Prod.fst

/-- All terminals of a description, given the external tokens and the rules that describe
tokens. -/
def collectTerminals (description : Description) (named : Terminals) :
    Except CompileError Terminals := do
  let inline ← (description.nonterminals named).foldlM
    (fun terminals (name, rule) => Terminals.collect name terminals rule) named
  description.extras.foldlM Terminals.addExtra inline

/-- The symbols of a set of conflicting rules. -/
def conflictSymbols (scope : Expansion.Scope) (names : List String) :
    Except CompileError (List Symbol) :=
  names.mapM fun name =>
    match scope.symbol? name with
    | some symbol => .ok symbol
    | none => .error (.undefinedSymbol name "conflicts")

/-- The end of the input as a symbol. -/
def endInfo : SymbolInfo := ⟨"end", .endOfInput, false, false, false⟩

/-- The names under which the expansion of a description looks up symbols, and what becomes of
expanding its rules. -/
def expansion (description : Description) :
    Except CompileError (Expansion.Scope × Except CompileError Unit × Expansion) := do
  if description.rules.isEmpty then throw (.noRules description.name)
  let named ← Terminals.ofRules description
  let rules := description.nonterminals named
  let terminals ← description.collectTerminals named
  let scope : Expansion.Scope := ⟨terminals, rules.map Prod.fst⟩
  let symbols := endInfo :: terminals.list.map Terminal.info ++
    rules.map fun entry => Terminals.namedInfo entry.1 .nonterminal
  let entries := rules.zipIdx.map fun ((name, rule), index) =>
    (Symbol.ofIndex (scope.terminalCount + index), name, rule)
  return (scope, (entries.forM (Expansion.expandRule scope)).run ⟨symbols.toArray, #[], 0, false⟩)

/-- Whether a program that is built with overflow checks stops at a sum of dynamic precedences. -/
def overflows (description : Description) : Bool :=
  match description.expansion with
  | .ok (_, _, expansion) => expansion.overflowed
  | .error _ => false

/-- The plain grammar of a description. -/
def toPlain (description : Description) : Except CompileError PlainGrammar := do
  let (scope, outcome, expansion) ← description.expansion
  outcome
  if 65535 ≤ expansion.symbols.size then throw (.tooLarge .symbols expansion.symbols.size)
  let expectedConflicts ← description.conflicts.mapM (conflictSymbols scope)
  return {
    name := description.name
    symbols := expansion.symbols.toList
    terminalCount := scope.terminalCount
    start := .ofIndex scope.terminalCount
    lexRules := scope.terminals.lexRules
    productions := expansion.productions.toList
    extras := scope.terminals.extras.map fun index => .ofIndex (index + 1)
    expectedConflicts }

end Description

end IncrementalGlr
