import IncrementalGlr.FixedPoint
import IncrementalGlr.Lalr.First

/-!
# Items and their closure

An item is a production of which some symbols are recognised.  The closure of a set of items adds
every production of the symbols that come next, with the terminals that may follow them.  All
productions of one symbol are followed by the same terminals, so a closure is given by the symbols
whose productions it adds.
-/

namespace IncrementalGlr

namespace Lalr

/-- A production of which some symbols are recognised. -/
structure Item where
  /-- Position of the production; the one after the last stands for the whole text. -/
  production : Nat
  /-- Number of symbols recognised. -/
  dot : Nat
  deriving DecidableEq, Inhabited

namespace Item

/-- The item after one more symbol. -/
def advance (item : Item) : Item := { item with dot := item.dot + 1 }

/-- The order by production and then by the number of symbols recognised. -/
def le (left right : Item) : Bool :=
  left.production < right.production ||
    (left.production == right.production && left.dot ≤ right.dot)

end Item

/-- The terminals that may follow an item. -/
structure Lookahead where
  /-- The terminals. -/
  symbols : SymbolSet
  /-- Whether also those follow that follow the item from which a closure started. -/
  inherits : Bool
  deriving DecidableEq, Inhabited

namespace Lookahead

/-- No terminals. -/
def empty : Lookahead := ⟨.empty, false⟩

/-- Whatever follows either. -/
def merge (left right : Lookahead) : Lookahead :=
  ⟨left.symbols.union right.symbols, left.inherits || right.inherits⟩

/-- What follows a symbol that stands before a string: what begins the string and, if the string
derives the empty string, what follows the whole. -/
def before (string : SymbolSet × Bool) (whole : Lookahead) : Lookahead :=
  if string.2 then ⟨string.1.union whole.symbols, whole.inherits⟩ else ⟨string.1, false⟩

end Lookahead

/-- A nonterminal that stands first in a production of another one. -/
structure Lead where
  /-- The nonterminal that stands first. -/
  symbol : Symbol
  /-- What begins the rest of the production, and whether the rest derives the empty string. -/
  rest : SymbolSet × Bool
  deriving DecidableEq, Inhabited

/-- A plain grammar with the tables that the construction of states looks up. -/
structure Context where
  /-- The grammar. -/
  grammar : PlainGrammar
  /-- What symbols can derive. -/
  sets : FirstSets
  /-- The right-hand side of each production; the last one is the start symbol alone. -/
  rhsTable : Array (List Symbol)
  /-- The productions of each symbol, in ascending order. -/
  byLhs : Array (List Nat)
  /-- The nonterminals that stand first in the productions of each symbol. -/
  leads : Array (List Lead)
  deriving Inhabited

namespace Context

/-- The lead of a right-hand side. -/
def lead? (grammar : PlainGrammar) (sets : FirstSets) (rhs : List Symbol) : Option Lead :=
  match rhs with
  | symbol :: rest =>
    if grammar.isTerminal symbol then none else some ⟨symbol, sets.ofString rest⟩
  | [] => none

/-- The tables of a grammar. -/
def ofGrammar (grammar : PlainGrammar) : Context :=
  let sets := FirstSets.ofGrammar grammar
  let none := Array.replicate grammar.symbols.length []
  { grammar, sets
    rhsTable := (grammar.productions.map PlainProduction.rhs ++ [[grammar.start]]).toArray
    byLhs := grammar.productions.zipIdx.foldl
      (fun table (production, index) => table.modify production.lhs.index (· ++ [index])) none
    leads := grammar.productions.foldl
      (fun table production =>
        table.modify production.lhs.index
          (· ++ (lead? grammar sets production.rhs).toList))
      (Array.replicate grammar.symbols.length []) }

/-- The position of the production for whole texts. -/
def wholeText (context : Context) : Nat := context.grammar.productions.length

/-- The right-hand side of a production. -/
def rhs (context : Context) (production : Nat) : List Symbol :=
  (context.rhsTable[production]?).getD []

/-- The symbol that an item has to recognise next. -/
def next? (context : Context) (item : Item) : Option Symbol :=
  (context.rhs item.production)[item.dot]?

/-- Whether an item has recognised its whole production. -/
def isComplete (context : Context) (item : Item) : Bool :=
  (context.rhs item.production).length ≤ item.dot

/-- The symbols whose productions a closure adds, with what follows them. -/
abbrev Closure : Type := Array (Option Lookahead)

/-- Adds the productions of a symbol. -/
def addSymbol (closure : Closure) (symbol : Symbol) (lookahead : Lookahead) : Closure :=
  closure.modify symbol.index fun
    | some known => some (known.merge lookahead)
    | none => some lookahead

/-- Adds what an item of the kernel calls for. -/
def addSeed (context : Context) (closure : Closure) (seed : Item × Lookahead) : Closure :=
  match (context.rhs seed.1.production).drop seed.1.dot with
  | symbol :: rest =>
    if context.grammar.isTerminal symbol then closure
    else addSymbol closure symbol (.before (context.sets.ofString rest) seed.2)
  | [] => closure

/-- Adds what the productions of a symbol of the closure call for. -/
def addLeads (context : Context) (closure : Closure) (index : Nat) : Closure :=
  match (closure[index]?).join with
  | some lookahead =>
    ((context.leads[index]?).getD []).foldl
      (fun closure lead => addSymbol closure lead.symbol (.before lead.rest lookahead)) closure
  | none => closure

/-- Adds what all productions of the closure call for. -/
def closureStep (context : Context) (closure : Closure) : Closure :=
  (List.range context.grammar.symbols.length).foldl context.addLeads closure

/-- The closure of the items of a kernel. -/
def closure (context : Context) (kernel : List (Item × Lookahead)) : Closure :=
  let symbols := context.grammar.symbols.length
  iterateUntilStable context.closureStep (symbols * (context.grammar.terminalCount + 2) + 1)
    (kernel.foldl context.addSeed (Array.replicate symbols none))

/-- The items that the productions of a symbol add to a closure. -/
def addedItems (context : Context) (closure : Closure) (index : Nat) : List (Item × Lookahead) :=
  match (closure[index]?).join with
  | some lookahead =>
    ((context.byLhs[index]?).getD []).map fun production => (⟨production, 0⟩, lookahead)
  | none => []

/-- All items of a closure, those of the kernel first. -/
def closureItems (context : Context) (kernel : List (Item × Lookahead)) :
    List (Item × Lookahead) :=
  let closure := context.closure kernel
  kernel ++ (List.range context.grammar.symbols.length).flatMap (context.addedItems closure)

end Context

end Lalr

end IncrementalGlr
