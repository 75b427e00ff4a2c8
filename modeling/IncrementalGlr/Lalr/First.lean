import IncrementalGlr.FixedPoint
import IncrementalGlr.PlainGrammar.Basic
import IncrementalGlr.Symbol

/-!
# Empty expansions and first terminals

For every symbol of a plain grammar: whether it derives the empty string, and which terminals can
begin what it derives.  Both are the least solution of the productions' conditions, found by passing
over the productions until nothing changes.
-/

namespace IncrementalGlr

namespace Lalr

/-- What symbols can derive. -/
structure FirstSets where
  /-- Whether each symbol derives the empty string. -/
  nullable : Array Bool
  /-- The terminals that can begin what each symbol derives. -/
  first : Array SymbolSet
  deriving DecidableEq, Inhabited

namespace FirstSets

/-- Whether a symbol derives the empty string. -/
def isNullable (sets : FirstSets) (symbol : Symbol) : Bool :=
  (sets.nullable[symbol.index]?).getD false

/-- The terminals that can begin what a symbol derives. -/
def firstOf (sets : FirstSets) (symbol : Symbol) : SymbolSet :=
  (sets.first[symbol.index]?).getD .empty

/-- Adds the terminals that can begin a symbol's expansion. -/
def addFirst (sets : FirstSets) (lhs : Symbol) (terminals : SymbolSet) : FirstSets :=
  { sets with first := sets.first.modify lhs.index fun set => set.union terminals }

/-- Notes that a symbol derives the empty string. -/
def addNullable (sets : FirstSets) (lhs : Symbol) : FirstSets :=
  { sets with nullable := sets.nullable.setIfInBounds lhs.index true }

/-- What the rest of a right-hand side adds to its left-hand side, all symbols before it being
nullable. -/
def absorb (lhs : Symbol) (sets : FirstSets) : List Symbol → FirstSets
  | [] => sets.addNullable lhs
  | symbol :: rest =>
    let sets := sets.addFirst lhs (sets.firstOf symbol)
    if sets.isNullable symbol then absorb lhs sets rest else sets

/-- One pass over all productions. -/
def pass (productions : List PlainProduction) (sets : FirstSets) : FirstSets :=
  productions.foldl (fun sets production => absorb production.lhs sets production.rhs) sets

/-- Terminals begin with themselves; nothing else is known. -/
def initial (symbols terminals : Nat) : FirstSets where
  nullable := Array.replicate symbols false
  first := (Array.range symbols).map fun index =>
    if index < terminals then .singleton (.ofIndex index) else .empty

/-- The least solution for a grammar. -/
def ofGrammar (grammar : PlainGrammar) : FirstSets :=
  let symbols := grammar.symbols.length
  iterateUntilStable (pass grammar.productions) (symbols * (grammar.terminalCount + 1) + 1)
    (initial symbols grammar.terminalCount)

/-- The terminals that can begin what a string of symbols derives, and whether it derives the empty
string. -/
def ofString (sets : FirstSets) : List Symbol → SymbolSet × Bool
  | [] => (.empty, true)
  | symbol :: rest =>
    if sets.isNullable symbol then
      let (terminals, nullable) := sets.ofString rest
      ((sets.firstOf symbol).union terminals, nullable)
    else (sets.firstOf symbol, false)

end FirstSets

end Lalr

end IncrementalGlr
