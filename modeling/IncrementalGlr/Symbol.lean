/-!
# Symbols and the other ids of a grammar

Symbols, parse states, productions and lexical states are numbered by words of sixteen bits.  The
largest word of each kind except the parse states is reserved: it stands for the error symbol, for
"built by no production" and for the lexical state in which every terminal is valid.
-/

namespace IncrementalGlr

/-- A grammar symbol.  The end of input comes first, terminals follow, nonterminals come last. -/
structure Symbol where
  /-- Position of the symbol in its grammar. -/
  id : UInt16
  deriving DecidableEq, Hashable, Inhabited

namespace Symbol

/-- The end of the input. -/
def endOfInput : Symbol := ⟨0⟩

/-- The kind of error nodes and of unrecognised text. -/
def error : Symbol := ⟨65535⟩

/-- The symbol's id as an index. -/
def index (symbol : Symbol) : Nat := symbol.id.toNat

/-- The symbol of a given index; only meaningful below 65536. -/
def ofIndex (index : Nat) : Symbol := ⟨UInt16.ofNat index⟩

/-- A symbol written without its grammar, as in debugging output. -/
def describe (symbol : Symbol) : String :=
  if symbol = error then "ERROR" else "Symbol(" ++ toString symbol.index ++ ")"

end Symbol

/-- A state of the parse table. -/
structure StateId where
  /-- Position of the state in its grammar. -/
  id : UInt16
  deriving DecidableEq, Hashable, Inhabited

namespace StateId

/-- The state in which parsing begins. -/
def start : StateId := ⟨0⟩

/-- The state's id as an index. -/
def index (state : StateId) : Nat := state.id.toNat

/-- The state of a given index; only meaningful below 65536. -/
def ofIndex (index : Nat) : StateId := ⟨UInt16.ofNat index⟩

end StateId

/-- A production of the grammar. -/
structure ProductionId where
  /-- Position of the production in its grammar. -/
  id : UInt16
  deriving DecidableEq, Hashable, Inhabited

namespace ProductionId

/-- Marks nodes that no production built. -/
def none : ProductionId := ⟨65535⟩

/-- The production's id as an index. -/
def index (production : ProductionId) : Nat := production.id.toNat

/-- The production of a given index; only meaningful below 65536. -/
def ofIndex (index : Nat) : ProductionId := ⟨UInt16.ofNat index⟩

end ProductionId

/-- A lexical state: the set of terminals the lexer looks for. -/
structure LexStateId where
  /-- Position of the lexical state in its grammar. -/
  id : UInt16
  deriving DecidableEq, Hashable, Inhabited

namespace LexStateId

/-- The lexical state of error recovery, in which every terminal is valid. -/
def errorMode : LexStateId := ⟨65535⟩

/-- The lexical state's id as an index. -/
def index (lexState : LexStateId) : Nat := lexState.id.toNat

/-- The lexical state of a given index; only meaningful below 65536. -/
def ofIndex (index : Nat) : LexStateId := ⟨UInt16.ofNat index⟩

end LexStateId

/-- What a symbol stands for. -/
inductive SymbolKind
  /-- The end of the input. -/
  | endOfInput
  /-- A terminal that lexical rules recognise. -/
  | terminal
  /-- A terminal that only an external scanner recognises. -/
  | external
  /-- A symbol that productions define. -/
  | nonterminal
  deriving DecidableEq, Hashable, Inhabited

namespace SymbolKind

/-- Whether symbols of the kind are read from the text rather than derived. -/
def isTerminal : SymbolKind → Bool
  | nonterminal => false
  | _ => true

end SymbolKind

/-- The name of a symbol and the part it plays in syntax trees. -/
structure SymbolInfo where
  /-- Name shown in trees and looked up by queries. -/
  name : String
  /-- What the symbol stands for. -/
  kind : SymbolKind
  /-- Hidden symbols are flattened into their parents when a tree is walked. -/
  visible : Bool
  /-- Named symbols come from grammar rules, anonymous ones from literals. -/
  named : Bool
  /-- Extra symbols may stand anywhere between tokens. -/
  extra : Bool
  deriving DecidableEq, Inhabited

/-! ## Sets of symbols

A set of symbols is one natural number whose binary digits say which symbols belong to it.  Equal
sets have equal masks, whatever operations built them. -/

/-- A finite set of symbols. -/
structure SymbolSet where
  /-- The digit of weight `2 ^ n` says whether the symbol of index `n` belongs to the set. -/
  mask : Nat
  deriving DecidableEq, Hashable

namespace SymbolSet

/-- The set without members. -/
def empty : SymbolSet := ⟨0⟩

instance : Inhabited SymbolSet := ⟨empty⟩

/-- Membership of a symbol. -/
def contains (set : SymbolSet) (symbol : Symbol) : Bool := set.mask.testBit symbol.index

instance : Membership Symbol SymbolSet := ⟨fun set symbol => set.contains symbol⟩

instance (symbol : Symbol) (set : SymbolSet) : Decidable (symbol ∈ set) :=
  inferInstanceAs (Decidable (set.contains symbol = true))

/-- The set of one symbol. -/
def singleton (symbol : Symbol) : SymbolSet := ⟨1 <<< symbol.index⟩

/-- The members of either set. -/
def union (left right : SymbolSet) : SymbolSet := ⟨left.mask ||| right.mask⟩

/-- Adds a symbol. -/
def insert (set : SymbolSet) (symbol : Symbol) : SymbolSet := set.union (singleton symbol)

/-- Adds a symbol and says whether it was missing. -/
def insertNew (set : SymbolSet) (symbol : Symbol) : Bool × SymbolSet :=
  (!set.contains symbol, set.insert symbol)

/-- Adds every member of another set and says whether the set grew. -/
def unionGrow (set other : SymbolSet) : Bool × SymbolSet :=
  let merged := set.union other
  (merged ≠ set, merged)

/-- Adds the symbols of a list. -/
def insertAll (set : SymbolSet) (symbols : List Symbol) : SymbolSet :=
  symbols.foldl insert set

/-- The set of the symbols in a list. -/
def ofList (symbols : List Symbol) : SymbolSet := empty.insertAll symbols

/-- The indexes of the members between `64 * slot` and `64 * slot + 63`, in ascending order. -/
def slotIndexes (set : SymbolSet) (slot : Nat) : List Nat :=
  let word := (set.mask >>> (64 * slot)) % Nat.pow 2 64
  if word = 0 then [] else ((List.range 64).filter word.testBit).map (64 * slot + ·)

/-- The indexes of the members in ascending order. -/
def indexes (set : SymbolSet) : List Nat :=
  (List.range (set.mask.log2 / 64 + 1)).flatMap set.slotIndexes

/-- The members in ascending order. -/
def toList (set : SymbolSet) : List Symbol := set.indexes.map Symbol.ofIndex

/-- Number of members. -/
def size (set : SymbolSet) : Nat := set.indexes.length

/-- Whether the set has no member. -/
def isEmpty (set : SymbolSet) : Bool := set.mask == 0

end SymbolSet

end IncrementalGlr
