import IncrementalGlr.Symbol

/-!
# Sets of symbols in words

A set of symbols may also be kept as a row of words of sixty-four bits, which grows to the word of
the largest symbol that was ever added.  So the same set can have rows of different lengths; what
lies behind the last word with a member is left out when sets are compared or hashed.
-/

namespace IncrementalGlr

/-- A finite set of symbols, in a growing row of words. -/
structure SymbolSlots where
  /-- The word at position `n` says which of the symbols of the indexes `64 * n` to `64 * n + 63`
  belong to the set. -/
  slots : List UInt64
  deriving Inhabited

namespace SymbolSlots

/-- Number of symbols that share a word. -/
def slotWidth : UInt16 := 64

/-- Position of the word that speaks of a symbol. -/
def slotOf (symbol : Symbol) : Nat := (symbol.id / slotWidth).toNat

/-- The word whose only bit stands at a place. -/
def oneBit (place : UInt16) : UInt64 := 1 <<< place.toUInt64

/-- The word of which a symbol is the only member. -/
def maskOf (symbol : Symbol) : UInt64 := oneBit (symbol.id % slotWidth)

/-- The set without members. -/
def empty : SymbolSlots := ⟨[]⟩

/-- A row with zeros behind it, so that it has at least the given length. -/
def widen (slots : List UInt64) (length : Nat) : List UInt64 :=
  slots ++ List.replicate (length - slots.length) 0

/-- Membership of a symbol. -/
def contains (set : SymbolSlots) (symbol : Symbol) : Bool :=
  set.slots[slotOf symbol]?.any fun slot => slot &&& maskOf symbol != 0

/-- Adds a symbol and says whether it was missing. -/
def insert (set : SymbolSlots) (symbol : Symbol) : Bool × SymbolSlots :=
  let slots := widen set.slots (slotOf symbol + 1)
  let slot := slots.getD (slotOf symbol) 0
  (slot &&& maskOf symbol == 0, ⟨slots.set (slotOf symbol) (slot ||| maskOf symbol)⟩)

/-- Adds the symbols of a list. -/
def insertAll (set : SymbolSlots) (symbols : List Symbol) : SymbolSlots :=
  symbols.foldl (fun set symbol => (set.insert symbol).2) set

/-- The set of the symbols in a list. -/
def ofList (symbols : List Symbol) : SymbolSlots := empty.insertAll symbols

/-- Adds the bits of a row to a row that is no shorter, and says whether it changed. -/
def merge : List UInt64 → List UInt64 → Bool × List UInt64
  | slot :: slots, other :: others =>
    let (changed, merged) := merge slots others
    (slot ||| other != slot || changed, (slot ||| other) :: merged)
  | slots, _ => (false, slots)

/-- Adds every member of another set and says whether the set grew. -/
def union (set other : SymbolSlots) : Bool × SymbolSlots :=
  let (changed, merged) := merge (widen set.slots other.slots.length) other.slots
  (changed, ⟨merged⟩)

/-- Number of ones in a word. -/
def countOnes (slot : UInt64) : Nat := (List.range 64).countP slot.toNat.testBit

/-- Number of members. -/
def size (set : SymbolSlots) : Nat :=
  set.slots.foldr (fun slot others => countOnes slot + others) 0

/-- Whether the set has no member. -/
def isEmpty (set : SymbolSlots) : Bool := set.slots.all (· == 0)

/-- The members that a word at a position speaks of, in ascending order. -/
def slotMembers (slot : UInt64) (position : Nat) : List Symbol :=
  (((List.range 64).map UInt16.ofNat).filter fun place => slot &&& oneBit place != 0).map
    fun place => ⟨UInt16.ofNat position * slotWidth + place⟩

/-- The members in ascending order. -/
def toList (set : SymbolSlots) : List Symbol :=
  set.slots.zipIdx.flatMap fun (slot, position) => slotMembers slot position

/-- A row up to its last word with a member. -/
def withoutPadding : List UInt64 → List UInt64
  | [] => []
  | slot :: slots =>
    let kept := withoutPadding slots
    if slot == 0 && kept.isEmpty then [] else slot :: kept

/-- What sets are compared and hashed by. -/
def significant (set : SymbolSlots) : List UInt64 := withoutPadding set.slots

instance : BEq SymbolSlots := ⟨fun set other => set.significant == other.significant⟩

instance : Hashable SymbolSlots := ⟨fun set => hash set.significant⟩

end SymbolSlots

end IncrementalGlr
