import IncrementalGlr.Grammar.Data
import IncrementalGlr.Grammar.LoadError

/-!
# Compiled grammars as bytes

The layout of a compiled grammar and the checksum that guards it.
-/

namespace IncrementalGlr

/-! ## Checksum of compiled grammars

The cyclic redundancy check of 32 bits with the reflected polynomial `EDB88320`, one bit at a time.
A step is linear in exclusive or, so a change of one byte always changes the remainder.
-/

namespace Checksum

/-- Divides out the lowest digit of a remainder. -/
def shift (remainder : UInt32) : UInt32 :=
  if remainder &&& 1 = 1 then (remainder >>> 1) ^^^ 0xEDB88320 else remainder >>> 1

/-- Divides out the given number of digits. -/
def shifts : Nat → UInt32 → UInt32
  | 0, remainder => remainder
  | count + 1, remainder => shifts count (shift remainder)

/-- The remainder after one more byte. -/
def absorb (remainder : UInt32) (byte : UInt8) : UInt32 :=
  shifts 8 (remainder ^^^ byte.toUInt32)

/-- The checksum of a byte sequence. -/
def ofBytes (bytes : List UInt8) : UInt32 := bytes.foldl absorb 0xFFFFFFFF ^^^ 0xFFFFFFFF

end Checksum

/-! ## Binary form of compiled grammars

A compiled grammar is stored as a header, the name, and the lists of the grammar one after the
other, every number with its low byte first.  The last four bytes are the checksum of all bytes
before them.  Writing is a function to lists of bytes; reading consumes such a list from its front.
-/

namespace Blob

/-- The first four bytes. -/
def magic : List UInt8 := [0x53, 0x50, 0x52, 0x47]

/-- The version of the layout. -/
def version : UInt16 := 1

/-- Length of the header: magic, version, a reserved word, four counts and the start symbol. -/
def headerSize : Nat := 26

/-- Length of the checksum. -/
def checksumSize : Nat := 4

/-! ## Writing -/

/-- A word of sixteen bits, low byte first. -/
def word (value : UInt16) : List UInt8 := [value.toUInt8, (value >>> 8).toUInt8]

/-- A signed word of sixteen bits, low byte first. -/
def signedWord (value : Int16) : List UInt8 := word value.toUInt16

/-- A word of 32 bits, low byte first. -/
def doubleWord (value : UInt32) : List UInt8 :=
  [value.toUInt8, (value >>> 8).toUInt8, (value >>> 16).toUInt8, (value >>> 24).toUInt8]

/-- A count as a word of 32 bits. -/
def count (value : Nat) : List UInt8 := doubleWord (UInt32.ofNat value)

/-- A text behind its length in bytes. -/
def text (value : String) : List UInt8 :=
  count value.toUTF8.size ++ value.toUTF8.data.toList

/-- The byte of a kind of symbols. -/
def kindByte : SymbolKind → UInt8
  | .endOfInput => 0
  | .terminal => 1
  | .external => 2
  | .nonterminal => 3

/-- The byte of a symbol's properties. -/
def flagByte (info : SymbolInfo) : UInt8 :=
  (if info.visible then 1 else 0) ||| (if info.named then 2 else 0) |||
    (if info.extra then 4 else 0)

/-- A symbol. -/
def symbolInfo (info : SymbolInfo) : List UInt8 :=
  text info.name ++ [kindByte info.kind, flagByte info]

/-- A lexical rule. -/
def lexRule (rule : LexRule) : List UInt8 :=
  word rule.symbol.id ++ [if rule.pattern.isLiteral then 0 else 1] ++
    signedWord rule.precedence ++ text rule.pattern.source

/-- A production. -/
def production (production : Production) : List UInt8 :=
  word production.lhs.id ++ word production.length ++ signedWord production.dynamicPrecedence

/-- The terminals of a lexical state behind their number. -/
def lexState (symbols : List Symbol) : List UInt8 :=
  count symbols.length ++ symbols.flatMap fun symbol => word symbol.id

/-- An action. -/
def action : Action → List UInt8
  | .shift target => 0 :: word target.id
  | .reduce production => 1 :: word production.id
  | .accept => [2]

/-- The actions on one terminal behind their number. -/
def cell (entry : Symbol × List Action) : List UInt8 :=
  word entry.1.id ++ word (UInt16.ofNat entry.2.length) ++ entry.2.flatMap action

/-- A goto. -/
def goto (entry : Symbol × StateId) : List UInt8 := word entry.1.id ++ word entry.2.id

/-- A state of the parse table. -/
def state (state : StateData) : List UInt8 :=
  word state.lexState.id ++ count state.actions.length ++ state.actions.flatMap cell ++
    count state.gotos.length ++ state.gotos.flatMap goto

/-- Everything before the checksum. -/
def body (data : GrammarData) : List UInt8 :=
  magic ++ word version ++ word 0 ++ count data.symbols.length ++
    count data.terminalCount.toNat ++ count data.states.length ++
    count data.productions.length ++ word data.startSymbol.id ++ text data.name ++
    count data.symbols.length ++ data.symbols.flatMap symbolInfo ++
    count data.lexRules.length ++ data.lexRules.flatMap lexRule ++
    data.productions.flatMap production ++
    count data.lexStates.length ++ data.lexStates.flatMap lexState ++
    data.states.flatMap state

/-- The binary form of a compiled grammar. -/
def encode (data : GrammarData) : List UInt8 :=
  body data ++ doubleWord (Checksum.ofBytes (body data))

/-! ## Reading -/

/-- A reader takes a value from the front of a list of bytes and leaves the rest.  The number is
the length of the whole list, at which a list that is too short is reported to end. -/
def Reader (α : Type) : Type := Nat → List UInt8 → Except LoadError (α × List UInt8)

namespace Reader

instance : Monad Reader where
  pure value := fun _ bytes => .ok (value, bytes)
  bind reader next := fun total bytes =>
    match reader total bytes with
    | .ok (value, rest) => next value total rest
    | .error error => .error error

/-- Refuses the bytes. -/
def fail {α : Type} (error : LoadError) : Reader α := fun _ _ => .error error

/-- The next `size` bytes. -/
def take (size : Nat) : Reader (List UInt8) := fun total bytes =>
  if size ≤ bytes.length then .ok (bytes.splitAt size) else .error (.truncated total)

/-- The next byte. -/
def byte : Reader UInt8 := fun total bytes =>
  match bytes with
  | value :: rest => .ok (value, rest)
  | [] => .error (.truncated total)

/-- A word of sixteen bits. -/
def word : Reader UInt16 := fun total bytes =>
  match bytes with
  | low :: high :: rest => .ok (low.toUInt16 ||| high.toUInt16 <<< 8, rest)
  | _ => .error (.truncated total)

/-- A signed word of sixteen bits. -/
def signedWord : Reader Int16 := do return (← word).toInt16

/-- A word of 32 bits. -/
def doubleWord : Reader UInt32 := fun total bytes =>
  match bytes with
  | b0 :: b1 :: b2 :: b3 :: rest =>
    .ok (b0.toUInt32 ||| b1.toUInt32 <<< 8 ||| b2.toUInt32 <<< 16 ||| b3.toUInt32 <<< 24, rest)
  | _ => .error (.truncated total)

/-- A count. -/
def count : Reader Nat := do return (← doubleWord).toNat

/-- A count that has to fit sixteen bits. -/
def smallCount : Reader UInt16 := do
  let value ← count
  if value < 65536 then return UInt16.ofNat value
  else fail (.malformed (.countTooLarge value))

/-- A text behind its length in bytes. -/
def text : Reader String := do
  let bytes ← take (← count)
  match Utf8.error? bytes with
  | some error => fail (.malformed (.nameEncoding error))
  | none => return (String.fromUTF8? ⟨bytes.toArray⟩).getD ""

/-- The given number of items, each read with the number of items before it. -/
def listFrom {α : Type} (item : Nat → Reader α) (index : Nat) : Nat → Reader (List α)
  | 0 => return []
  | more + 1 => do
    let value ← item index
    return value :: (← listFrom item (index + 1) more)

/-- The given number of items. -/
def list {α : Type} (item : Reader α) (size : Nat) : Reader (List α) :=
  listFrom (fun _ => item) 0 size

/-- The kind of symbols of a byte. -/
def kind? : UInt8 → Option SymbolKind
  | 0 => some .endOfInput
  | 1 => some .terminal
  | 2 => some .external
  | 3 => some .nonterminal
  | _ => none

/-- The symbol of a given index. -/
def symbolInfo (index : Nat) : Reader SymbolInfo := do
  let name ← text
  let some kind := kind? (← byte)
    | fail (.invalidSymbol (UInt16.ofNat index) .unknownKind)
  let flags ← byte
  return ⟨name, kind, flags &&& 1 ≠ 0, flags &&& 2 ≠ 0, flags &&& 4 ≠ 0⟩

/-- A symbol id. -/
def symbol : Reader Symbol := do return ⟨← word⟩

/-- A lexical rule. -/
def lexRule : Reader LexRule := do
  let symbol ← symbol
  let kind ← byte
  let precedence ← signedWord
  let source ← text
  if kind = 0 then return ⟨symbol, .literal source, precedence⟩
  else if kind = 1 then return ⟨symbol, .regex source, precedence⟩
  else fail (.malformed (.unknownPatternKind kind.toNat))

/-- A production. -/
def production : Reader Production := do
  let lhs ← symbol
  let length ← word
  return ⟨lhs, length, ← signedWord⟩

/-- The terminals of a lexical state. -/
def lexState : Reader (List Symbol) := do list symbol (← count)

/-- An action. -/
def action : Reader Action := do
  let tag ← byte
  if tag = 0 then return .shift ⟨← word⟩
  else if tag = 1 then return .reduce ⟨← word⟩
  else if tag = 2 then return .accept
  else fail (.malformed (.unknownActionTag tag.toNat))

/-- The actions on one terminal. -/
def cell : Reader (Symbol × List Action) := do
  let terminal ← symbol
  let size ← word
  return (terminal, ← list action size.toNat)

/-- A goto. -/
def goto : Reader (Symbol × StateId) := do
  let nonterminal ← symbol
  return (nonterminal, ⟨← word⟩)

/-- A state of the parse table. -/
def state : Reader StateData := do
  let lexState ← word
  let actions ← list cell (← count)
  let gotos ← list goto (← count)
  return ⟨⟨lexState⟩, actions, gotos⟩

/-- Nothing more. -/
def finish : Reader Unit := fun _ bytes =>
  match bytes with
  | [] => .ok ((), [])
  | _ => .error (.malformed (.trailingBytes bytes.length))

/-- Everything between the version and the checksum. -/
def contents : Reader GrammarData := do
  let _ ← word
  let symbolCount ← count
  let terminalCount ← smallCount
  let stateCount ← count
  let productionCount ← count
  let startSymbol ← symbol
  let name ← text
  let actual ← count
  if actual ≠ symbolCount then fail (.symbolCount symbolCount actual)
  let symbols ← listFrom symbolInfo 0 symbolCount
  let lexRules ← list lexRule (← count)
  let productions ← list production productionCount
  let lexStates ← list lexState (← count)
  let states ← list state stateCount
  finish
  return ⟨name, symbols, terminalCount, startSymbol, lexRules, productions, lexStates, states⟩

end Reader

/-- The word of 32 bits that four bytes hold. -/
def wordOfBytes (bytes : List UInt8) : UInt32 :=
  match bytes with
  | [b0, b1, b2, b3] =>
    b0.toUInt32 ||| b1.toUInt32 <<< 8 ||| b2.toUInt32 <<< 16 ||| b3.toUInt32 <<< 24
  | _ => 0

/-- The compiled grammar of a binary form together with its checksum.  The magic is checked first,
then the least length, the version, the checksum and at last the contents. -/
def decodeWithChecksum (bytes : List UInt8) : Except LoadError (GrammarData × UInt32) := do
  if bytes.take 4 ≠ magic then throw .badMagic
  if bytes.length < headerSize + checksumSize then throw (.truncated bytes.length)
  let (found, _) ← Reader.word bytes.length (bytes.drop 4)
  if found ≠ version then throw (.unsupportedVersion found version)
  let (stored, computed) :=
    (wordOfBytes (bytes.drop (bytes.length - checksumSize)),
      Checksum.ofBytes (bytes.take (bytes.length - checksumSize)))
  if stored ≠ computed then throw (.checksumMismatch stored computed)
  let (data, _) ← Reader.contents (bytes.length - checksumSize)
    ((bytes.take (bytes.length - checksumSize)).drop 6)
  return (data, stored)

/-- The compiled grammar of a binary form. -/
def decode (bytes : List UInt8) : Except LoadError GrammarData := do
  return (← decodeWithChecksum bytes).1

end Blob

end IncrementalGlr
