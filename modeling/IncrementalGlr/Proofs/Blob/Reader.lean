import IncrementalGlr.Grammar.Blob
import IncrementalGlr.Proofs.Utf8
import Mathlib.Data.List.Forall2
import Mathlib.Data.Nat.Bitwise

/-!
# Reading binary forms

Bytes make up a word exactly if they are the ones it is written as.  A reader takes a value from the
front of a list of bytes exactly if the list begins with the form that is written for the value.
There are two exceptions.  The reserved word of the header is not looked at, and only the lowest
three bits of the byte of a symbol's properties are.
-/

namespace IncrementalGlr

/-! ## Words -/

namespace Blob

/-- Digits that do not overlap are added. -/
theorem or_mul_two_pow (width : Nat) {low : Nat} (fits : low < 2 ^ width) (high : Nat) :
    low ||| high * 2 ^ width = low + high * 2 ^ width := by
  rw [Nat.or_comm, ← Nat.shiftLeft_eq, ← Nat.shiftLeft_add_eq_or_of_lt fits, Nat.add_comm]

theorem toNat_joinWord (low high : UInt8) :
    (low.toUInt16 ||| high.toUInt16 <<< 8).toNat = low.toNat + high.toNat * 2 ^ 8 := by
  have lowBound := low.toNat_lt
  have highBound := high.toNat_lt
  simp only [UInt16.toNat_or, UInt16.toNat_shiftLeft, UInt8.toNat_toUInt16, UInt16.reduceToNat,
    Nat.reduceMod, Nat.shiftLeft_eq]
  rw [Nat.mod_eq_of_lt (by omega), or_mul_two_pow 8 lowBound]

theorem toNat_joinDoubleWord (b0 b1 b2 b3 : UInt8) :
    (b0.toUInt32 ||| b1.toUInt32 <<< 8 ||| b2.toUInt32 <<< 16 ||| b3.toUInt32 <<< 24).toNat =
      b0.toNat + b1.toNat * 2 ^ 8 + b2.toNat * 2 ^ 16 + b3.toNat * 2 ^ 24 := by
  have bound0 := b0.toNat_lt
  have bound1 := b1.toNat_lt
  have bound2 := b2.toNat_lt
  have bound3 := b3.toNat_lt
  simp only [UInt32.toNat_or, UInt32.toNat_shiftLeft, UInt8.toNat_toUInt32, UInt32.reduceToNat,
    Nat.reduceMod, Nat.shiftLeft_eq]
  rw [Nat.mod_eq_of_lt (a := b1.toNat * 2 ^ 8) (by omega),
    Nat.mod_eq_of_lt (a := b2.toNat * 2 ^ 16) (by omega),
    Nat.mod_eq_of_lt (a := b3.toNat * 2 ^ 24) (by omega), or_mul_two_pow 8 bound0,
    or_mul_two_pow 16 (by omega), or_mul_two_pow 24 (by omega)]

/-- Two bytes make up a word exactly if they are the ones it is written as. -/
theorem joinWord_eq_iff {value : UInt16} {low high : UInt8} :
    low.toUInt16 ||| high.toUInt16 <<< 8 = value ↔ [low, high] = word value := by
  have lowBound := low.toNat_lt
  have highBound := high.toNat_lt
  have bound := value.toNat_lt
  rw [← UInt16.toNat_inj, toNat_joinWord]
  simp only [word, List.cons.injEq, and_true, ← UInt8.toNat_inj, UInt16.toNat_toUInt8,
    UInt16.toNat_shiftRight, UInt16.reduceToNat, Nat.reduceMod, Nat.shiftRight_eq_div_pow]
  omega

/-- Four bytes make up a double word exactly if they are the ones it is written as. -/
theorem joinDoubleWord_eq_iff {value : UInt32} {b0 b1 b2 b3 : UInt8} :
    b0.toUInt32 ||| b1.toUInt32 <<< 8 ||| b2.toUInt32 <<< 16 ||| b3.toUInt32 <<< 24 = value ↔
      [b0, b1, b2, b3] = doubleWord value := by
  have bound0 := b0.toNat_lt
  have bound1 := b1.toNat_lt
  have bound2 := b2.toNat_lt
  have bound3 := b3.toNat_lt
  have bound := value.toNat_lt
  rw [← UInt32.toNat_inj, toNat_joinDoubleWord]
  simp only [doubleWord, List.cons.injEq, and_true, ← UInt8.toNat_inj, UInt32.toNat_toUInt8,
    UInt32.toNat_shiftRight, UInt32.reduceToNat, Nat.reduceMod, Nat.shiftRight_eq_div_pow]
  omega

end Blob

/-! ## Readers -/

/-- Whether the counts of a state fit the words in which they are stored. -/
structure StateData.Storable (state : StateData) : Prop where
  /-- There are not too many cells. -/
  actions : state.actions.length < 2 ^ 32
  /-- No cell has too many actions. -/
  alternatives : ∀ entry ∈ state.actions, entry.2.length < 2 ^ 16
  /-- There are not too many gotos. -/
  gotos : state.gotos.length < 2 ^ 32

/-- Whether all counts and lengths of texts of a grammar fit the words in which they are stored. -/
structure GrammarData.Storable (data : GrammarData) : Prop where
  /-- The name is not too long. -/
  name : data.name.toUTF8.size < 2 ^ 32
  /-- There are not too many symbols. -/
  symbols : data.symbols.length < 2 ^ 32
  /-- No symbol has too long a name. -/
  symbolNames : ∀ info ∈ data.symbols, info.name.toUTF8.size < 2 ^ 32
  /-- There are not too many lexical rules. -/
  lexRules : data.lexRules.length < 2 ^ 32
  /-- No lexical rule has too long a pattern. -/
  patterns : ∀ rule ∈ data.lexRules, rule.pattern.source.toUTF8.size < 2 ^ 32
  /-- There are not too many productions. -/
  productions : data.productions.length < 2 ^ 32
  /-- There are not too many lexical states. -/
  lexStates : data.lexStates.length < 2 ^ 32
  /-- No lexical state has too many terminals. -/
  terminals : ∀ symbols ∈ data.lexStates, symbols.length < 2 ^ 32
  /-- There are not too many states. -/
  states : data.states.length < 2 ^ 32
  /-- Every state can be stored. -/
  state : ∀ state ∈ data.states, state.Storable

instance (state : StateData) : Decidable state.Storable :=
  decidable_of_iff (state.actions.length < 2 ^ 32 ∧
      (∀ entry ∈ state.actions, entry.2.length < 2 ^ 16) ∧ state.gotos.length < 2 ^ 32)
    ⟨fun ⟨actions, alternatives, gotos⟩ => ⟨actions, alternatives, gotos⟩,
      fun ⟨actions, alternatives, gotos⟩ => ⟨actions, alternatives, gotos⟩⟩

namespace Blob

/-- A symbol whose properties are written as a given byte. -/
def symbolInfoWith (flags : UInt8) (info : SymbolInfo) : List UInt8 :=
  text info.name ++ [kindByte info.kind, flags]

/-- Everything between the version and the checksum, with a given reserved word and with given bytes
for the properties of the symbols. -/
def contentsWith (reserved : UInt16) (flags : List UInt8) (data : GrammarData) : List UInt8 :=
  word reserved ++ count data.symbols.length ++ count data.terminalCount.toNat ++
    count data.states.length ++ count data.productions.length ++ word data.startSymbol.id ++
    text data.name ++ count data.symbols.length ++
    (List.zipWith symbolInfoWith flags data.symbols).flatten ++
    count data.lexRules.length ++ data.lexRules.flatMap lexRule ++
    data.productions.flatMap production ++
    count data.lexStates.length ++ data.lexStates.flatMap lexState ++
    data.states.flatMap state

namespace Reader

variable {α β : Type} {total : Nat} {input rest : List UInt8}

theorem pure_eq_ok {value result : α} :
    (pure value : Reader α) total input = .ok (result, rest) ↔ value = result ∧ input = rest := by
  constructor
  · rintro ⟨⟩
    exact ⟨rfl, rfl⟩
  · rintro ⟨rfl, rfl⟩
    rfl

theorem bind_eq_ok {first : Reader α} {next : α → Reader β} {result : β} :
    (first >>= next) total input = .ok (result, rest) ↔
      ∃ value middle, first total input = .ok (value, middle) ∧
        next value total middle = .ok (result, rest) := by
  simp only [bind]
  cases first total input with
  | error error => simp
  | ok outcome =>
      obtain ⟨value, middle⟩ := outcome
      simp

theorem fail_ne_ok {error : LoadError} {result : α} :
    ¬ (fail error : Reader α) total input = .ok (result, rest) := nofun

/-- What follows a check is only reached if the check succeeds. -/
theorem ite_fail_eq_ok {holds : Prop} [Decidable holds] {error : LoadError} {skipped : α → Reader β}
    {next : Reader β} {result : β} :
    (if holds then fail error >>= skipped else next) total input = .ok (result, rest) ↔
      ¬ holds ∧ next total input = .ok (result, rest) := by
  split
  · next broken =>
      refine iff_of_false (fun read => ?_) fun read => read.1 broken
      obtain ⟨value, middle, failed, -⟩ := bind_eq_ok.1 read
      exact fail_ne_ok failed
  · next kept => exact (and_iff_right kept).symm

theorem byte_eq_ok {value : UInt8} :
    byte total input = .ok (value, rest) ↔ input = value :: rest := by
  cases input with
  | nil => simp [byte]
  | cons first input => simp [byte]

theorem word_eq_ok {value : UInt16} :
    word total input = .ok (value, rest) ↔ input = Blob.word value ++ rest := by
  match input with
  | [] | [_] => simp [word, Blob.word]
  | low :: high :: input =>
      have joined : low.toUInt16 ||| high.toUInt16 <<< 8 = value ↔ [low, high] = Blob.word value :=
        joinWord_eq_iff
      rw [Blob.word] at joined ⊢
      simp only [word, Except.ok.injEq, Prod.mk.injEq, joined]
      simp [and_assoc]

theorem signedWord_eq_ok {value : Int16} :
    signedWord total input = .ok (value, rest) ↔ input = Blob.signedWord value ++ rest := by
  simp only [signedWord, bind_eq_ok, word_eq_ok, pure_eq_ok, Blob.signedWord]
  constructor
  · rintro ⟨word, _, rfl, rfl, rfl⟩
    rw [UInt16.toUInt16_toInt16]
  · rintro rfl
    exact ⟨value.toUInt16, rest, rfl, Int16.toInt16_toUInt16 value, rfl⟩

theorem doubleWord_eq_ok {value : UInt32} :
    doubleWord total input = .ok (value, rest) ↔ input = Blob.doubleWord value ++ rest := by
  match input with
  | [] | [_] | [_, _] | [_, _, _] => simp [doubleWord, Blob.doubleWord]
  | b0 :: b1 :: b2 :: b3 :: input =>
      have joined : b0.toUInt32 ||| b1.toUInt32 <<< 8 ||| b2.toUInt32 <<< 16 |||
          b3.toUInt32 <<< 24 = value ↔ [b0, b1, b2, b3] = Blob.doubleWord value :=
        joinDoubleWord_eq_iff
      rw [Blob.doubleWord] at joined ⊢
      simp only [doubleWord, Except.ok.injEq, Prod.mk.injEq, joined]
      simp [and_assoc]

theorem count_eq_ok {value : Nat} :
    count total input = .ok (value, rest) ↔ value < 2 ^ 32 ∧ input = Blob.count value ++ rest := by
  simp only [count, bind_eq_ok, doubleWord_eq_ok, pure_eq_ok, Blob.count]
  constructor
  · rintro ⟨word, _, rfl, rfl, rfl⟩
    exact ⟨word.toNat_lt, by rw [UInt32.ofNat_toNat]⟩
  · rintro ⟨bound, rfl⟩
    exact ⟨.ofNat value, rest, rfl, UInt32.toNat_ofNat_of_lt' bound, rfl⟩

theorem smallCount_eq_ok {value : UInt16} :
    smallCount total input = .ok (value, rest) ↔ input = Blob.count value.toNat ++ rest := by
  simp only [smallCount, bind_eq_ok, count_eq_ok]
  constructor
  · rintro ⟨number, middle, ⟨-, rfl⟩, read⟩
    split at read
    · next small =>
        obtain ⟨rfl, rfl⟩ := pure_eq_ok.1 read
        rw [UInt16.toNat_ofNat_of_lt' small]
    · exact absurd read fail_ne_ok
  · rintro rfl
    have small := value.toNat_lt
    refine ⟨value.toNat, rest, ⟨by omega, rfl⟩, ?_⟩
    rw [if_pos small]
    exact pure_eq_ok.2 ⟨UInt16.ofNat_toNat, rfl⟩

theorem take_eq_ok {size : Nat} {value : List UInt8} :
    take size total input = .ok (value, rest) ↔ value.length = size ∧ input = value ++ rest := by
  unfold take
  split
  · next enough =>
      simp only [List.splitAt_eq, Except.ok.injEq, Prod.mk.injEq]
      constructor
      · rintro ⟨rfl, rfl⟩
        exact ⟨List.length_take_of_le enough, (List.take_append_drop size input).symm⟩
      · rintro ⟨rfl, rfl⟩
        exact ⟨List.take_left, List.drop_left⟩
  · next short =>
      refine iff_of_false nofun ?_
      rintro ⟨rfl, rfl⟩
      exact short (by simp)

theorem text_eq_ok {value : String} :
    text total input = .ok (value, rest) ↔
      value.toUTF8.size < 2 ^ 32 ∧ input = Blob.text value ++ rest := by
  simp only [text, bind_eq_ok, count_eq_ok, take_eq_ok, Blob.text]
  constructor
  · rintro ⟨size, _, ⟨bound, rfl⟩, bytes, middle, ⟨rfl, rfl⟩, read⟩
    cases clean : Utf8.error? bytes with
    | some error =>
        rw [clean] at read
        exact absurd read fail_ne_ok
    | none =>
        rw [clean] at read
        obtain ⟨text, rfl⟩ := Utf8.error?_eq_none.1 clean
        obtain ⟨same, rfl⟩ := pure_eq_ok.1 read
        rw [Utf8.fromUTF8?_toUTF8, Option.getD_some] at same
        subst same
        exact ⟨bound, by simp⟩
  · rintro ⟨bound, rfl⟩
    refine ⟨value.toUTF8.size, _, ⟨bound, List.append_assoc ..⟩, value.toUTF8.data.toList, rest,
      ⟨rfl, rfl⟩, ?_⟩
    rw [Utf8.error?_eq_none.2 ⟨value, rfl⟩]
    exact pure_eq_ok.2 ⟨by rw [Utf8.fromUTF8?_toUTF8, Option.getD_some], rfl⟩

/-- A list whose items are read from forms of their own is read from these forms one after the
other. -/
theorem listFrom_eq_ok {item : Nat → Reader α} {form : α → List UInt8 → Prop}
    (item_eq_ok : ∀ {index : Nat} {input rest : List UInt8} {value : α},
      item index total input = .ok (value, rest) ↔
        ∃ bytes, form value bytes ∧ input = bytes ++ rest)
    {index size : Nat} {values : List α} :
    listFrom item index size total input = .ok (values, rest) ↔
      values.length = size ∧ ∃ parts, List.Forall₂ form values parts ∧
        input = parts.flatten ++ rest := by
  induction size generalizing index input rest values with
  | zero =>
      rw [listFrom, pure_eq_ok]
      constructor
      · rintro ⟨rfl, rfl⟩
        exact ⟨rfl, [], .nil, rfl⟩
      · rintro ⟨none, parts, formed, rfl⟩
        obtain rfl := List.length_eq_zero_iff.1 none
        cases formed
        exact ⟨rfl, rfl⟩
  | succ size induction =>
      simp only [listFrom, bind_eq_ok, item_eq_ok, induction, pure_eq_ok]
      constructor
      · rintro ⟨value, _, ⟨bytes, here, rfl⟩, values, _, ⟨rfl, parts, there, rfl⟩, rfl, rfl⟩
        exact ⟨rfl, bytes :: parts, .cons here there, by simp⟩
      · rintro ⟨length, parts, formed, rfl⟩
        cases formed with
        | nil => cases length
        | @cons value bytes values parts here there =>
            exact ⟨value, parts.flatten ++ rest, ⟨bytes, here, by simp⟩, values, rest,
              ⟨Nat.succ.inj length, parts, there, rfl⟩, rfl, rfl⟩

/-- A list whose items have one form each is read from these forms one after the other. -/
theorem list_eq_ok {item : Reader α} {fits : α → Prop} {write : α → List UInt8}
    (item_eq_ok : ∀ {input rest : List UInt8} {value : α},
      item total input = .ok (value, rest) ↔ fits value ∧ input = write value ++ rest)
    {size : Nat} {values : List α} :
    list item size total input = .ok (values, rest) ↔
      values.length = size ∧ (∀ value ∈ values, fits value) ∧
        input = values.flatMap write ++ rest := by
  have formed : ∀ {input rest : List UInt8} {value : α},
      item total input = .ok (value, rest) ↔
        ∃ bytes, (fits value ∧ write value = bytes) ∧ input = bytes ++ rest := by
    simp [item_eq_ok]
  rw [list, listFrom_eq_ok fun {_} => @formed]
  simp only [List.forall₂_and_left, ← List.forall₂_map_left_iff (f := write),
    List.forall₂_eq_eq_eq]
  simp [List.flatMap_def]

/-- A list whose items can all be written is read from their forms one after the other. -/
theorem plainList_eq_ok {item : Reader α} {write : α → List UInt8}
    (item_eq_ok : ∀ {input rest : List UInt8} {value : α},
      item total input = .ok (value, rest) ↔ input = write value ++ rest)
    {size : Nat} {values : List α} :
    list item size total input = .ok (values, rest) ↔
      values.length = size ∧ input = values.flatMap write ++ rest := by
  have conditioned : ∀ {input rest : List UInt8} {value : α},
      item total input = .ok (value, rest) ↔ True ∧ input = write value ++ rest := by
    simp only [item_eq_ok, true_and, implies_true]
  rw [list_eq_ok conditioned]
  simp only [implies_true, true_and]

theorem kind?_eq_some {byte : UInt8} {kind : SymbolKind} :
    kind? byte = some kind ↔ byte = kindByte kind := by
  constructor
  · intro known
    unfold kind? at known
    split at known <;> cases known <;> rfl
  · rintro rfl
    cases kind <;> rfl

/-- The properties in the lowest three bits of a byte, put together again. -/
theorem flagByte_ofBits (name : String) (kind : SymbolKind) (flags : UInt8) :
    flagByte ⟨name, kind, flags &&& 1 ≠ 0, flags &&& 2 ≠ 0, flags &&& 4 ≠ 0⟩ = flags &&& 7 := by
  have every : ∀ bits : Fin 256,
      flagByte ⟨"", .terminal, UInt8.ofFin bits &&& 1 ≠ 0, UInt8.ofFin bits &&& 2 ≠ 0,
        UInt8.ofFin bits &&& 4 ≠ 0⟩ = UInt8.ofFin bits &&& 7 := by decide +kernel
  exact every flags.toFin

theorem ofBits_flagByte (info : SymbolInfo) :
    ⟨info.name, info.kind, flagByte info &&& 1 ≠ 0, flagByte info &&& 2 ≠ 0,
      flagByte info &&& 4 ≠ 0⟩ = info := by
  obtain ⟨name, kind, visible, named, extra⟩ := info
  cases visible <;> cases named <;> cases extra <;> simp [flagByte] <;> decide

theorem ofBits_eq_iff {flags : UInt8} {info : SymbolInfo} :
    ⟨info.name, info.kind, flags &&& 1 ≠ 0, flags &&& 2 ≠ 0, flags &&& 4 ≠ 0⟩ = info ↔
      flagByte info = flags &&& 7 := by
  constructor
  · intro same
    rw [← flagByte_ofBits info.name info.kind flags, same]
  · intro same
    have low : ∀ mask : UInt8, 7 &&& mask = mask → flags &&& mask = flagByte info &&& mask := by
      intro mask inside
      rw [same, UInt8.and_assoc, inside]
    rw [low 1 rfl, low 2 rfl, low 4 rfl, ofBits_flagByte]

theorem symbolInfo_eq_ok {index : Nat} {info : SymbolInfo} :
    symbolInfo index total input = .ok (info, rest) ↔
      ∃ bytes, (info.name.toUTF8.size < 2 ^ 32 ∧ ∃ flags, flagByte info = flags &&& 7 ∧
        bytes = symbolInfoWith flags info) ∧ input = bytes ++ rest := by
  simp only [symbolInfo, bind_eq_ok, text_eq_ok, byte_eq_ok]
  constructor
  · rintro ⟨name, _, ⟨bound, rfl⟩, byte, _, rfl, read⟩
    cases known : kind? byte with
    | none =>
        rw [known] at read
        exact absurd read fail_ne_ok
    | some kind =>
        rw [known] at read
        obtain ⟨flags, _, first, last⟩ := bind_eq_ok.1 read
        obtain rfl := byte_eq_ok.1 first
        obtain ⟨rfl, rfl⟩ := pure_eq_ok.1 last
        obtain rfl := kind?_eq_some.1 known
        exact ⟨_, ⟨bound, flags, flagByte_ofBits .., rfl⟩, by simp [symbolInfoWith]⟩
  · rintro ⟨_, ⟨bound, flags, same, rfl⟩, rfl⟩
    refine ⟨info.name, _, ⟨bound, by simp [symbolInfoWith]⟩, kindByte info.kind, flags :: rest,
      rfl, ?_⟩
    rw [kind?_eq_some.2 rfl]
    exact bind_eq_ok.2 ⟨flags, rest, byte_eq_ok.2 rfl, pure_eq_ok.2 ⟨ofBits_eq_iff.2 same, rfl⟩⟩

theorem symbolInfos_eq_ok {size : Nat} {symbols : List SymbolInfo} :
    listFrom symbolInfo 0 size total input = .ok (symbols, rest) ↔
      symbols.length = size ∧ (∀ info ∈ symbols, info.name.toUTF8.size < 2 ^ 32) ∧
        ∃ flags, List.Forall₂ (fun info byte => flagByte info = byte &&& 7) symbols flags ∧
          input = (List.zipWith symbolInfoWith flags symbols).flatten ++ rest := by
  have parted : ∀ {parts : List (List UInt8)}, List.Forall₂ (fun info bytes => ∃ flags,
      flagByte info = flags &&& 7 ∧ bytes = symbolInfoWith flags info) symbols parts ↔
        ∃ flags, List.Forall₂ (fun info byte => flagByte info = byte &&& 7) symbols flags ∧
          parts = List.zipWith symbolInfoWith flags symbols := by
    induction symbols with
    | nil => simp [List.forall₂_nil_left_iff]
    | cons info symbols induction =>
        intro parts
        simp only [List.forall₂_cons_left_iff, induction]
        constructor
        · rintro ⟨_, _, ⟨byte, same, rfl⟩, ⟨flags, others, rfl⟩, rfl⟩
          exact ⟨byte :: flags, ⟨byte, flags, same, others, rfl⟩, rfl⟩
        · rintro ⟨_, ⟨byte, flags, same, others, rfl⟩, rfl⟩
          exact ⟨_, _, ⟨byte, same, rfl⟩, ⟨flags, others, rfl⟩, rfl⟩
  rw [listFrom_eq_ok symbolInfo_eq_ok]
  simp only [List.forall₂_and_left, parted]
  constructor
  · rintro ⟨length, _, ⟨names, flags, same, rfl⟩, rfl⟩
    exact ⟨length, names, flags, same, rfl⟩
  · rintro ⟨length, names, flags, same, rfl⟩
    exact ⟨length, _, ⟨names, flags, same, rfl⟩, rfl⟩

theorem symbol_eq_ok {symbol : Symbol} :
    Reader.symbol total input = .ok (symbol, rest) ↔ input = Blob.word symbol.id ++ rest := by
  simp only [Reader.symbol, bind_eq_ok, word_eq_ok, pure_eq_ok]
  constructor
  · rintro ⟨id, _, rfl, rfl, rfl⟩
    rfl
  · rintro rfl
    exact ⟨symbol.id, rest, rfl, rfl, rfl⟩

theorem lexRule_eq_ok {rule : LexRule} :
    lexRule total input = .ok (rule, rest) ↔
      rule.pattern.source.toUTF8.size < 2 ^ 32 ∧ input = Blob.lexRule rule ++ rest := by
  simp only [lexRule, bind_eq_ok, symbol_eq_ok, byte_eq_ok, signedWord_eq_ok, text_eq_ok]
  constructor
  · rintro ⟨symbol, _, rfl, kind, _, rfl, precedence, _, rfl, source, _, ⟨bound, rfl⟩, read⟩
    split at read
    · next literal =>
        obtain ⟨rfl, rfl⟩ := pure_eq_ok.1 read
        exact ⟨bound, by simp [Blob.lexRule, literal, TokenPattern.isLiteral, TokenPattern.source]⟩
    · split at read
      · next regex =>
          obtain ⟨rfl, rfl⟩ := pure_eq_ok.1 read
          exact ⟨bound, by simp [Blob.lexRule, regex, TokenPattern.isLiteral, TokenPattern.source]⟩
      · exact absurd read fail_ne_ok
  · rintro ⟨bound, rfl⟩
    obtain ⟨symbol, pattern, precedence⟩ := rule
    refine ⟨symbol, _, List.append_assoc .., if pattern.isLiteral then 0 else 1, _, rfl, precedence,
      _, rfl, pattern.source, rest, ⟨bound, rfl⟩, ?_⟩
    cases pattern <;> rfl

theorem production_eq_ok {production : Production} :
    Reader.production total input = .ok (production, rest) ↔
      input = Blob.production production ++ rest := by
  simp only [Reader.production, bind_eq_ok, symbol_eq_ok, word_eq_ok, signedWord_eq_ok, pure_eq_ok]
  constructor
  · rintro ⟨lhs, _, rfl, length, _, rfl, precedence, _, rfl, rfl, rfl⟩
    simp [Blob.production]
  · rintro rfl
    exact ⟨production.lhs, _, by simp [Blob.production], production.length, _, rfl,
      production.dynamicPrecedence, rest, rfl, rfl, rfl⟩

theorem lexState_eq_ok {symbols : List Symbol} :
    lexState total input = .ok (symbols, rest) ↔
      symbols.length < 2 ^ 32 ∧ input = Blob.lexState symbols ++ rest := by
  simp only [lexState, bind_eq_ok, count_eq_ok, plainList_eq_ok symbol_eq_ok]
  constructor
  · rintro ⟨size, _, ⟨bound, rfl⟩, rfl, rfl⟩
    exact ⟨bound, by simp [Blob.lexState]⟩
  · rintro ⟨bound, rfl⟩
    exact ⟨symbols.length, _, ⟨bound, by simp [Blob.lexState]⟩, rfl, rfl⟩

theorem action_eq_ok {action : Action} :
    Reader.action total input = .ok (action, rest) ↔ input = Blob.action action ++ rest := by
  simp only [Reader.action, bind_eq_ok, byte_eq_ok]
  constructor
  · rintro ⟨tag, middle, rfl, read⟩
    split_ifs at read with shift reduce accept
    · obtain ⟨id, _, there, last⟩ := bind_eq_ok.1 read
      obtain rfl := word_eq_ok.1 there
      obtain ⟨rfl, rfl⟩ := pure_eq_ok.1 last
      rw [shift]
      rfl
    · obtain ⟨id, _, there, last⟩ := bind_eq_ok.1 read
      obtain rfl := word_eq_ok.1 there
      obtain ⟨rfl, rfl⟩ := pure_eq_ok.1 last
      rw [reduce]
      rfl
    · obtain ⟨rfl, rfl⟩ := pure_eq_ok.1 read
      rw [accept]
      rfl
    · exact absurd read fail_ne_ok
  · rintro rfl
    cases action with
    | shift target =>
        exact ⟨0, _, rfl, bind_eq_ok.2 ⟨target.id, rest, word_eq_ok.2 rfl, rfl⟩⟩
    | reduce production =>
        exact ⟨1, _, rfl, bind_eq_ok.2 ⟨production.id, rest, word_eq_ok.2 rfl, rfl⟩⟩
    | accept => exact ⟨2, _, rfl, rfl⟩

theorem cell_eq_ok {entry : Symbol × List Action} :
    cell total input = .ok (entry, rest) ↔
      entry.2.length < 2 ^ 16 ∧ input = Blob.cell entry ++ rest := by
  simp only [cell, bind_eq_ok, symbol_eq_ok, word_eq_ok, pure_eq_ok, plainList_eq_ok action_eq_ok]
  constructor
  · rintro ⟨terminal, _, rfl, size, _, rfl, actions, _, ⟨length, rfl⟩, rfl, rfl⟩
    refine ⟨by rw [length]; exact size.toNat_lt, ?_⟩
    simp [Blob.cell, length]
  · rintro ⟨bound, rfl⟩
    exact ⟨entry.1, _, by simp [Blob.cell], .ofNat entry.2.length, _, rfl, entry.2, rest,
      ⟨(UInt16.toNat_ofNat_of_lt' bound).symm, rfl⟩, rfl, rfl⟩

theorem goto_eq_ok {entry : Symbol × StateId} :
    goto total input = .ok (entry, rest) ↔ input = Blob.goto entry ++ rest := by
  simp only [goto, bind_eq_ok, symbol_eq_ok, word_eq_ok, pure_eq_ok]
  constructor
  · rintro ⟨nonterminal, _, rfl, target, _, rfl, rfl, rfl⟩
    simp [Blob.goto]
  · rintro rfl
    exact ⟨entry.1, _, by simp [Blob.goto], entry.2.id, rest, rfl, rfl, rfl⟩

theorem finish_eq_ok {value : Unit} :
    finish total input = .ok (value, rest) ↔ input = [] ∧ rest = [] := by
  cases input with
  | nil => simp [finish, eq_comm]
  | cons byte input => simp [finish]

theorem state_eq_ok {state : StateData} :
    Reader.state total input = .ok (state, rest) ↔
      state.Storable ∧ input = Blob.state state ++ rest := by
  simp only [Reader.state, bind_eq_ok, word_eq_ok, count_eq_ok, list_eq_ok cell_eq_ok,
    plainList_eq_ok goto_eq_ok, pure_eq_ok]
  constructor
  · rintro ⟨lexState, _, rfl, cellCount, _, ⟨fewCells, rfl⟩, actions, _, ⟨rfl, alternatives, rfl⟩,
      gotoCount, _, ⟨fewGotos, rfl⟩, gotos, _, ⟨rfl, rfl⟩, rfl, rfl⟩
    exact ⟨⟨fewCells, alternatives, fewGotos⟩, by simp [Blob.state]⟩
  · rintro ⟨⟨fewCells, alternatives, fewGotos⟩, rfl⟩
    exact ⟨state.lexState.id, _, by simp [Blob.state], state.actions.length, _, ⟨fewCells, rfl⟩,
      state.actions, _, ⟨rfl, alternatives, rfl⟩, state.gotos.length, _, ⟨fewGotos, rfl⟩,
      state.gotos, rest, ⟨rfl, rfl⟩, rfl, rfl⟩

theorem contents_eq_ok {data : GrammarData} :
    contents total input = .ok (data, rest) ↔
      data.Storable ∧ rest = [] ∧ ∃ reserved flags,
        List.Forall₂ (fun info byte => flagByte info = byte &&& 7) data.symbols flags ∧
          input = contentsWith reserved flags data := by
  simp only [contents, bind_eq_ok, word_eq_ok, count_eq_ok, smallCount_eq_ok, symbol_eq_ok,
    text_eq_ok, ite_fail_eq_ok, symbolInfos_eq_ok, list_eq_ok lexRule_eq_ok,
    plainList_eq_ok production_eq_ok, list_eq_ok lexState_eq_ok, list_eq_ok state_eq_ok,
    finish_eq_ok, pure_eq_ok, ne_eq, not_not]
  constructor
  · -- What is left after each reader is replaced at the end, when all of them are taken apart.
    rintro ⟨reserved, _, _, _, _, ⟨fewSymbols, _⟩, terminalCount, _, _, _, _, ⟨fewStates, _⟩, _, _,
      ⟨fewProductions, _⟩, start, _, _, name, _, ⟨shortName, _⟩, _, _, ⟨-, _⟩, _, symbols, _,
      ⟨_, shortNames, flags, same, _⟩, _, _, ⟨fewRules, _⟩, rules, _, ⟨_, shortRules, _⟩,
      productions, _, ⟨_, _⟩, _, _, ⟨fewLexStates, _⟩, lexStates, _, ⟨_, terminals, _⟩, states, _,
      ⟨_, storable, _⟩, _, _, ⟨_, _⟩, _, _⟩
    subst_vars
    exact ⟨⟨shortName, fewSymbols, shortNames, fewRules, shortRules, fewProductions, fewLexStates,
      terminals, fewStates, storable⟩, rfl, reserved, flags, same, by simp [contentsWith]⟩
  · rintro ⟨storable, rfl, reserved, flags, same, rfl⟩
    exact ⟨reserved, _, by simp [contentsWith], data.symbols.length, _, ⟨storable.symbols, rfl⟩,
      data.terminalCount, _, rfl, data.states.length, _, ⟨storable.states, rfl⟩,
      data.productions.length, _, ⟨storable.productions, rfl⟩, data.startSymbol, _, rfl, data.name,
      _, ⟨storable.name, rfl⟩, data.symbols.length, _, ⟨storable.symbols, rfl⟩, rfl, data.symbols,
      _, ⟨rfl, storable.symbolNames, flags, same, rfl⟩, data.lexRules.length, _,
      ⟨storable.lexRules, rfl⟩, data.lexRules, _, ⟨rfl, storable.patterns, rfl⟩, data.productions,
      _, ⟨rfl, rfl⟩, data.lexStates.length, _, ⟨storable.lexStates, rfl⟩,
      data.lexStates, _, ⟨rfl, storable.terminals, rfl⟩, data.states, _,
      ⟨rfl, storable.state, (List.append_nil _).symm⟩, (), [], ⟨rfl, rfl⟩, rfl, rfl⟩

end Reader

end Blob

end IncrementalGlr
