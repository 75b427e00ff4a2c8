import IncrementalGlr.Proofs.Blob.Reader
import IncrementalGlr.Proofs.Outcome

/-!
# Reading back what was written

The binary forms that are read as a given grammar are its body with any reserved word and any upper
bits in the bytes of the symbols' properties, each with its checksum behind it.  The form that is
written is the one among them in which all these bits are zero.
-/

namespace IncrementalGlr

namespace Blob

/-- Everything before the checksum, with a given reserved word and with given bytes for the
properties of the symbols. -/
def bodyWith (reserved : UInt16) (flags : List UInt8) (data : GrammarData) : List UInt8 :=
  magic ++ word version ++ contentsWith reserved flags data

/-- Whether the bytes before a checksum are read as a grammar. -/
def Denotes (body : List UInt8) (data : GrammarData) : Prop :=
  ∃ reserved flags, List.Forall₂ (fun info byte => flagByte info = byte &&& 7) data.symbols flags ∧
    body = bodyWith reserved flags data

/-! ## The written body -/

theorem flagByte_and_seven (info : SymbolInfo) : flagByte info &&& 7 = flagByte info := by
  rw [← Reader.ofBits_eq_iff.1 (Reader.ofBits_flagByte info)]

theorem flatMap_symbolInfo (symbols : List SymbolInfo) :
    symbols.flatMap symbolInfo =
      (List.zipWith symbolInfoWith (symbols.map flagByte) symbols).flatten := by
  induction symbols with
  | nil => rfl
  | cons info symbols induction => simp [induction, symbolInfo, symbolInfoWith]

theorem body_eq (data : GrammarData) : body data = bodyWith 0 (data.symbols.map flagByte) data := by
  simp only [body, bodyWith, contentsWith, flatMap_symbolInfo, List.append_assoc]

theorem denotes_body (data : GrammarData) : Denotes (body data) data := by
  refine ⟨0, data.symbols.map flagByte, ?_, body_eq data⟩
  rw [List.forall₂_map_right_iff]
  exact List.forall₂_same.2 fun info _ => (flagByte_and_seven info).symm

/-! ## The stored checksum -/

@[simp] theorem wordOfBytes_doubleWord (value : UInt32) : wordOfBytes (doubleWord value) = value :=
  joinDoubleWord_eq_iff.2 rfl

theorem doubleWord_wordOfBytes {bytes : List UInt8} (four : bytes.length = 4) :
    doubleWord (wordOfBytes bytes) = bytes := by
  match bytes, four with
  | [b0, b1, b2, b3], _ => exact (joinDoubleWord_eq_iff.1 rfl).symm

/-! ## Accepted forms -/

/-- The header alone makes up the least length. -/
theorem headerSize_le_length_bodyWith (reserved : UInt16) (flags : List UInt8)
    (data : GrammarData) : headerSize ≤ (bodyWith reserved flags data).length := by
  simp only [bodyWith, contentsWith, magic, word, count, doubleWord, headerSize, List.length_append,
    List.length_cons, List.length_nil]
  omega

/-- A body is read from the bytes between its version and its end. -/
theorem denotes_iff_contents (total : Nat) {body : List UInt8} {data : GrammarData} :
    Denotes body data ∧ data.Storable ↔
      body.take 6 = magic ++ word version ∧
        ∃ rest, Reader.contents total (body.drop 6) = .ok (data, rest) := by
  simp only [Reader.contents_eq_ok]
  constructor
  · rintro ⟨⟨reserved, flags, same, rfl⟩, storable⟩
    exact ⟨rfl, [], storable, rfl, reserved, flags, same, rfl⟩
  · rintro ⟨start, _, storable, -, reserved, flags, same, contents⟩
    refine ⟨⟨reserved, flags, same, ?_⟩, storable⟩
    rw [bodyWith, ← start, ← contents, List.take_append_drop]

/-- A binary form is accepted exactly if its body denotes a grammar whose counts can be stored and
its last four bytes are the checksum of the body. -/
theorem decodeWithChecksum_eq_ok {bytes : List UInt8} {data : GrammarData} {stored : UInt32} :
    decodeWithChecksum bytes = .ok (data, stored) ↔
      data.Storable ∧ ∃ body, Denotes body data ∧ stored = Checksum.ofBytes body ∧
        bytes = body ++ doubleWord stored := by
  simp only [decodeWithChecksum, Except.ite_throw_eq_ok, Except.bind_eq_ok, ne_eq, not_not, not_lt,
    Prod.exists, Reader.word_eq_ok]
  constructor
  · rintro ⟨start, long, found, rest, next, rfl, same, read, left, contents, ⟨⟩⟩
    have trailer : (bytes.drop (bytes.length - checksumSize)).length = 4 := by
      simp only [List.length_drop, headerSize, checksumSize] at long ⊢
      omega
    have six : (bytes.take (bytes.length - checksumSize)).take 6 = magic ++ word version := by
      rw [List.take_take, min_eq_left (by simp only [headerSize, checksumSize] at long ⊢; omega),
        ← List.take_append_drop 4 bytes, start, next]
      rfl
    obtain ⟨denotes, storable⟩ := (denotes_iff_contents _).2 ⟨six, left, contents⟩
    refine ⟨storable, _, denotes, same, ?_⟩
    rw [doubleWord_wordOfBytes trailer, List.take_append_drop]
  · rintro ⟨storable, body, denotes, rfl, rfl⟩
    have long : headerSize ≤ body.length := by
      obtain ⟨reserved, flags, -, rfl⟩ := denotes
      exact headerSize_le_length_bodyWith reserved flags data
    obtain ⟨start, rest, contents⟩ :=
      (denotes_iff_contents body.length).1 ⟨denotes, storable⟩
    have split : (body ++ doubleWord (Checksum.ofBytes body)).length - checksumSize =
        body.length := by simp [doubleWord, checksumSize]
    have opened : body = magic ++ word version ++ body.drop 6 := by
      rw [← start, List.take_append_drop]
    refine ⟨?_, ?_, version, body.drop 6 ++ doubleWord (Checksum.ofBytes body), ?_, rfl, ?_⟩
    · rw [opened]
      rfl
    · simp only [List.length_append, headerSize, checksumSize] at long ⊢
      exact Nat.add_le_add_right long 4
    · nth_rewrite 1 [opened]
      rfl
    · simp only [split, List.take_left, List.drop_left, wordOfBytes_doubleWord, contents]
      exact ⟨trivial, data, rest, rfl, rfl⟩

theorem decode_eq_ok {bytes : List UInt8} {data : GrammarData} :
    decode bytes = .ok data ↔
      data.Storable ∧ ∃ body, Denotes body data ∧
        bytes = body ++ doubleWord (Checksum.ofBytes body) := by
  simp only [decode, Except.bind_eq_ok, Prod.exists, decodeWithChecksum_eq_ok]
  constructor
  · rintro ⟨_, _, ⟨storable, body, denotes, rfl, rfl⟩, ⟨⟩⟩
    exact ⟨storable, body, denotes, rfl⟩
  · rintro ⟨storable, body, denotes, rfl⟩
    exact ⟨data, _, ⟨storable, body, denotes, rfl, rfl⟩, rfl⟩

/-- A grammar whose counts can be stored is read back as it was written, with the checksum of what
was written. -/
theorem decode_encode {data : GrammarData} (storable : data.Storable) :
    decode (encode data) = .ok data ∧
      decodeWithChecksum (encode data) = .ok (data, Checksum.ofBytes (body data)) :=
  ⟨decode_eq_ok.2 ⟨storable, body data, denotes_body data, rfl⟩,
    decodeWithChecksum_eq_ok.2 ⟨storable, body data, denotes_body data, rfl, rfl⟩⟩

/-- The compiled grammar whose only text is `x`. -/
def single : GrammarData where
  name := "single"
  symbols := [⟨"end", .endOfInput, false, true, false⟩, ⟨"x", .terminal, true, false, false⟩,
    ⟨"s", .nonterminal, true, true, false⟩]
  terminalCount := 2
  startSymbol := ⟨2⟩
  lexRules := [⟨⟨1⟩, .literal "x", -1⟩]
  productions := [⟨⟨2⟩, 1, 0⟩]
  lexStates := [[⟨1⟩], [⟨0⟩]]
  states := [⟨⟨0⟩, [(⟨1⟩, [.shift ⟨1⟩])], [(⟨2⟩, ⟨2⟩)]⟩, ⟨⟨1⟩, [(⟨0⟩, [.reduce ⟨0⟩])], []⟩,
    ⟨⟨1⟩, [(⟨0⟩, [.accept])], []⟩]

theorem storable_single : single.Storable := by
  constructor <;> decide +kernel

theorem decode_encode_single :
    decode (encode single) = .ok single ∧
      decodeWithChecksum (encode single) = .ok (single, Checksum.ofBytes (body single)) :=
  decode_encode storable_single

end Blob

end IncrementalGlr
