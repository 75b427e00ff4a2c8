import IncrementalGlr.Grammar.Table
import IncrementalGlr.Proofs.Blob.RoundTrip

/-!
# Binary forms with one wrong byte

Each step of the checksum is injective in the remainder and in the byte, so two byte sequences that
differ in a single byte have different checksums.  A binary form with one wrong byte is therefore
refused, and the place of the byte alone decides on which grounds.
-/

namespace IncrementalGlr

namespace Checksum

/-! ## Injectivity -/

/-- A remainder is given by its lowest digit and the others. -/
theorem eq_of_digits {first second : UInt32} (lowest : first &&& 1 = 1 ↔ second &&& 1 = 1)
    (others : first >>> 1 = second >>> 1) : first = second := by
  rw [← UInt32.toNat_inj] at others ⊢
  simp only [← UInt32.toNat_inj, UInt32.toNat_and, UInt32.toNat_one, Nat.and_one_is_mod] at lowest
  simp only [UInt32.toNat_shiftRight, UInt32.toNat_one, Nat.one_mod, Nat.shiftRight_eq_div_pow,
    Nat.pow_one] at others
  omega

/-- The highest digit of the polynomial is missing in a remainder that was shifted. -/
theorem shifted_xor_ne (first second : UInt32) :
    (first >>> 1) ^^^ (0xEDB88320 : UInt32) ≠ second >>> 1 := by
  intro same
  have small : ∀ remainder : UInt32, (remainder >>> 1).toNat < 2 ^ 31 := fun remainder => by
    have := remainder.toNat_lt
    simp only [UInt32.toNat_shiftRight, UInt32.toNat_one, Nat.one_mod, Nat.shiftRight_eq_div_pow,
      Nat.pow_one]
    omega
  have polynomial : (0xEDB88320 : UInt32) = (first >>> 1) ^^^ (second >>> 1) := by
    rw [← same, ← UInt32.xor_assoc, UInt32.xor_self, UInt32.zero_xor]
  have bound := Nat.xor_lt_two_pow (small first) (small second)
  rw [← UInt32.toNat_xor, ← polynomial] at bound
  exact absurd bound (by decide)

theorem shift_injective : Function.Injective shift := by
  intro first second same
  simp only [shift] at same
  split_ifs at same with odd otherOdd otherOdd
  · exact eq_of_digits (iff_of_true odd otherOdd) ((UInt32.xor_left_inj _).1 same)
  · exact absurd same (shifted_xor_ne first second)
  · exact absurd same.symm (shifted_xor_ne second first)
  · exact eq_of_digits (iff_of_false odd otherOdd) same

theorem shifts_injective (count : Nat) : Function.Injective (shifts count) := by
  induction count with
  | zero => exact Function.injective_id
  | succ count induction => exact induction.comp shift_injective

theorem absorb_left_injective (byte : UInt8) : Function.Injective (absorb · byte) :=
  fun _ _ same => (UInt32.xor_left_inj _).1 (shifts_injective 8 same)

theorem absorb_right_injective (remainder : UInt32) : Function.Injective (absorb remainder) :=
  fun _ _ same => UInt8.toUInt32_inj.1 ((UInt32.xor_right_inj _).1 (shifts_injective 8 same))

theorem foldl_absorb_injective (bytes : List UInt8) :
    Function.Injective fun remainder => bytes.foldl absorb remainder := by
  induction bytes with
  | nil => exact Function.injective_id
  | cons byte bytes induction => exact induction.comp (absorb_left_injective byte)

/-- Another byte at one place of a sequence gives another checksum. -/
theorem ofBytes_ne {front back : List UInt8} {byte other : UInt8} (changed : byte ≠ other) :
    ofBytes (front ++ byte :: back) ≠ ofBytes (front ++ other :: back) := by
  intro same
  have absorbed := (UInt32.xor_left_inj _).1 same
  simp only [List.foldl_append, List.foldl_cons] at absorbed
  exact changed (absorb_right_injective _ (foldl_absorb_injective back absorbed))

end Checksum

namespace Blob

/-! ## One wrong byte -/

/-- The bytes with some bits of the byte at an index inverted. -/
def corrupt (index : Nat) (mask : UInt8) (bytes : List UInt8) : List UInt8 :=
  bytes.modify index (· ^^^ mask)

variable {index : Nat} {mask : UInt8} {bytes : List UInt8}

@[simp] theorem length_corrupt : (corrupt index mask bytes).length = bytes.length :=
  List.length_modify ..

theorem take_corrupt (size : Nat) :
    (corrupt index mask bytes).take size = corrupt index mask (bytes.take size) :=
  List.take_modify ..

theorem corrupt_of_le (outside : bytes.length ≤ index) : corrupt index mask bytes = bytes :=
  List.modify_eq_self outside

theorem drop_corrupt {size : Nat} (behind : size ≤ index) :
    (corrupt index mask bytes).drop size = corrupt (index - size) mask (bytes.drop size) :=
  List.drop_modify_of_ge _ _ _ _ behind

theorem drop_corrupt_of_lt {size : Nat} (before : index < size) :
    (corrupt index mask bytes).drop size = bytes.drop size :=
  List.drop_modify_of_lt _ _ _ _ before

theorem xor_ne_self (flips : mask ≠ 0) (byte : UInt8) : byte ^^^ mask ≠ byte := fun same =>
  flips ((UInt8.xor_right_inj byte).1 (same.trans UInt8.xor_zero.symm))

/-- The parts of a sequence before and behind the wrong byte. -/
theorem exists_corrupt_eq (mask : UInt8) (inside : index < bytes.length) : ∃ front byte back,
    bytes = front ++ byte :: back ∧
      corrupt index mask bytes = front ++ (byte ^^^ mask) :: back := by
  refine ⟨bytes.take index, bytes[index], bytes.drop (index + 1), ?_,
    List.modify_eq_take_cons_drop inside⟩
  rw [← List.drop_eq_getElem_cons inside, List.take_append_drop]

theorem corrupt_ne_self (flips : mask ≠ 0) (inside : index < bytes.length) :
    corrupt index mask bytes ≠ bytes := by
  obtain ⟨front, byte, back, rfl, changed⟩ := exists_corrupt_eq mask inside
  rw [changed]
  exact fun same => xor_ne_self flips byte (List.cons.inj (List.append_cancel_left same)).1

theorem checksum_corrupt_ne (flips : mask ≠ 0) (inside : index < bytes.length) :
    Checksum.ofBytes (corrupt index mask bytes) ≠ Checksum.ofBytes bytes := by
  obtain ⟨front, byte, back, rfl, changed⟩ := exists_corrupt_eq mask inside
  rw [changed]
  exact Checksum.ofBytes_ne (xor_ne_self flips byte)

/-! ## The order of the checks -/

theorem decodeWithChecksum_of_magic (other : bytes.take 4 ≠ magic) :
    decodeWithChecksum bytes = .error .badMagic := by
  rw [decodeWithChecksum, if_pos other]
  rfl

variable {found : UInt16} {rest : List UInt8}

/-- Behind the magic the version decides before the checksum does. -/
theorem decodeWithChecksum_of_start (start : bytes.take 4 = magic)
    (long : headerSize + checksumSize ≤ bytes.length) (next : bytes.drop 4 = word found ++ rest) :
    (found ≠ version → decodeWithChecksum bytes = .error (.unsupportedVersion found version)) ∧
      (found = version →
        wordOfBytes (bytes.drop (bytes.length - checksumSize)) ≠
          Checksum.ofBytes (bytes.take (bytes.length - checksumSize)) →
        decodeWithChecksum bytes = .error (.checksumMismatch
          (wordOfBytes (bytes.drop (bytes.length - checksumSize)))
          (Checksum.ofBytes (bytes.take (bytes.length - checksumSize))))) := by
  have read : Reader.word bytes.length (bytes.drop 4) = .ok (found, rest) :=
    Reader.word_eq_ok.2 next
  simp only [decodeWithChecksum, start, ne_eq, not_true_eq_false, if_false, not_lt.2 long, read]
  constructor
  · intro other
    exact (if_pos other).trans rfl
  · intro same mismatch
    exact (if_neg (not_not.2 same)).trans ((if_pos mismatch).trans rfl)

/-! ## Refusal -/

theorem exists_encode_eq (data : GrammarData) : ∃ rest, encode data = magic ++ (word version ++ rest) ∧
    headerSize + checksumSize ≤ (encode data).length := by
  refine ⟨contentsWith 0 (data.symbols.map flagByte) data ++
    doubleWord (Checksum.ofBytes (body data)), ?_, ?_⟩
  · simp only [encode, body_eq, bodyWith, List.append_assoc]
  · have long := headerSize_le_length_bodyWith 0 (data.symbols.map flagByte) data
    rw [encode, body_eq, List.length_append]
    exact Nat.add_le_add_right long 4

theorem exists_eq_word_append (long : 2 ≤ bytes.length) :
    ∃ value rest, bytes = word value ++ rest := by
  match bytes, long with
  | low :: high :: rest, _ => exact ⟨_, rest, congrArg (· ++ rest) (joinWord_eq_iff.1 rfl)⟩

/-- A body and a checksum no longer belong together if one byte of them is wrong. -/
theorem mismatch_of_corrupt (flips : mask ≠ 0) {body : List UInt8}
    (inside : index < (body ++ doubleWord (Checksum.ofBytes body)).length) :
    wordOfBytes ((corrupt index mask (body ++ doubleWord (Checksum.ofBytes body))).drop
        body.length) ≠
      Checksum.ofBytes ((corrupt index mask (body ++ doubleWord (Checksum.ofBytes body))).take
        body.length) := by
  rw [take_corrupt, List.take_left]
  rcases lt_or_ge index body.length with early | late
  · rw [drop_corrupt_of_lt early, List.drop_left, wordOfBytes_doubleWord]
    exact (checksum_corrupt_ne flips early).symm
  · rw [drop_corrupt late, List.drop_left, corrupt_of_le late]
    intro same
    have trailer : doubleWord (wordOfBytes (corrupt (index - body.length) mask
        (doubleWord (Checksum.ofBytes body)))) = _ := doubleWord_wordOfBytes length_corrupt
    rw [same] at trailer
    rw [List.length_append] at inside
    exact corrupt_ne_self flips (by omega) trailer.symm

/-- A written binary form with one wrong byte is refused because of its magic if the byte is one of
the first four, because of its version if it is one of the next two, and otherwise because of its
checksum. -/
theorem decodeWithChecksum_corrupt (data : GrammarData) (flips : mask ≠ 0)
    (inside : index < (encode data).length) :
    (index < 4 → decodeWithChecksum (corrupt index mask (encode data)) = .error .badMagic) ∧
      (4 ≤ index → index < 6 → ∃ found, found ≠ version ∧
        decodeWithChecksum (corrupt index mask (encode data)) =
          .error (.unsupportedVersion found version)) ∧
      (6 ≤ index → ∃ stored computed, stored ≠ computed ∧
        decodeWithChecksum (corrupt index mask (encode data)) =
          .error (.checksumMismatch stored computed)) := by
  obtain ⟨rest, parts, long⟩ := exists_encode_eq data
  have stillLong : headerSize + checksumSize ≤ (corrupt index mask (encode data)).length := by
    rwa [length_corrupt]
  have start : 4 ≤ index → (corrupt index mask (encode data)).take 4 = magic := fun behind => by
    rw [take_corrupt, corrupt_of_le ((List.length_take_le ..).trans behind), parts]
    rfl
  obtain ⟨found, left, next⟩ : ∃ found left,
      (corrupt index mask (encode data)).drop 4 = word found ++ left := by
    refine exists_eq_word_append ?_
    rw [List.length_drop]
    exact Nat.le_sub_of_add_le (le_trans (by decide) stillLong)
  have read : 4 ≤ index → word found = corrupt (index - 4) mask (word version) := fun behind => by
    have two := congrArg (·.take 2) next
    simp only [drop_corrupt behind, take_corrupt, parts] at two
    exact two.symm
  refine ⟨fun early => ?_, fun behind early => ?_, fun late => ?_⟩
  · refine decodeWithChecksum_of_magic ?_
    rw [take_corrupt, parts]
    exact corrupt_ne_self flips early
  · have inVersion : index - 4 < (word version).length := by
      simp only [word, List.length_cons, List.length_nil]
      omega
    have other : found ≠ version := fun same =>
      corrupt_ne_self flips inVersion (same ▸ read behind).symm
    exact ⟨found, other,
      (decodeWithChecksum_of_start (start behind) stillLong next).1 other⟩
  · have behind : 4 ≤ index := by omega
    have same : found = version := by
      have here := read behind
      rw [corrupt_of_le (show 2 ≤ index - 4 by omega)] at here
      exact (joinWord_eq_iff.2 rfl).symm.trans (joinWord_eq_iff.2 here)
    have split : (corrupt index mask (encode data)).length - checksumSize =
        (body data).length := by
      simp [encode, doubleWord, checksumSize]
    refine ⟨_, _, ?_, (decodeWithChecksum_of_start (start behind) stillLong next).2 same ?_⟩
    all_goals
      rw [split]
      exact mismatch_of_corrupt flips inside

end Blob

/-- A written binary form with one wrong byte is never loaded, and the place of the byte decides on
which grounds it is refused. -/
theorem Grammar.ofBytes_corrupt (data : GrammarData) {index : Nat}
    (inside : index < (Blob.encode data).length) {mask : UInt8} (flips : mask ≠ 0) :
    (index < 4 → ofBytes (Blob.corrupt index mask (Blob.encode data)) = .error .badMagic) ∧
      (4 ≤ index → index < 6 → ∃ found, found ≠ Blob.version ∧
        ofBytes (Blob.corrupt index mask (Blob.encode data)) =
          .error (.unsupportedVersion found Blob.version)) ∧
      (6 ≤ index → ∃ stored computed, stored ≠ computed ∧
        ofBytes (Blob.corrupt index mask (Blob.encode data)) =
          .error (.checksumMismatch stored computed)) := by
  have refused : ∀ {bytes : List UInt8} {error : LoadError},
      Blob.decodeWithChecksum bytes = .error error → ofBytes bytes = .error error := by
    intro bytes error failed
    rw [ofBytes, failed]
    rfl
  obtain ⟨magic, version, checksum⟩ := Blob.decodeWithChecksum_corrupt data flips inside
  refine ⟨fun early => refused (magic early), fun behind early => ?_, fun late => ?_⟩
  · obtain ⟨found, other, failed⟩ := version behind early
    exact ⟨found, other, refused failed⟩
  · obtain ⟨stored, computed, mismatch, failed⟩ := checksum late
    exact ⟨stored, computed, mismatch, refused failed⟩

/-- The last byte belongs to the checksum. -/
theorem Grammar.ofBytes_corrupt_single : ∃ stored computed, stored ≠ computed ∧
    ofBytes (Blob.corrupt ((Blob.encode Blob.single).length - 1) 1 (Blob.encode Blob.single)) =
      .error (.checksumMismatch stored computed) := by
  obtain ⟨_, _, long⟩ := Blob.exists_encode_eq Blob.single
  have long : 30 ≤ (Blob.encode Blob.single).length := long
  exact (ofBytes_corrupt Blob.single (by omega) (by decide)).2.2 (by omega)

end IncrementalGlr
