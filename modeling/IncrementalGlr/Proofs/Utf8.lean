import IncrementalGlr.Pattern.Scan
import IncrementalGlr.Text.Utf8
import Mathlib.Data.List.Basic
import Mathlib.Tactic.SplitIfs

/-!
# Byte sequences without a malformed place

The search for malformed places finds none exactly in the encodings of strings.  A character is a
leading byte with the bytes that may stand behind it, and both lie in the ranges of the search.
-/

namespace IncrementalGlr

namespace Utf8

/-- Whether bytes may stand behind a leading byte: the first one lies in a given range, and all
others continue a character. -/
def Follows (least greatest : UInt8) : List UInt8 → Prop
  | [] => True
  | byte :: rest => (least ≤ byte ∧ byte ≤ greatest) ∧ Follows 0x80 0xBF rest

theorem tail_eq_ok {least greatest : UInt8} {done count : Nat} {bytes rest : List UInt8} :
    tail least greatest done count bytes = .ok rest ↔
      ∃ others, others.length = count ∧ Follows least greatest others ∧
        bytes = others ++ rest := by
  induction count generalizing least greatest done bytes with
  | zero =>
      constructor
      · rintro ⟨⟩
        exact ⟨[], rfl, trivial, rfl⟩
      · rintro ⟨others, none, -, rfl⟩
        rw [List.length_eq_zero_iff.1 none]
        rfl
  | succ count induction =>
      cases bytes with
      | nil =>
          constructor
          · nofun
          · rintro ⟨_ | ⟨byte, others⟩, length, -, same⟩ <;> simp at length same
      | cons byte bytes =>
          rw [tail]
          split
          · next inRange =>
              rw [induction]
              constructor
              · rintro ⟨others, length, follows, rfl⟩
                exact ⟨byte :: others, by rw [List.length_cons, length], ⟨inRange, follows⟩, rfl⟩
              · rintro ⟨_ | ⟨first, others⟩, length, follows, same⟩
                · cases length
                · obtain ⟨rfl, rfl⟩ := List.cons.inj same
                  exact ⟨others, Nat.succ.inj length, follows.2, rfl⟩
          · next outside =>
              constructor
              · nofun
              · rintro ⟨_ | ⟨first, others⟩, length, follows, same⟩
                · cases length
                · obtain ⟨rfl, rfl⟩ := List.cons.inj same
                  exact absurd follows.1 outside

/-- The number of a character that is given as a number. -/
theorem toNat_val_ofNat {code : Nat} (valid : code.isValidChar) :
    (Char.ofNat code).val.toNat = code := by
  rw [Char.ofNat, dif_pos valid]
  rfl

theorem eq_of_toNat_eq {code : Nat} (byte : UInt8) (same : code = byte.toNat) :
    UInt8.ofNat code = byte := by
  rw [same, UInt8.ofNat_toNat]

theorem toNat_ofNat (code : Nat) (small : code < 256) : (UInt8.ofNat code).toNat = code :=
  UInt8.toNat_ofNat_of_lt' small

section Characters

variable {lead second third fourth : UInt8}

theorem encode_one (low : lead.toNat < 0x80) :
    String.utf8EncodeChar (Char.ofNat lead.toNat) = [lead] := by
  have valid : lead.toNat.isValidChar := .inl (by omega)
  rw [String.utf8EncodeChar, toNat_val_ofNat valid]
  rw [if_pos (by omega), eq_of_toNat_eq lead rfl]

theorem encode_two (leads : 0xC2 ≤ lead.toNat ∧ lead.toNat < 0xE0)
    (continues : 0x80 ≤ second.toNat ∧ second.toNat ≤ 0xBF) :
    String.utf8EncodeChar
      (Char.ofNat ((lead.toNat - 0xC0) * 64 + (second.toNat - 0x80))) = [lead, second] := by
  have valid : Nat.isValidChar ((lead.toNat - 0xC0) * 64 + (second.toNat - 0x80)) :=
    .inl (by omega)
  rw [String.utf8EncodeChar, toNat_val_ofNat valid]
  rw [if_neg (by omega), if_pos (by omega), eq_of_toNat_eq lead (by omega),
    eq_of_toNat_eq second (by omega)]

theorem encode_three (leads : 0xE0 ≤ lead.toNat ∧ lead.toNat < 0xF0)
    (second_ge : 0x80 ≤ second.toNat) (second_le : second.toNat ≤ 0xBF)
    (long : lead.toNat = 0xE0 → 0xA0 ≤ second.toNat)
    (noSurrogate : lead.toNat = 0xED → second.toNat ≤ 0x9F)
    (continues : 0x80 ≤ third.toNat ∧ third.toNat ≤ 0xBF) :
    String.utf8EncodeChar
      (Char.ofNat ((lead.toNat - 0xE0) * 4096 + (second.toNat - 0x80) * 64 +
        (third.toNat - 0x80))) = [lead, second, third] := by
  have valid : Nat.isValidChar ((lead.toNat - 0xE0) * 4096 + (second.toNat - 0x80) * 64 +
      (third.toNat - 0x80)) := by
    unfold Nat.isValidChar
    omega
  rw [String.utf8EncodeChar, toNat_val_ofNat valid]
  rw [if_neg (by omega), if_neg (by omega), if_pos (by omega),
    eq_of_toNat_eq lead (by omega), eq_of_toNat_eq second (by omega),
    eq_of_toNat_eq third (by omega)]

theorem encode_four (leads : 0xF0 ≤ lead.toNat ∧ lead.toNat ≤ 0xF4)
    (second_ge : 0x80 ≤ second.toNat) (second_le : second.toNat ≤ 0xBF)
    (long : lead.toNat = 0xF0 → 0x90 ≤ second.toNat)
    (last : lead.toNat = 0xF4 → second.toNat ≤ 0x8F)
    (third_range : 0x80 ≤ third.toNat ∧ third.toNat ≤ 0xBF)
    (fourth_range : 0x80 ≤ fourth.toNat ∧ fourth.toNat ≤ 0xBF) :
    String.utf8EncodeChar
      (Char.ofNat ((lead.toNat - 0xF0) * 262144 + (second.toNat - 0x80) * 4096 +
        (third.toNat - 0x80) * 64 + (fourth.toNat - 0x80))) = [lead, second, third, fourth] := by
  have valid : Nat.isValidChar ((lead.toNat - 0xF0) * 262144 + (second.toNat - 0x80) * 4096 +
      (third.toNat - 0x80) * 64 + (fourth.toNat - 0x80)) := by
    unfold Nat.isValidChar
    omega
  rw [String.utf8EncodeChar, toNat_val_ofNat valid]
  rw [if_neg (by omega), if_neg (by omega), if_neg (by omega),
    eq_of_toNat_eq lead (by omega), eq_of_toNat_eq second (by omega),
    eq_of_toNat_eq third (by omega), eq_of_toNat_eq fourth (by omega)]

theorem continuation?_one (low : lead.toNat < 0x80) : continuation? lead = some (0, 0, 0) := by
  simp only [continuation?, UInt8.lt_iff_toNat_lt, UInt8.reduceToNat]
  rw [if_pos low]

theorem continuation?_two (leads : 0xC2 ≤ lead.toNat ∧ lead.toNat < 0xE0) :
    continuation? lead = some (0x80, 0xBF, 1) := by
  simp only [continuation?, UInt8.lt_iff_toNat_lt, UInt8.reduceToNat]
  rw [if_neg (by omega), if_neg (by omega), if_pos leads.2]

theorem continuation?_three (leads : 0xE0 ≤ lead.toNat ∧ lead.toNat < 0xF0) :
    continuation? lead = some (if lead.toNat = 0xE0 then 0xA0 else 0x80,
      if lead.toNat = 0xED then 0x9F else 0xBF, 2) := by
  simp only [continuation?, UInt8.lt_iff_toNat_lt, ← UInt8.toNat_inj, UInt8.reduceToNat]
  rw [if_neg (by omega), if_neg (by omega), if_neg (by omega)]
  split_ifs <;> first | rfl | omega

theorem continuation?_four (leads : 0xF0 ≤ lead.toNat ∧ lead.toNat ≤ 0xF4) :
    continuation? lead = some (if lead.toNat = 0xF0 then 0x90 else 0x80,
      if lead.toNat = 0xF4 then 0x8F else 0xBF, 3) := by
  simp only [continuation?, UInt8.lt_iff_toNat_lt, ← UInt8.toNat_inj, UInt8.reduceToNat]
  rw [if_neg (by omega), if_neg (by omega), if_neg (by omega), if_neg (by omega),
    if_neg (by omega), if_neg (by omega)]
  split_ifs <;> first | rfl | omega

theorem continuation?_none (leads : 0x80 ≤ lead.toNat ∧ lead.toNat < 0xC2 ∨ 0xF4 < lead.toNat) :
    continuation? lead = none := by
  simp only [continuation?, UInt8.lt_iff_toNat_lt, ← UInt8.toNat_inj, UInt8.reduceToNat]
  split_ifs <;> first | rfl | omega

/-- A leading byte with bytes that may stand behind it makes up a character. -/
theorem exists_encode_of_follows {least greatest : UInt8} {others : List UInt8}
    (known : continuation? lead = some (least, greatest, others.length))
    (follows : Follows least greatest others) : ∃ c, lead :: others = String.utf8EncodeChar c := by
  obtain one | two | three | four | none : lead.toNat < 0x80 ∨
      (0xC2 ≤ lead.toNat ∧ lead.toNat < 0xE0) ∨ (0xE0 ≤ lead.toNat ∧ lead.toNat < 0xF0) ∨
      (0xF0 ≤ lead.toNat ∧ lead.toNat ≤ 0xF4) ∨
      (0x80 ≤ lead.toNat ∧ lead.toNat < 0xC2 ∨ 0xF4 < lead.toNat) := by omega
  · rw [continuation?_one one] at known
    simp only [Option.some.injEq, Prod.mk.injEq] at known
    obtain rfl := List.length_eq_zero_iff.1 known.2.2.symm
    exact ⟨_, (encode_one one).symm⟩
  · rw [continuation?_two two] at known
    simp only [Option.some.injEq, Prod.mk.injEq] at known
    obtain ⟨rfl, rfl, length⟩ := known
    obtain ⟨second, rfl⟩ := List.length_eq_one_iff.1 length.symm
    simp only [Follows, UInt8.le_iff_toNat_le, UInt8.reduceToNat] at follows
    exact ⟨_, (encode_two two follows.1).symm⟩
  · rw [continuation?_three three] at known
    simp only [Option.some.injEq, Prod.mk.injEq] at known
    obtain ⟨rfl, rfl, length⟩ := known
    obtain ⟨second, third, rfl⟩ := List.length_eq_two.1 length.symm
    simp only [Follows, UInt8.le_iff_toNat_le, UInt8.reduceToNat] at follows
    obtain ⟨⟨lower, upper⟩, last, -⟩ := follows
    refine ⟨_, (encode_three three ?_ ?_ ?_ ?_ last).symm⟩ <;>
      split_ifs at lower upper <;> simp only [UInt8.reduceToNat] at lower upper <;> omega
  · rw [continuation?_four four] at known
    simp only [Option.some.injEq, Prod.mk.injEq] at known
    obtain ⟨rfl, rfl, length⟩ := known
    obtain ⟨second, third, fourth, rfl⟩ := List.length_eq_three.1 length.symm
    simp only [Follows, UInt8.le_iff_toNat_le, UInt8.reduceToNat] at follows
    obtain ⟨⟨lower, upper⟩, middle, last, -⟩ := follows
    refine ⟨_, (encode_four four ?_ ?_ ?_ ?_ middle last).symm⟩ <;>
      split_ifs at lower upper <;> simp only [UInt8.reduceToNat] at lower upper <;> omega
  · rw [continuation?_none none] at known
    cases known

/-- In a character the bytes behind the leading one may stand there. -/
theorem follows_of_encode {others : List UInt8} {c : Char}
    (same : lead :: others = String.utf8EncodeChar c) :
    ∃ least greatest, continuation? lead = some (least, greatest, others.length) ∧
      Follows least greatest others := by
  have valid : c.val.toNat.isValidChar := c.valid
  unfold Nat.isValidChar at valid
  rw [String.utf8EncodeChar] at same
  generalize c.val.toNat = code at valid same
  split_ifs at same with one two three <;> obtain ⟨rfl, rfl⟩ := List.cons.inj same
  · have lead := toNat_ofNat code (by omega)
    exact ⟨_, _, continuation?_one (by omega), trivial⟩
  · have lead := toNat_ofNat (code / 64 % 32 + 192) (by omega)
    have second := toNat_ofNat (code % 64 + 128) (by omega)
    refine ⟨_, _, continuation?_two (by omega), ?_⟩
    simp only [Follows, UInt8.le_iff_toNat_le, UInt8.reduceToNat, second, and_true]
    omega
  · have lead := toNat_ofNat (code / 4096 % 16 + 224) (by omega)
    have second := toNat_ofNat (code / 64 % 64 + 128) (by omega)
    have third := toNat_ofNat (code % 64 + 128) (by omega)
    refine ⟨_, _, continuation?_three (by omega), ?_⟩
    simp only [Follows, UInt8.le_iff_toNat_le, UInt8.reduceToNat, lead, second, third, and_true]
    split_ifs <;> simp only [UInt8.reduceToNat] <;> omega
  · have lead := toNat_ofNat (code / 262144 % 8 + 240) (by omega)
    have second := toNat_ofNat (code / 4096 % 64 + 128) (by omega)
    have third := toNat_ofNat (code / 64 % 64 + 128) (by omega)
    have fourth := toNat_ofNat (code % 64 + 128) (by omega)
    refine ⟨_, _, continuation?_four (by omega), ?_⟩
    simp only [Follows, UInt8.le_iff_toNat_le, UInt8.reduceToNat, lead, second, third, fourth,
      and_true]
    split_ifs <;> simp only [UInt8.reduceToNat] <;> omega

end Characters

/-- A search that does not stop short finds no malformed place exactly in the encodings of
characters. -/
theorem findError_eq_none {offset characters : Nat} {bytes : List UInt8}
    (enough : bytes.length ≤ characters) :
    findError offset characters bytes = none ↔
      ∃ chars : List Char, bytes = chars.flatMap String.utf8EncodeChar := by
  induction characters generalizing offset bytes with
  | zero =>
      obtain rfl := List.length_eq_zero_iff.1 (Nat.le_zero.1 enough)
      exact iff_of_true rfl ⟨[], rfl⟩
  | succ characters induction =>
      cases bytes with
      | nil => exact iff_of_true rfl ⟨[], rfl⟩
      | cons lead bytes =>
          constructor
          · intro clean
            rw [findError] at clean
            split at clean
            · cases clean
            · next least greatest count known =>
                split at clean
                · cases clean
                · next rest complete =>
                    obtain ⟨others, rfl, follows, rfl⟩ := tail_eq_ok.1 complete
                    obtain ⟨c, first⟩ := exists_encode_of_follows known follows
                    simp only [List.length_cons, List.length_append] at enough
                    obtain ⟨chars, rfl⟩ := (induction (by omega)).1 clean
                    exact ⟨c :: chars, by rw [List.flatMap_cons, ← first, List.cons_append]⟩
          · rintro ⟨_ | ⟨c, chars⟩, same⟩
            · cases same
            · rw [List.flatMap_cons] at same
              obtain ⟨others, first⟩ : ∃ others, lead :: others = String.utf8EncodeChar c := by
                obtain ⟨head, others, first⟩ := List.exists_cons_of_ne_nil
                  (String.utf8EncodeChar_ne_nil (c := c))
                rw [first, List.cons_append] at same
                exact ⟨others, by rw [first, (List.cons.inj same).1]⟩
              obtain ⟨least, greatest, known, follows⟩ := follows_of_encode first
              rw [← first, List.cons_append] at same
              obtain rfl := (List.cons.inj same).2
              simp only [List.length_cons, List.length_append] at enough
              rw [findError, known]
              dsimp only
              rw [tail_eq_ok.2 ⟨others, rfl, follows, rfl⟩]
              exact (induction (by omega)).2 ⟨chars, rfl⟩

/-- Bytes without a malformed place are the encoding of a string, and only of that. -/
theorem error?_eq_none {bytes : List UInt8} :
    error? bytes = none ↔ ∃ text : String, bytes = text.toUTF8.data.toList := by
  rw [error?, findError_eq_none (Nat.le_refl _)]
  constructor
  · rintro ⟨chars, rfl⟩
    refine ⟨.ofList chars, ?_⟩
    simp [String.toUTF8, List.utf8Encode]
  · rintro ⟨text, rfl⟩
    refine ⟨text.toList, ?_⟩
    rw [String.toUTF8, ← String.utf8Encode_toList, List.utf8Encode]
    simp

theorem fromUTF8?_toUTF8 (text : String) :
    String.fromUTF8? ⟨text.toUTF8.data.toList.toArray⟩ = some text := by
  simp [String.fromUTF8?, String.toUTF8, String.fromUTF8, text.isValidUTF8]

end Utf8

/-! ## Characters of texts

In the encoding of a string the first byte of a character says how many bytes follow it, and behind
them the next character begins.  So a scan that starts where a character begins ends all its matches
where one does.
-/

/-- The bytes that continue a character are those of one quarter. -/
theorem Text.isContinuation_iff (byte : UInt8) :
    Text.isContinuation byte = true ↔ 0x80 ≤ byte.toNat ∧ byte.toNat < 0xC0 := by
  have all : ∀ value : Fin 256, Text.isContinuation (UInt8.ofNat value) = true ↔
      0x80 ≤ value.val ∧ value.val < 0xC0 := by decide +kernel
  simpa using all ⟨byte.toNat, byte.toNat_lt⟩

namespace Utf8

/-- Whether a character begins at a place of a sequence of bytes, its end included. -/
def isBoundary (bytes : List UInt8) (place : Nat) : Bool :=
  match bytes[place]? with
  | some byte => !Text.isContinuation byte
  | none => place == bytes.length

theorem isBoundary_cons_succ (first : UInt8) (bytes : List UInt8) (place : Nat) :
    isBoundary (first :: bytes) (place + 1) = isBoundary bytes place := by
  simp [isBoundary]

theorem isBoundary_append (before bytes : List UInt8) (place : Nat) :
    isBoundary (before ++ bytes) (before.length + place) = isBoundary bytes place := by
  induction before with
  | nil => simp
  | cons first rest induction =>
      rw [List.cons_append, List.length_cons, Nat.add_right_comm, isBoundary_cons_succ, induction]

/-- All bytes behind a leading byte continue its character. -/
theorem continues_of_follows {least greatest : UInt8} (lower : 0x80 ≤ least.toNat)
    (upper : greatest.toNat ≤ 0xBF) {others : List UInt8} (follows : Follows least greatest others) :
    ∀ byte ∈ others, Text.isContinuation byte = true := by
  induction others generalizing least greatest with
  | nil => exact nofun
  | cons first rest induction =>
      obtain ⟨⟨below, above⟩, later⟩ := follows
      rw [UInt8.le_iff_toNat_le] at below above
      refine List.forall_mem_cons.2 ⟨(Text.isContinuation_iff first).2 (by omega), ?_⟩
      exact induction (by decide) (by decide) later

/-- A leading byte tells how many bytes follow it, and it continues nothing. -/
theorem begin_of_continuation? {lead least greatest : UInt8} {count : Nat}
    (known : continuation? lead = some (least, greatest, count)) :
    Text.isContinuation lead = false ∧ (0 < count → 0x80 ≤ least.toNat ∧ greatest.toNat ≤ 0xBF) ∧
      ∀ char, PartialChar.begin lead = some char → char.missing = count := by
  have all : ∀ value : Fin 256, ∀ known ∈ continuation? (UInt8.ofNat value),
      Text.isContinuation (UInt8.ofNat value) = false ∧
        (0 < known.2.2 → 0x80 ≤ known.1.toNat ∧ known.2.1.toNat ≤ 0xBF) ∧
        ∀ char ∈ PartialChar.begin (UInt8.ofNat value), char.missing = known.2.2 := by
    decide +kernel
  have here := all ⟨lead.toNat, lead.toNat_lt⟩ (least, greatest, count)
  simp only [UInt8.ofNat_toNat] at here
  exact here known

/-- An encoded character begins with a byte that continues nothing and that tells how many bytes of
the character follow, all of which continue it. -/
theorem encode_spec (c : Char) : ∃ lead others, String.utf8EncodeChar c = lead :: others ∧
    Text.isContinuation lead = false ∧ (∀ byte ∈ others, Text.isContinuation byte = true) ∧
      ∀ char, PartialChar.begin lead = some char → char.missing = others.length := by
  obtain ⟨lead, others, spelled⟩ :=
    List.exists_cons_of_ne_nil (String.utf8EncodeChar_ne_nil (c := c))
  obtain ⟨least, greatest, known, follows⟩ := follows_of_encode spelled.symm
  obtain ⟨leads, range, missing⟩ := begin_of_continuation? known
  refine ⟨lead, others, spelled, leads, fun byte member => ?_, missing⟩
  obtain ⟨lower, upper⟩ := range (List.length_pos_of_mem member)
  exact continues_of_follows lower upper follows byte member

theorem isBoundary_encode_zero (chars : List Char) :
    isBoundary (chars.flatMap String.utf8EncodeChar) 0 = true := by
  cases chars with
  | nil => rfl
  | cons c rest =>
      obtain ⟨lead, others, spelled, leads, -⟩ := encode_spec c
      rw [List.flatMap_cons, spelled]
      simp [isBoundary, leads]

/-- In the encoding of characters the next one begins behind as many bytes as the first byte of a
character tells. -/
theorem isBoundary_encode_next {chars : List Char} {place : Nat} {byte : UInt8}
    (found : (chars.flatMap String.utf8EncodeChar)[place]? = some byte)
    (boundary : isBoundary (chars.flatMap String.utf8EncodeChar) place = true) {char : PartialChar}
    (begins : PartialChar.begin byte = some char) :
    isBoundary (chars.flatMap String.utf8EncodeChar) (place + 1 + char.missing) = true := by
  induction chars generalizing place with
  | nil => cases found
  | cons c rest induction =>
      obtain ⟨lead, others, spelled, leads, continue_, missing⟩ := encode_spec c
      rw [List.flatMap_cons, spelled] at found boundary ⊢
      cases place with
      | zero =>
          obtain rfl : lead = byte := Option.some.inj found
          rw [missing char begins, Nat.zero_add, Nat.add_comm 1, ← List.length_cons]
          have first := isBoundary_append (lead :: others) (rest.flatMap String.utf8EncodeChar) 0
          rw [Nat.add_zero] at first
          rw [first]
          exact isBoundary_encode_zero rest
      | succ place =>
          rw [List.cons_append, List.getElem?_cons_succ] at found
          rw [List.cons_append, isBoundary_cons_succ] at boundary
          rcases Nat.lt_or_ge place others.length with inside | beyond
          · -- a byte inside the first character continues it
            rw [List.getElem?_append_left inside] at found
            have continues := continue_ byte (List.mem_of_getElem? found)
            simp [isBoundary, List.getElem?_append_left inside, found, continues] at boundary
          · obtain ⟨later, rfl⟩ := Nat.exists_eq_add_of_le beyond
            rw [List.getElem?_append_right beyond, Nat.add_sub_cancel_left] at found
            rw [isBoundary_append] at boundary
            have next := induction found boundary
            rw [show others.length + later + 1 + 1 + char.missing =
              others.length + (later + 1 + char.missing) + 1 by omega, List.cons_append,
              isBoundary_cons_succ, isBoundary_append]
            exact next

end Utf8

namespace Text

/-- Whether a text is a sequence of whole characters. -/
structure WellFormed (text : Text) : Prop where
  /-- A character begins at its start. -/
  start : text.isBoundary 0 = true
  /-- The next character begins behind as many bytes as the first byte of a character tells. -/
  next : ∀ {offset : Nat} {byte : UInt8} {char : PartialChar}, text.byte? offset = some byte →
    text.isBoundary offset = true → PartialChar.begin byte = some char →
      text.isBoundary (offset + 1 + char.missing) = true

theorem byte?_eq (text : Text) (offset : Nat) :
    text.byte? offset = text.bytes.data.toList[offset]? := by
  rw [Array.getElem?_toList]
  rfl

theorem isBoundary_eq (text : Text) (offset : Nat) :
    text.isBoundary offset = Utf8.isBoundary text.bytes.data.toList offset := by
  unfold isBoundary Utf8.isBoundary
  rw [byte?_eq, Array.length_toList]
  rfl

theorem toList_ofString (source : String) :
    (ofString source).bytes.data.toList = source.toList.flatMap String.utf8EncodeChar := by
  rw [ofString, String.toUTF8, ← String.utf8Encode_toList, List.utf8Encode]
  simp

/-- The encoding of a string is well formed. -/
theorem wellFormed_ofString (source : String) : (ofString source).WellFormed := by
  constructor
  case start =>
    rw [isBoundary_eq, toList_ofString]
    exact Utf8.isBoundary_encode_zero _
  case next =>
    intro offset byte char found boundary begins
    rw [byte?_eq, toList_ofString] at found
    rw [isBoundary_eq, toList_ofString] at boundary ⊢
    exact Utf8.isBoundary_encode_next found boundary begins

end Text

end IncrementalGlr
