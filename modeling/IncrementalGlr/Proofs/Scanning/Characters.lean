import IncrementalGlr.Proofs.Scanning.Meaning
import IncrementalGlr.Proofs.Utf8
import Mathlib.Algebra.Group.Nat.Defs

/-!
# Characters byte by byte

In the encoding of a string the bytes that begin and continue a character spell its code point, and
wherever a byte can begin a character, one stands there.
-/

namespace IncrementalGlr

namespace PartialChar

/-- Whether the bytes of a text from an offset on complete a character begun, up to another offset,
and spell a code point with it. -/
inductive Spells (text : Text) (value : Nat) : PartialChar → Nat → Nat → Prop
  /-- No byte is missing. -/
  | done {char : PartialChar} {offset : Nat} (complete : char.missing = 0)
    (same : char.value = value) : Spells text value char offset offset
  /-- The next byte continues the character. -/
  | more {char next : PartialChar} {offset stop : Nat} {byte : UInt8} (missing : 0 < char.missing)
    (found : text.byte? offset = some byte) (extended : char.extend byte = some next)
    (rest : Spells text value next (offset + 1) stop) : Spells text value char offset stop

variable {text : Text} {value : Nat} {char : PartialChar} {offset stop : Nat}

theorem extend_spec {byte : UInt8} {next : PartialChar} (extended : char.extend byte = some next) :
    next.missing = char.missing - 1 ∧ next.least = char.least ∧
      char.value * 64 ≤ next.value ∧ next.value < char.value * 64 + 64 := by
  rw [extend] at extended
  split at extended
  · next range =>
    obtain rfl := Option.some.inj extended
    exact ⟨rfl, rfl, by dsimp only; omega, by dsimp only; omega⟩
  · cases extended

namespace Spells

theorem stop_eq (spells : Spells text value char offset stop) : stop = offset + char.missing := by
  induction spells with
  | done complete => rw [complete, Nat.add_zero]
  | more missing _ extended _ induction =>
    have spec := (extend_spec extended).1
    omega

/-- The digits that have been read are the first ones of the code point. -/
theorem range (spells : Spells text value char offset stop) :
    char.value * 64 ^ char.missing ≤ value ∧
      value < char.value * 64 ^ char.missing + 64 ^ char.missing := by
  induction spells with
  | done complete same => rw [complete, same]; omega
  | @more char next _ _ _ missing _ extended _ induction =>
    obtain ⟨fewer, -, lower, upper⟩ := extend_spec extended
    obtain ⟨below, above⟩ := induction
    have power : 64 ^ char.missing = 64 * 64 ^ next.missing := by
      rw [fewer, ← Nat.pow_succ']
      exact congrArg (64 ^ ·) (Nat.sub_add_cancel missing).symm
    have low := Nat.mul_le_mul_right (64 ^ next.missing) lower
    have high := Nat.mul_le_mul_right (64 ^ next.missing) (Nat.succ_le_of_lt upper)
    rw [power, ← Nat.mul_assoc]
    rw [Nat.succ_mul, Nat.add_mul] at high
    omega

theorem unique {other otherStop : Nat} (spells : Spells text value char offset stop)
    (others : Spells text other char offset otherStop) : value = other ∧ stop = otherStop := by
  induction spells with
  | done complete same =>
    cases others with
    | done _ otherSame => exact ⟨same.symm.trans otherSame, rfl⟩
    | more missing => exact absurd complete (Nat.ne_of_gt missing)
  | more missing found extended _ induction =>
    cases others with
    | done complete => exact absurd complete (Nat.ne_of_gt missing)
    | more _ otherFound otherExtended rest =>
      obtain rfl := Option.some.inj (found.symm.trans otherFound)
      obtain rfl := Option.some.inj (extended.symm.trans otherExtended)
      exact induction rest

/-- A character begun that becomes a member of a set can still become one. -/
theorem canBeIn (spells : Spells text value char offset stop) (least : char.least ≤ value)
    {set : CharSet} (member : set.contains value = true) : char.canBeIn set = true := by
  obtain ⟨lower, upper⟩ := spells.range
  obtain ⟨⟨first, last⟩, inside, within⟩ := List.any_eq_true.1 member
  refine List.any_eq_true.2 ⟨(first, last), inside, ?_⟩
  simp only [Nat.pow_eq, Bool.and_eq_true, decide_eq_true_eq] at within ⊢
  omega

end Spells

/-- Whether the bytes of a text from an offset on do not complete a character begun to a code point
that has a shorter encoding. -/
def Shortest (text : Text) (offset : Nat) (char : PartialChar) : Prop :=
  ∀ value stop, Spells text value char offset stop → char.least ≤ value

theorem Shortest.extend (shortest : char.Shortest text offset) (missing : 0 < char.missing)
    {byte : UInt8} (found : text.byte? offset = some byte) {next : PartialChar}
    (extended : char.extend byte = some next) : next.Shortest text (offset + 1) := by
  intro value stop spells
  rw [(extend_spec extended).2.1]
  exact shortest value stop (.more missing found extended spells)

theorem canBeIn_iff (complete : char.missing = 0) (least : char.least ≤ char.value)
    {set : CharSet} :
    char.canBeIn set = true ↔ set.contains char.value = true := by
  simp [canBeIn, CharSet.meets, CharSet.contains, complete, Nat.max_eq_left least]

/-! ## Encoded characters -/

/-- Bytes that continue a character add six binary digits each. -/
theorem foldlM_extend {others : List UInt8}
    (continues : ∀ byte ∈ others, Text.isContinuation byte = true) (char : PartialChar) :
    (others.foldlM extend char).map PartialChar.value =
      some (others.foldl (fun value byte => value * 64 + (byte.toNat - 0x80)) char.value) := by
  induction others generalizing char with
  | nil => rfl
  | cons byte others induction =>
    obtain ⟨first, rest⟩ := List.forall_mem_cons.1 continues
    have extended : char.extend byte =
        some ⟨char.value * 64 + (byte.toNat - 0x80), char.missing - 1, char.least⟩ :=
      if_pos ((Text.isContinuation_iff byte).1 first)
    rw [List.foldlM_cons, extended, Option.bind_eq_bind, Option.bind_some, induction rest,
      List.foldl_cons]

theorem begin_two {byte : UInt8} (leads : 0xC0 ≤ byte.toNat ∧ byte.toNat < 0xE0) :
    PartialChar.begin byte = some ⟨byte.toNat - 0xC0, 1, 0x80⟩ := by
  rw [PartialChar.begin, if_neg (by omega), if_neg (by omega), if_pos (by omega)]

theorem begin_three {byte : UInt8} (leads : 0xE0 ≤ byte.toNat ∧ byte.toNat < 0xF0) :
    PartialChar.begin byte = some ⟨byte.toNat - 0xE0, 2, 0x800⟩ := by
  rw [PartialChar.begin, if_neg (by omega), if_neg (by omega), if_neg (by omega),
    if_pos (by omega)]

theorem begin_four {byte : UInt8} (leads : 0xF0 ≤ byte.toNat ∧ byte.toNat < 0xF8) :
    PartialChar.begin byte = some ⟨byte.toNat - 0xF0, 3, 0x10000⟩ := by
  rw [PartialChar.begin, if_neg (by omega), if_neg (by omega), if_neg (by omega),
    if_neg (by omega), if_pos (by omega)]

/-- The bytes of an encoded character begin and continue it, and then it is complete. -/
theorem read_encode (c : Char) : ∃ lead others begun,
    String.utf8EncodeChar c = lead :: others ∧ PartialChar.begin lead = some begun ∧
      begun.missing = others.length ∧ begun.least ≤ c.toNat ∧
      (others.foldlM extend begun).map PartialChar.value = some c.toNat := by
  obtain ⟨lead, others, spelled, -, continues, -⟩ := Utf8.encode_spec c
  refine ⟨lead, others, ?_⟩
  simp only [foldlM_extend continues, Option.some.injEq, spelled, true_and, Char.toNat]
  have valid : c.val.toNat.isValidChar := c.valid
  unfold Nat.isValidChar at valid
  rw [String.utf8EncodeChar] at spelled
  generalize c.val.toNat = code at valid spelled
  split_ifs at spelled with one two three <;> obtain ⟨rfl, rfl⟩ := List.cons.inj spelled
  · have lead := Utf8.toNat_ofNat code (by omega)
    refine ⟨⟨code, 0, 0⟩, ?_, rfl, Nat.zero_le _, rfl⟩
    rw [PartialChar.begin, lead, if_pos (by omega)]
  · have lead := Utf8.toNat_ofNat (code / 64 % 32 + 192) (by omega)
    have second := Utf8.toNat_ofNat (code % 64 + 128) (by omega)
    refine ⟨_, begin_two (by omega), rfl, by dsimp only; omega, ?_⟩
    simp only [List.foldl_cons, List.foldl_nil, lead, second]
    omega
  · have lead := Utf8.toNat_ofNat (code / 4096 % 16 + 224) (by omega)
    have second := Utf8.toNat_ofNat (code / 64 % 64 + 128) (by omega)
    have third := Utf8.toNat_ofNat (code % 64 + 128) (by omega)
    refine ⟨_, begin_three (by omega), rfl, by dsimp only; omega, ?_⟩
    simp only [List.foldl_cons, List.foldl_nil, lead, second, third]
    omega
  · have lead := Utf8.toNat_ofNat (code / 262144 % 8 + 240) (by omega)
    have second := Utf8.toNat_ofNat (code / 4096 % 64 + 128) (by omega)
    have third := Utf8.toNat_ofNat (code / 64 % 64 + 128) (by omega)
    have fourth := Utf8.toNat_ofNat (code % 64 + 128) (by omega)
    refine ⟨_, begin_four (by omega), rfl, by dsimp only; omega, ?_⟩
    simp only [List.foldl_cons, List.foldl_nil, lead, second, third, fourth]
    omega

/-- Bytes that stand in a text stand there one later without the first of them. -/
theorem stand_tail {byte : UInt8} {others : List UInt8}
    (stand : ∀ place < others.length + 1, text.byte? (offset + place) = (byte :: others)[place]?) :
    ∀ place < others.length, text.byte? (offset + 1 + place) = others[place]? := by
  intro place inside
  have here := stand (place + 1) (Nat.succ_lt_succ inside)
  rwa [List.getElem?_cons_succ, ← Nat.add_assoc, Nat.add_right_comm] at here

theorem spells_of_foldlM {others : List UInt8}
    (stand : ∀ place < others.length, text.byte? (offset + place) = others[place]?)
    (missing : char.missing = others.length)
    (read : (others.foldlM extend char).map PartialChar.value = some value) :
    Spells text value char offset (offset + others.length) := by
  induction others generalizing char offset with
  | nil => exact .done missing (Option.some.inj read)
  | cons byte others induction =>
    have found : text.byte? offset = some byte := stand 0 (Nat.succ_pos _)
    rw [List.length_cons] at missing
    rw [List.foldlM_cons] at read
    cases extended : char.extend byte with
    | none =>
      rw [extended] at read
      cases read
    | some next =>
      rw [extended] at read
      have fewer := (extend_spec extended).1
      rw [List.length_cons, Nat.add_comm others.length, ← Nat.add_assoc]
      exact .more (by omega) found extended (induction (stand_tail stand) (by omega) read)

theorem begin_of_isContinuation {byte : UInt8} (continues : Text.isContinuation byte = true) :
    PartialChar.begin byte = none := by
  have range := (Text.isContinuation_iff byte).1 continues
  rw [PartialChar.begin, if_neg (by omega), if_pos range.2]

end PartialChar

namespace Text

variable {text : Text} {c : Char} {start stop : Nat}

theorem HasChar.byte? (stands : text.HasChar c start stop) {place : Nat}
    (inside : place < (String.utf8EncodeChar c).length) :
    text.byte? (start + place) = (String.utf8EncodeChar c)[place]? := by
  obtain ⟨rest, split⟩ := stands.2
  rw [byte?_eq, ← List.getElem?_drop, ← split, List.getElem?_append_left inside]

/-- The bytes of a character in a text begin it and spell it. -/
theorem HasChar.spells (stands : text.HasChar c start stop) : ∃ byte begun,
    text.byte? start = some byte ∧ PartialChar.begin byte = some begun ∧
      begun.least ≤ c.toNat ∧ PartialChar.Spells text c.toNat begun (start + 1) stop := by
  obtain ⟨lead, others, begun, spelled, begins, missing, least, read⟩ := PartialChar.read_encode c
  have bytes : ∀ place < others.length + 1,
      text.byte? (start + place) = (lead :: others)[place]? := by
    intro place inside
    rw [stands.byte? (spelled ▸ inside), spelled]
  have last : stop = start + 1 + others.length := by
    rw [stands.1, spelled, List.length_cons]
    omega
  refine ⟨lead, begun, bytes 0 (Nat.succ_pos _), begins, least, ?_⟩
  rw [last]
  exact PartialChar.spells_of_foldlM (PartialChar.stand_tail bytes) missing read

theorem exists_prefix_of_begin {chars : List Char} {byte : UInt8}
    (found : (chars.flatMap String.utf8EncodeChar)[start]? = some byte) {begun : PartialChar}
    (begins : PartialChar.begin byte = some begun) :
    ∃ c, String.utf8EncodeChar c <+: (chars.flatMap String.utf8EncodeChar).drop start := by
  induction chars generalizing start with
  | nil => cases found
  | cons c rest induction =>
    rw [List.flatMap_cons] at found ⊢
    rcases Nat.lt_or_ge start (String.utf8EncodeChar c).length with inside | beyond
    · -- only the first byte of a character begins one
      obtain ⟨lead, others, spelled, -, continues, -⟩ := Utf8.encode_spec c
      cases start with
      | zero => exact ⟨c, List.prefix_append _ _⟩
      | succ place =>
        rw [List.getElem?_append_left inside, spelled, List.getElem?_cons_succ] at found
        have none := PartialChar.begin_of_isContinuation
          (continues byte (List.mem_of_getElem? found))
        rw [begins] at none
        cases none
    · rw [List.getElem?_append_right beyond] at found
      rw [List.drop_append, List.drop_eq_nil_of_le beyond, List.nil_append]
      exact induction found

/-- In the encoding of a string a character stands wherever a byte can begin one. -/
theorem exists_hasChar_of_begin {source : String} {byte : UInt8}
    (found : (ofString source).byte? start = some byte) {begun : PartialChar}
    (begins : PartialChar.begin byte = some begun) :
    ∃ c stop, (ofString source).HasChar c start stop := by
  rw [byte?_eq, toList_ofString] at found
  obtain ⟨c, stands⟩ := exists_prefix_of_begin found begins
  exact ⟨c, _, rfl, toList_ofString source ▸ stands⟩

theorem shortest_of_begin {source : String} {byte : UInt8}
    (found : (ofString source).byte? start = some byte) {begun : PartialChar}
    (begins : PartialChar.begin byte = some begun) :
    begun.Shortest (ofString source) (start + 1) := by
  intro value stop spells
  obtain ⟨c, last, stands⟩ := exists_hasChar_of_begin found begins
  obtain ⟨sameByte, sameBegun, sameFound, sameBegins, least, others⟩ := stands.spells
  obtain rfl := Option.some.inj (found.symm.trans sameFound)
  obtain rfl := Option.some.inj (begins.symm.trans sameBegins)
  exact (spells.unique others).1 ▸ least

/-- A character of a set stands between two offsets if the bytes there spell a member. -/
theorem exists_hasChar_iff {source : String} {byte : UInt8}
    (found : (ofString source).byte? start = some byte) {set : CharSet} :
    (∃ c : Char, set.contains c.toNat = true ∧ (ofString source).HasChar c start stop) ↔
      ∃ begun ∈ PartialChar.begin byte, ∃ value, set.contains value = true ∧
        PartialChar.Spells (ofString source) value begun (start + 1) stop := by
  constructor
  · rintro ⟨c, member, stands⟩
    obtain ⟨sameByte, begun, sameFound, begins, -, spells⟩ := stands.spells
    obtain rfl := Option.some.inj (found.symm.trans sameFound)
    exact ⟨begun, begins, _, member, spells⟩
  · rintro ⟨begun, begins, value, member, spells⟩
    obtain ⟨c, last, stands⟩ := exists_hasChar_of_begin found begins
    obtain ⟨sameByte, sameBegun, sameFound, sameBegins, -, others⟩ := stands.spells
    obtain rfl := Option.some.inj (found.symm.trans sameFound)
    obtain rfl := Option.some.inj (Eq.trans (Eq.symm begins) sameBegins)
    obtain ⟨rfl, rfl⟩ := spells.unique others
    exact ⟨c, member, stands⟩

end Text

end IncrementalGlr
