import IncrementalGlr.Proofs.Blob.RoundTrip

/-!
# Writing again what was read

Reading ignores the reserved word of the header and the upper five bits of the byte of each symbol's
properties.  An accepted binary form in which these bits are cleared, with the checksum that belongs
to it then, is the form that is written for what was read: every other bit is forced.
-/

namespace IncrementalGlr

namespace Blob

/-! ## Ignored bits -/

/-- Where the bytes of the symbols' properties stand if the first symbol begins at an offset. -/
def flagOffsetsFrom (offset : Nat) : List SymbolInfo → List Nat
  | [] => []
  | info :: rest =>
    let flags := offset + (text info.name).length + 1
    flags :: flagOffsetsFrom (flags + 1) rest

/-- Where the bytes of the symbols' properties stand in a binary form: the symbols begin behind the
header, the name of the language and their number. -/
def flagOffsets (data : GrammarData) : List Nat :=
  flagOffsetsFrom (headerSize + (text data.name).length + 4) data.symbols

/-- The byte at an offset without the bits that are ignored. -/
def clearByte (flagOffsets : List Nat) (offset : Nat) (byte : UInt8) : UInt8 :=
  if offset = 6 ∨ offset = 7 then 0
  else if offset ∈ flagOffsets then byte &&& 7
  else byte

/-- A part of a body that begins at an offset, without the bits that are ignored. -/
def clearFrom (flagOffsets : List Nat) (offset : Nat) (part : List UInt8) : List UInt8 :=
  part.mapIdx fun index => clearByte flagOffsets (index + offset)

/-- An accepted binary form with the ignored bits cleared and with the checksum computed anew. -/
def normalize (data : GrammarData) (bytes : List UInt8) : List UInt8 :=
  let body := clearFrom (flagOffsets data) 0 (bytes.take (bytes.length - checksumSize))
  body ++ doubleWord (Checksum.ofBytes body)

variable {offsets : List Nat} {start : Nat}

theorem clearFrom_append (first second : List UInt8) :
    clearFrom offsets start (first ++ second) =
      clearFrom offsets start first ++ clearFrom offsets (start + first.length) second := by
  simp only [clearFrom, List.mapIdx_append, Nat.add_assoc, Nat.add_comm start]

/-- A part without ignored bits stays as it is. -/
theorem clearFrom_eq_self {part : List UInt8} (outside : start + part.length ≤ 6 ∨ 8 ≤ start)
    (apart : ∀ offset ∈ offsets, start ≤ offset → start + part.length ≤ offset) :
    clearFrom offsets start part = part := by
  refine List.ext_getElem (by simp [clearFrom]) fun index _ inside => ?_
  have elsewhere : index + start ∉ offsets := fun member => by
    have := apart _ member (by omega)
    omega
  simp only [clearFrom, List.getElem_mapIdx]
  rw [clearByte, if_neg (by omega), if_neg elsewhere]

theorem and_seven_eq_self {byte : UInt8} : byte &&& 7 = byte ↔ byte < 8 := by
  have every : ∀ bits : Fin 256,
      UInt8.ofFin bits &&& 7 = UInt8.ofFin bits ↔ UInt8.ofFin bits < 8 := by decide +kernel
  exact every byte.toFin

/-- What it takes that there is nothing to clear. -/
theorem clearFrom_zero_eq_self {part : List UInt8} (long : 8 ≤ part.length)
    (inside : ∀ offset ∈ offsets, 8 ≤ offset ∧ offset < part.length) :
    clearFrom offsets 0 part = part ↔ part[6]? = some 0 ∧ part[7]? = some 0 ∧
      ∀ offset ∈ offsets, ∃ byte, part[offset]? = some byte ∧ byte < 8 := by
  have each : clearFrom offsets 0 part = part ↔
      ∀ (offset : Nat) (bound : offset < part.length),
        clearByte offsets offset part[offset] = part[offset] := by
    rw [clearFrom, List.ext_getElem_iff]
    simp
  rw [each]
  constructor
  · intro kept
    refine ⟨?_, ?_, fun offset member => ?_⟩
    · rw [List.getElem?_eq_getElem (by omega), ← kept 6 (by omega)]
      rfl
    · rw [List.getElem?_eq_getElem (by omega), ← kept 7 (by omega)]
      rfl
    · obtain ⟨late, bound⟩ := inside offset member
      have same := kept offset bound
      rw [clearByte, if_neg (by omega), if_pos member] at same
      exact ⟨part[offset], List.getElem?_eq_getElem bound, and_seven_eq_self.1 same⟩
  · rintro ⟨low, high, flags⟩ offset bound
    rw [clearByte]
    split_ifs with reserved member
    · rcases reserved with rfl | rfl
      · rw [List.getElem?_eq_getElem bound] at low
        exact (Option.some.inj low).symm
      · rw [List.getElem?_eq_getElem bound] at high
        exact (Option.some.inj high).symm
    · obtain ⟨byte, found, small⟩ := flags offset member
      rw [List.getElem?_eq_getElem bound, Option.some.injEq] at found
      rw [found, and_seven_eq_self.2 small]
    · rfl

/-! ## Symbols -/

theorem le_of_mem_flagOffsetsFrom {symbols : List SymbolInfo} {offset : Nat}
    (member : offset ∈ flagOffsetsFrom start symbols) : start ≤ offset := by
  induction symbols generalizing start with
  | nil => cases member
  | cons info symbols induction =>
      rcases List.mem_cons.1 member with rfl | later
      · omega
      · have := induction later
        omega

theorem lt_of_mem_flagOffsetsFrom {symbols : List SymbolInfo} {flags : List UInt8} {offset : Nat}
    (paired : flags.length = symbols.length) (member : offset ∈ flagOffsetsFrom start symbols) :
    offset < start + (List.zipWith symbolInfoWith flags symbols).flatten.length := by
  induction symbols generalizing start flags with
  | nil => cases member
  | cons info symbols induction =>
      obtain ⟨byte, flags, rfl⟩ := List.exists_cons_of_length_eq_add_one paired
      simp only [List.zipWith_cons_cons, List.flatten_cons, symbolInfoWith, List.length_append,
        List.length_cons, List.length_nil]
      rcases List.mem_cons.1 member with rfl | later
      · omega
      · have := induction (Nat.succ.inj paired) later
        omega

/-- Of the symbols only the bytes of their properties have ignored bits. -/
theorem clearFrom_symbols {symbols : List SymbolInfo} {flags : List UInt8} (late : 8 ≤ start)
    (paired : flags.length = symbols.length)
    (here : ∀ offset, start ≤ offset →
      (offset ∈ offsets ↔ offset ∈ flagOffsetsFrom start symbols)) :
    clearFrom offsets start (List.zipWith symbolInfoWith flags symbols).flatten =
      (List.zipWith symbolInfoWith (flags.map (· &&& 7)) symbols).flatten := by
  induction symbols generalizing start flags with
  | nil => simp [clearFrom]
  | cons info symbols induction =>
      obtain ⟨byte, flags, rfl⟩ := List.exists_cons_of_length_eq_add_one paired
      have name : clearFrom offsets start (text info.name ++ [kindByte info.kind]) =
          text info.name ++ [kindByte info.kind] := by
        refine clearFrom_eq_self (.inr late) fun offset member behind => ?_
        rcases List.mem_cons.1 ((here offset behind).1 member) with rfl | later
        · simp [Nat.add_assoc]
        · have := le_of_mem_flagOffsetsFrom later
          simp only [List.length_append, List.length_cons, List.length_nil]
          omega
      have flag : clearFrom offsets (start + (text info.name).length + 1) [byte] =
          [byte &&& 7] := by
        simp only [clearFrom, List.mapIdx_cons, List.mapIdx_nil, Nat.zero_add]
        rw [clearByte, if_neg (by omega), if_pos ((here _ (by omega)).2 List.mem_cons_self)]
      have others : clearFrom offsets (start + (text info.name).length + 1 + 1)
          (List.zipWith symbolInfoWith flags symbols).flatten =
            (List.zipWith symbolInfoWith (flags.map (· &&& 7)) symbols).flatten := by
        refine induction (by omega) (Nat.succ.inj paired) fun offset behind => ?_
        rw [here offset (by omega), flagOffsetsFrom, List.mem_cons]
        exact or_iff_right (by omega)
      have split : symbolInfoWith byte info =
          (text info.name ++ [kindByte info.kind]) ++ [byte] := by simp [symbolInfoWith]
      rw [List.zipWith_cons_cons, List.flatten_cons, split, clearFrom_append, clearFrom_append,
        name]
      simp only [List.length_append, List.length_cons, List.length_nil, Nat.zero_add,
        ← Nat.add_assoc]
      rw [flag, others]
      simp [symbolInfoWith]

/-! ## Bodies -/

theorem inside_of_mem_flagOffsets {data : GrammarData} {reserved : UInt16} {flags : List UInt8}
    (paired : flags.length = data.symbols.length) {offset : Nat}
    (member : offset ∈ flagOffsets data) :
    8 ≤ offset ∧ offset < (bodyWith reserved flags data).length := by
  have late := le_of_mem_flagOffsetsFrom member
  have early := lt_of_mem_flagOffsetsFrom paired member
  simp only [headerSize] at late early
  refine ⟨by omega, ?_⟩
  simp only [bodyWith, contentsWith, List.length_append, magic, word, count, doubleWord,
    List.length_cons, List.length_nil]
  omega

/-- A body as the parts that differ in what is ignored. -/
theorem bodyWith_eq (data : GrammarData) :
    ∃ opening header lists : List UInt8, opening.length = 6 ∧
      8 + header.length = headerSize + (text data.name).length + 4 ∧
      ∀ reserved flags, bodyWith reserved flags data =
        opening ++ (word reserved ++ (header ++
          ((List.zipWith symbolInfoWith flags data.symbols).flatten ++ lists))) := by
  refine ⟨magic ++ word version,
    count data.symbols.length ++ count data.terminalCount.toNat ++ count data.states.length ++
      count data.productions.length ++ word data.startSymbol.id ++ text data.name ++
      count data.symbols.length,
    count data.lexRules.length ++ data.lexRules.flatMap lexRule ++
      data.productions.flatMap production ++ count data.lexStates.length ++
      data.lexStates.flatMap lexState ++ data.states.flatMap state, rfl, ?_,
    fun reserved flags => ?_⟩
  · simp only [count, doubleWord, word, headerSize, List.length_append, List.length_cons,
      List.length_nil]
    omega
  · simp only [bodyWith, contentsWith, List.append_assoc]

/-- Without the ignored bits a body has no reserved word and the least bytes for the properties of
the symbols. -/
theorem clearFrom_bodyWith {data : GrammarData} {reserved : UInt16} {flags : List UInt8}
    (paired : flags.length = data.symbols.length) :
    clearFrom (flagOffsets data) 0 (bodyWith reserved flags data) =
      bodyWith 0 (flags.map (· &&& 7)) data := by
  obtain ⟨opening, header, lists, six, place, parts⟩ := bodyWith_eq data
  have behind : ∀ offset ∈ flagOffsets data, 8 + header.length ≤ offset := fun offset member =>
    place ▸ le_of_mem_flagOffsetsFrom member
  have front : clearFrom (flagOffsets data) 0 opening = opening := by
    refine clearFrom_eq_self (.inl (by omega)) fun offset member _ => ?_
    have := behind offset member
    omega
  have zeroed : clearFrom (flagOffsets data) 6 (word reserved) = word 0 := by
    simp [clearFrom, word, clearByte]
  have kept : clearFrom (flagOffsets data) 8 header = header :=
    clearFrom_eq_self (.inr le_rfl) fun offset member _ => behind offset member
  have symbols : clearFrom (flagOffsets data) (8 + header.length)
      (List.zipWith symbolInfoWith flags data.symbols).flatten =
        (List.zipWith symbolInfoWith (flags.map (· &&& 7)) data.symbols).flatten := by
    refine clearFrom_symbols (by omega) paired fun offset _ => ?_
    rw [flagOffsets, place]
  have rest : clearFrom (flagOffsets data) (8 + header.length +
      (List.zipWith symbolInfoWith flags data.symbols).flatten.length) lists = lists := by
    refine clearFrom_eq_self (.inr (by omega)) fun offset member late => ?_
    have := lt_of_mem_flagOffsetsFrom paired member
    omega
  rw [parts, parts, clearFrom_append, front, clearFrom_append, six, Nat.zero_add, zeroed,
    clearFrom_append]
  change _ ++ (_ ++ (clearFrom _ 8 _ ++ clearFrom _ (8 + _) _)) = _
  rw [kept, clearFrom_append, symbols, rest]

/-! ## Accepted forms -/

/-- What is written for a grammar is any body that denotes it without the ignored bits. -/
theorem clearFrom_eq_body {body : List UInt8} {data : GrammarData} (denotes : Denotes body data) :
    clearFrom (flagOffsets data) 0 body = Blob.body data := by
  obtain ⟨reserved, flags, same, rfl⟩ := denotes
  have low : flags.map (· &&& 7) = data.symbols.map flagByte := by
    rw [← List.forall₂_eq_eq_eq, List.forall₂_map_left_iff, List.forall₂_map_right_iff]
    exact same.flip.imp fun _ _ => Eq.symm
  rw [clearFrom_bodyWith same.length_eq.symm, low, body_eq]

/-- Writing again what was read from an accepted binary form only clears the ignored bits and
computes the checksum anew.  The form is unchanged exactly if none of these bits was set, and it is
read as the same grammar. -/
theorem encode_of_decode {bytes : List UInt8} {data : GrammarData}
    (accepted : decode bytes = .ok data) :
    (encode data).length = bytes.length ∧ encode data = normalize data bytes ∧
      (encode data = bytes ↔ bytes[6]? = some 0 ∧ bytes[7]? = some 0 ∧
        ∀ offset ∈ flagOffsets data, ∃ byte, bytes[offset]? = some byte ∧ byte < 8) ∧
      decode (encode data) = .ok data := by
  obtain ⟨storable, body, denotes, rfl⟩ := decode_eq_ok.1 accepted
  have cleared := clearFrom_eq_body denotes
  have size : (Blob.body data).length = body.length := by
    rw [← cleared, clearFrom, List.length_mapIdx]
  have front : (body ++ doubleWord (Checksum.ofBytes body)).take
      ((body ++ doubleWord (Checksum.ofBytes body)).length - checksumSize) = body :=
    List.take_left' (by simp [doubleWord, checksumSize])
  refine ⟨?_, ?_, ?_, decode_eq_ok.2 ⟨storable, _, denotes_body data, rfl⟩⟩
  · simp [encode, doubleWord, size]
  · rw [normalize, front, cleared, encode]
  · have unchanged : encode data = body ++ doubleWord (Checksum.ofBytes body) ↔
        clearFrom (flagOffsets data) 0 body = body := by
      rw [cleared, encode]
      exact ⟨fun same => (List.append_inj same size).1, fun same => by rw [same]⟩
    obtain ⟨reserved, flags, same, rfl⟩ := denotes
    have inside : ∀ offset ∈ flagOffsets data,
        8 ≤ offset ∧ offset < (bodyWith reserved flags data).length := fun offset member =>
      inside_of_mem_flagOffsets same.length_eq.symm member
    have long := headerSize_le_length_bodyWith reserved flags data
    simp only [headerSize] at long
    rw [unchanged, clearFrom_zero_eq_self (by omega) inside,
      List.getElem?_append_left (by omega), List.getElem?_append_left (by omega)]
    refine and_congr_right' (and_congr_right' (forall₂_congr fun offset member => ?_))
    rw [List.getElem?_append_left (inside offset member).2]

/-- A form of `single` in which the reserved word is `BEEF` and the end of input has upper bits. -/
theorem encode_of_decode_single :
    let body := bodyWith 0xBEEF [0xF2, 1, 3] single
    let bytes := body ++ doubleWord (Checksum.ofBytes body)
    decode bytes = .ok single ∧
      (encode single).length = bytes.length ∧ encode single = normalize single bytes ∧
      (encode single = bytes ↔ bytes[6]? = some 0 ∧ bytes[7]? = some 0 ∧
        ∀ offset ∈ flagOffsets single, ∃ byte, bytes[offset]? = some byte ∧ byte < 8) ∧
      decode (encode single) = .ok single :=
  have accepted : decode (bodyWith 0xBEEF [0xF2, 1, 3] single ++
      doubleWord (Checksum.ofBytes (bodyWith 0xBEEF [0xF2, 1, 3] single))) = .ok single :=
    decode_eq_ok.2 ⟨storable_single, _, ⟨0xBEEF, [0xF2, 1, 3], by decide +kernel, rfl⟩, rfl⟩
  ⟨accepted, encode_of_decode accepted⟩

end Blob

end IncrementalGlr
