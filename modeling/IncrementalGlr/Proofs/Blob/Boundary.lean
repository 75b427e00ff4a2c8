import IncrementalGlr.Proofs.Blob.RoundTrip

/-!
# Where binary forms end

All readers but the last one only look at the bytes they consume, so they read the same from a list
with more bytes behind it.  The last one refuses whatever follows.  Hence no accepted binary form
begins another one, whatever the checksums of the two are.
-/

namespace IncrementalGlr

namespace Blob

namespace Reader

variable {α β : Type}

/-- Whether a reader that succeeds does so with any bytes behind its input, and leaves them. -/
def Local (reader : Reader α) : Prop :=
  ∀ ⦃total : Nat⦄ ⦃input rest : List UInt8⦄ ⦃value : α⦄,
    reader total input = .ok (value, rest) →
      ∀ extra, reader total (input ++ extra) = .ok (value, rest ++ extra)

/-- Whether a reader that succeeds no longer does so with bytes behind its input. -/
def Closed (reader : Reader α) : Prop :=
  ∀ ⦃total : Nat⦄ ⦃input rest : List UInt8⦄ ⦃value : α⦄,
    reader total input = .ok (value, rest) →
      ∀ ⦃extra : List UInt8⦄, extra ≠ [] → ∀ outcome, reader total (input ++ extra) ≠ .ok outcome

/-! ## Composed readers -/

theorem local_pure (value : α) : Local (pure value : Reader α) := by
  intro total input rest result read extra
  obtain ⟨rfl, rfl⟩ := pure_eq_ok.1 read
  rfl

theorem local_fail (error : LoadError) : Local (fail error : Reader α) := nofun

theorem closed_fail (error : LoadError) : Closed (fail error : Reader α) := nofun

theorem Local.bind {first : Reader α} {next : α → Reader β} (here : Local first)
    (there : ∀ value, Local (next value)) : Local (first >>= next) := by
  intro total input rest result read extra
  obtain ⟨value, middle, before, behind⟩ := bind_eq_ok.1 read
  exact bind_eq_ok.2 ⟨value, middle ++ extra, here before extra, there value behind extra⟩

theorem Local.bind_closed {first : Reader α} {next : α → Reader β} (here : Local first)
    (there : ∀ value, Closed (next value)) : Closed (first >>= next) := by
  intro total input rest result read extra more outcome extended
  obtain ⟨value, middle, before, behind⟩ := bind_eq_ok.1 read
  obtain ⟨found, left, again, later⟩ := bind_eq_ok.1 extended
  rw [here before extra] at again
  cases again
  exact there value behind more outcome later

theorem Closed.bind {first : Reader α} {next : α → Reader β} (here : Closed first) :
    Closed (first >>= next) := by
  intro total input rest result read extra more outcome extended
  obtain ⟨value, middle, before, -⟩ := bind_eq_ok.1 read
  obtain ⟨found, left, again, -⟩ := bind_eq_ok.1 extended
  exact here before more _ again

theorem Local.ite {holds : Prop} [Decidable holds] {first second : Reader α} (here : Local first)
    (there : Local second) : Local (if holds then first else second) := by
  split
  · exact here
  · exact there

theorem Closed.ite {holds : Prop} [Decidable holds] {first second : Reader α} (here : Closed first)
    (there : Closed second) : Closed (if holds then first else second) := by
  split
  · exact here
  · exact there

theorem local_listFrom {item : Nat → Reader α} (each : ∀ index, Local (item index))
    (index size : Nat) : Local (listFrom item index size) := by
  induction size generalizing index with
  | zero => exact local_pure []
  | succ size induction =>
      exact (each index).bind fun value => (induction (index + 1)).bind fun values =>
        local_pure (value :: values)

theorem local_list {item : Reader α} (each : Local item) (size : Nat) : Local (list item size) :=
  local_listFrom (fun _ => each) 0 size

/-! ## The parts of a grammar -/

theorem local_byte : Local byte := by
  intro total input rest value read extra
  rw [byte_eq_ok] at read ⊢
  rw [read, List.cons_append]

theorem local_word : Local word := by
  intro total input rest value read extra
  rw [word_eq_ok] at read ⊢
  rw [read, List.append_assoc]

theorem local_doubleWord : Local doubleWord := by
  intro total input rest value read extra
  rw [doubleWord_eq_ok] at read ⊢
  rw [read, List.append_assoc]

theorem local_take (size : Nat) : Local (take size) := by
  intro total input rest value read extra
  rw [take_eq_ok] at read ⊢
  rw [read.2, List.append_assoc]
  exact ⟨read.1, rfl⟩

theorem local_signedWord : Local signedWord := local_word.bind fun _ => local_pure _

theorem local_symbol : Local symbol := local_word.bind fun _ => local_pure _

theorem local_count : Local count := local_doubleWord.bind fun _ => local_pure _

theorem local_smallCount : Local smallCount :=
  local_count.bind fun _ => .ite (local_pure _) (local_fail _)

theorem local_text : Local text := by
  refine local_count.bind fun size => (local_take size).bind fun bytes => ?_
  split
  · exact local_fail _
  · exact local_pure _

theorem local_symbolInfo (index : Nat) : Local (symbolInfo index) := by
  refine local_text.bind fun name => local_byte.bind fun byte => ?_
  split
  · exact local_byte.bind fun _ => local_pure _
  · exact local_fail _

theorem local_lexRule : Local lexRule :=
  local_symbol.bind fun _ => local_byte.bind fun _ => local_signedWord.bind fun _ =>
    local_text.bind fun _ => .ite (local_pure _) (.ite (local_pure _) (local_fail _))

theorem local_production : Local production :=
  local_symbol.bind fun _ => local_word.bind fun _ => local_signedWord.bind fun _ => local_pure _

theorem local_lexState : Local lexState := local_count.bind (local_list local_symbol)

theorem local_action : Local action :=
  local_byte.bind fun _ => .ite (local_word.bind fun _ => local_pure _)
    (.ite (local_word.bind fun _ => local_pure _) (.ite (local_pure _) (local_fail _)))

theorem local_cell : Local cell :=
  local_symbol.bind fun _ => local_word.bind fun size =>
    (local_list local_action size.toNat).bind fun _ => local_pure _

theorem local_goto : Local goto :=
  local_symbol.bind fun _ => local_word.bind fun _ => local_pure _

theorem local_state : Local state :=
  local_word.bind fun _ => local_count.bind fun cells => (local_list local_cell cells).bind fun _ =>
    local_count.bind fun gotos => (local_list local_goto gotos).bind fun _ => local_pure _

theorem closed_finish : Closed finish := by
  intro total input rest value read extra more outcome extended
  obtain ⟨rfl, -⟩ := finish_eq_ok.1 read
  exact more (finish_eq_ok.1 extended).1

/-- The contents of a grammar are read up to the end and no further. -/
theorem closed_contents : Closed contents := by
  refine local_word.bind_closed fun _ => local_count.bind_closed fun symbolCount =>
    local_smallCount.bind_closed fun _ => local_count.bind_closed fun stateCount =>
    local_count.bind_closed fun productionCount => local_symbol.bind_closed fun _ =>
    local_text.bind_closed fun _ => local_count.bind_closed fun actual =>
    .ite (closed_fail _).bind ?_
  exact (local_listFrom local_symbolInfo 0 symbolCount).bind_closed fun _ =>
    local_count.bind_closed fun ruleCount =>
    (local_list local_lexRule ruleCount).bind_closed fun _ =>
    (local_list local_production productionCount).bind_closed fun _ =>
    local_count.bind_closed fun lexStateCount =>
    (local_list local_lexState lexStateCount).bind_closed fun _ =>
    (local_list local_state stateCount).bind_closed fun _ => closed_finish.bind

end Reader

/-! ## Binary forms -/

/-- No body of a grammar begins another one. -/
theorem Denotes.append_eq_self {body extra : List UInt8} {data other : GrammarData}
    (shorter : Denotes body data ∧ data.Storable)
    (longer : Denotes (body ++ extra) other ∧ other.Storable) : extra = [] := by
  obtain ⟨start, rest, read⟩ := (denotes_iff_contents 0).1 shorter
  obtain ⟨-, left, extended⟩ := (denotes_iff_contents 0).1 longer
  have long : 6 ≤ body.length := by
    have := congrArg List.length start
    simp only [List.length_take, magic, word, List.length_append, List.length_cons,
      List.length_nil] at this
    omega
  rw [List.drop_append_of_le_length long] at extended
  by_contra more
  exact Reader.closed_contents read more _ extended

/-- No accepted binary form begins another one. -/
theorem eq_of_begins {first second : List UInt8} {data other : GrammarData}
    (shorter : decode first = .ok data) (longer : decode second = .ok other)
    (begins : first <+: second) : first = second := by
  obtain ⟨storable, body, denotes, rfl⟩ := decode_eq_ok.1 shorter
  obtain ⟨otherStorable, otherBody, otherDenotes, rfl⟩ := decode_eq_ok.1 longer
  have lengths := begins.length_le
  simp only [List.length_append, doubleWord, List.length_cons, List.length_nil] at lengths
  obtain ⟨extra, rfl⟩ : body <+: otherBody :=
    List.prefix_of_prefix_length_le ((List.prefix_append ..).trans begins)
      (List.prefix_append ..) (by omega)
  obtain rfl := Denotes.append_eq_self ⟨denotes, storable⟩ ⟨otherDenotes, otherStorable⟩
  rw [List.append_nil]

/-- What is written for a grammar is no longer accepted when it is cut short or goes on, even if the
last four bytes are then the checksum of the others. -/
theorem decode_of_other_length {data : GrammarData} (storable : data.Storable) {bytes : List UInt8}
    (related : bytes <+: encode data ∨ encode data <+: bytes) (other : bytes ≠ encode data) :
    ∃ error, decode bytes = .error error := by
  have whole := decode_eq_ok.2 ⟨storable, body data, denotes_body data, rfl⟩
  cases outcome : decode bytes with
  | error error => exact ⟨error, rfl⟩
  | ok found =>
      rcases related with cut | extended
      · exact absurd (eq_of_begins outcome whole cut) other
      · exact absurd (eq_of_begins whole outcome extended).symm other

theorem decode_single_cut_or_extended :
    (∃ error, decode ((encode single).dropLast) = .error error) ∧
      ∃ error, decode (encode single ++ [0]) = .error error :=
  ⟨decode_of_other_length storable_single (.inl (List.dropLast_prefix _))
      fun same => absurd (congrArg List.length same) (by simp [encode, doubleWord]),
    decode_of_other_length storable_single (.inr (List.prefix_append ..)) (by simp)⟩

end Blob

end IncrementalGlr
