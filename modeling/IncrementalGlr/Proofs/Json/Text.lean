import IncrementalGlr.Json.Reader
import Mathlib.Tactic.Common
import Mathlib.Tactic.IntervalCases

/-!
# Reading strings and numbers as they are written

A reader is run on the written form of a value with more characters behind it.  It gives the value
and leaves these characters.  Behind a number they must not go on with it.
-/

namespace IncrementalGlr

namespace Json

namespace Reader

variable {α β : Type} {input middle rest : List Char}

/-- A reader goes on where the one before it stopped. -/
theorem run_bind {reader : Reader α} {value : α} (next : α → Reader β)
    (first : reader.run input = .ok (value, middle)) :
    (reader >>= next).run input = (next value).run middle := by
  rw [StateT.run_bind, first]
  rfl

theorem run_get : (get : Reader (List Char)).run input = .ok (input, input) := rfl

theorem run_set : (set rest : Reader PUnit).run input = .ok ((), rest) := rfl

theorem run_next (c : Char) : next.run (c :: rest) = .ok (c, rest) := rfl

theorem run_skip (c : Char) : skip.run (c :: rest) = .ok ((), rest) := rfl

theorem run_budget : budget.run rest = .ok (rest.length + 1, rest) := rfl

/-- Blanks in front of the next character are left out. -/
theorem run_peek {blanks : List Char} {c : Char} (blank : ∀ b ∈ blanks, isBlank b = true)
    (ink : isBlank c = false) : peek.run (blanks ++ c :: rest) = .ok (c, c :: rest) := by
  have left : (blanks ++ c :: rest).dropWhile isBlank = c :: rest := by
    rw [List.dropWhile_append_of_pos blank, List.dropWhile_cons_of_neg (by simp [ink])]
  rw [peek, run_bind _ run_get, left, run_bind _ run_set]
  rfl

/-- The next character is found where it stands. -/
theorem run_peek_cons {c : Char} (ink : isBlank c = false) :
    peek.run (c :: rest) = .ok (c, c :: rest) :=
  run_peek (List.forall_mem_nil _) ink

/-! ## Strings -/

theorem digitValue?_hexDigit {value : Nat} (small : value < 16) :
    digitValue? (hexDigit value) = some value := by
  interval_cases value <;> decide

theorem hexDigits_cons {c : Char} {digit : Nat} (found : digitValue? c = some digit)
    (value count : Nat) :
    (hexDigits value (count + 1)).run (c :: rest) =
      (hexDigits (value * 16 + digit) count).run rest := by
  rw [hexDigits, run_bind _ (run_next c), found]

/-- The four digits that are written for a control character are read as its number. -/
theorem unicodeEscape_run {c : Char} (control : c.toNat < 32) :
    unicodeEscape.run
        ('0' :: '0' :: hexDigit (c.toNat / 16) :: hexDigit (c.toNat % 16) :: rest) =
      .ok (c, rest) := by
  have upper := digitValue?_hexDigit (show c.toNat / 16 < 16 by omega)
  have lower := digitValue?_hexDigit (show c.toNat % 16 < 16 by omega)
  have value : ((0 * 16 + 0) * 16 + 0) * 16 + c.toNat / 16 = c.toNat / 16 := by omega
  have digits : (hexDigits 0 4).run
      ('0' :: '0' :: hexDigit (c.toNat / 16) :: hexDigit (c.toNat % 16) :: rest) =
        .ok (c.toNat, rest) := by
    rw [hexDigits_cons (by decide : digitValue? '0' = some 0),
      hexDigits_cons (by decide : digitValue? '0' = some 0), hexDigits_cons upper,
      hexDigits_cons lower, value, Nat.div_add_mod']
    rfl
  rw [unicodeEscape, run_bind _ digits, if_pos (by omega), Char.ofNat_toNat]
  rfl

/-- One character of a string is read from its written form. -/
theorem stringRest_escape (read : List Char) (c : Char) (steps : Nat) :
    (stringRest read (steps + 1)).run (escape c ++ rest) =
      (stringRest (c :: read) steps).run rest := by
  unfold escape
  split
  all_goals try rfl
  split
  · next control =>
      have escaped : (stringRest read (steps + 1)).run
          (['\\', 'u', '0', '0', hexDigit (c.toNat / 16), hexDigit (c.toNat % 16)] ++ rest) =
            (unicodeEscape >>= fun c => stringRest (c :: read) steps).run
              ('0' :: '0' :: hexDigit (c.toNat / 16) :: hexDigit (c.toNat % 16) :: rest) := rfl
      rw [escaped, run_bind _ (unicodeEscape_run control)]
  · next noQuote noBackslash _ _ _ _ _ plain =>
      rw [List.singleton_append, stringRest, run_bind _ (run_next c), if_neg noQuote,
        if_neg noBackslash, if_neg plain]

/-- A string is read from its written form. -/
theorem stringRest_run (read text : List Char) {steps : Nat} (enough : text.length < steps) :
    (stringRest read steps).run (text.flatMap escape ++ '"' :: rest) =
      .ok (String.ofList (read.reverse ++ text), rest) := by
  obtain ⟨steps, rfl⟩ := Nat.exists_eq_add_one_of_ne_zero (Nat.ne_zero_of_lt enough)
  induction text generalizing read steps with
  | nil =>
      rw [List.append_nil]
      rfl
  | cons c text induction =>
      rw [List.length_cons, Nat.add_lt_add_iff_right] at enough
      obtain ⟨steps, rfl⟩ := Nat.exists_eq_add_one_of_ne_zero (Nat.ne_zero_of_lt enough)
      rw [List.flatMap_cons, List.append_assoc, stringRest_escape,
        induction (c :: read) steps enough, List.reverse_cons, List.append_assoc,
        List.singleton_append]

theorem escape_ne_nil (c : Char) : escape c ≠ [] := by
  unfold escape
  split
  all_goals first | exact List.cons_ne_nil _ _ | split <;> exact List.cons_ne_nil _ _

theorem length_le_length_flatMap_escape (text : List Char) :
    text.length ≤ (text.flatMap escape).length := by
  induction text with
  | nil => exact le_rfl
  | cons c text induction =>
      have written : 0 < (escape c).length := List.length_pos_iff.2 (escape_ne_nil c)
      rw [List.flatMap_cons, List.length_cons, List.length_append]
      omega

/-- What is written between quotation marks is read behind the first of them. -/
theorem stringBody_run (text : String) :
    stringBody.run (text.toList.flatMap escape ++ '"' :: rest) = .ok (text, rest) := by
  have written := length_le_length_flatMap_escape text.toList
  have enough : text.toList.length < (text.toList.flatMap escape ++ '"' :: rest).length + 1 := by
    rw [List.length_append]
    omega
  rw [stringBody, run_bind _ run_budget, stringRest_run [] _ enough, List.reverse_nil,
    List.nil_append, String.ofList_toList]

theorem quote_append (text : String) (rest : List Char) :
    quote text ++ rest = '"' :: (text.toList.flatMap escape ++ '"' :: rest) := by
  simp [quote]

/-- A quoted string is read. -/
theorem string_run (text : String) : string.run (quote text ++ rest) = .ok (text, rest) := by
  rw [quote_append, string, run_bind _ (run_peek_cons (by decide)), if_pos rfl,
    run_bind _ (run_skip _), stringBody_run]

/-! ## Numbers -/

/-- Whether a number may end in front of the characters. -/
def EndsNumber (rest : List Char) : Prop :=
  ∀ c ∈ rest.head?, c.isDigit = false ∧ c ≠ '.' ∧ c ≠ 'e' ∧ c ≠ 'E'

/-- All digits up to the end of a number are taken. -/
theorem digits_run {number : List Char} (decimal : ∀ c ∈ number, c.isDigit = true)
    (ends : ∀ c ∈ rest.head?, c.isDigit = false) :
    digits.run (number ++ rest) = .ok (number, rest) := by
  have none : rest.takeWhile Char.isDigit = [] := by
    cases rest with
    | nil => rfl
    | cons c rest => exact List.takeWhile_cons_of_neg (by simp [ends c rfl])
  have taken : (number ++ rest).takeWhile Char.isDigit = number := by
    rw [List.takeWhile_append_of_pos decimal, none, List.append_nil]
  rw [digits, run_bind _ run_get]
  simp only [taken, List.drop_left]
  rfl

theorem digits1_run {number : List Char} (decimal : ∀ c ∈ number, c.isDigit = true)
    (nonempty : number ≠ []) (ends : ∀ c ∈ rest.head?, c.isDigit = false) :
    digits1.run (number ++ rest) = .ok (number, rest) := by
  rw [digits1, run_bind _ (digits_run decimal ends)]
  cases number with
  | nil => exact absurd rfl nonempty
  | cons c number => rfl

theorem skipIf_run_of_not {accepts : Char → Bool} (other : ∀ c ∈ input.head?, accepts c = false) :
    (skipIf accepts).run input = .ok (none, input) := by
  rw [skipIf, run_bind _ run_get]
  cases input with
  | nil => rfl
  | cons c input =>
      change StateT.run (if accepts c = true then _ else _) _ = _
      rw [if_neg (by simp [other c rfl])]
      rfl

theorem skipIf_run {accepts : Char → Bool} {c : Char} (accepted : accepts c = true) :
    (skipIf accepts).run (c :: rest) = .ok (some c, rest) := by
  rw [skipIf, run_bind _ run_get]
  change StateT.run (if accepts c = true then _ else _) _ = _
  rw [if_pos accepted, run_bind _ run_set]
  rfl

theorem isDigit_of_mem {n : Nat} {c : Char} (member : c ∈ Nat.toDigits 10 n) : c.isDigit = true :=
  Nat.isDigit_of_mem_toDigits (by decide) (by decide) member

/-- The digits of a number are read as the number. -/
theorem natOf_toDigits (n : Nat) : natOf (Nat.toDigits 10 n) = n := by
  have read : Nat.ofDigitChars 10 (Nat.toDigits 10 n) 0 = n := Nat.ofDigitChars_ten_toDigits
  simp only [Nat.ofDigitChars_eq_foldl, Nat.mul_comm] at read
  exact read

/-- No positive number starts with a zero. -/
theorem head?_toDigits_ne {n : Nat} (positive : 0 < n) :
    (Nat.toDigits 10 n).head? ≠ some '0' := by
  induction n using Nat.strong_induction_on with
  | _ n induction =>
      rw [Nat.toDigits_eq_if (by decide)]
      split
      · next small =>
          interval_cases n <;> decide
      · next large =>
          have smaller := induction (n / 10) (by omega) (by omega)
          obtain ⟨c, digits, written⟩ :=
            List.exists_cons_of_ne_nil (Nat.toDigits_ne_nil (n := n / 10) (b := 10))
          rw [written] at smaller ⊢
          exact smaller

/-- A number without decimals and exponent is read. -/
theorem numeral_run (negative : Bool) {whole : List Char}
    (decimal : ∀ c ∈ whole, c.isDigit = true) (nonempty : whole ≠ [])
    (noZero : whole.head? = some '0' → whole.length = 1) (ends : EndsNumber rest) :
    numeral.run ((if negative then ['-'] else []) ++ (whole ++ rest)) =
      .ok (⟨negative, whole, none, none⟩, rest) := by
  have sign : (skipIf (· == '-')).run ((if negative then ['-'] else []) ++ (whole ++ rest)) =
      .ok (if negative then some '-' else none, whole ++ rest) := by
    cases negative with
    | true => exact skipIf_run rfl
    | false =>
        refine skipIf_run_of_not fun c first => ?_
        obtain ⟨d, digits, rfl⟩ := List.exists_cons_of_ne_nil nonempty
        obtain rfl : d = c := by simpa using first
        refine beq_eq_false_iff_ne.2 ?_
        rintro rfl
        exact absurd (decimal _ List.mem_cons_self) (by decide)
  have digits := digits1_run decimal nonempty fun c next => (ends c next).1
  have noPoint : (skipIf (· == '.')).run rest = .ok (none, rest) :=
    skipIf_run_of_not fun c next => beq_eq_false_iff_ne.2 (ends c next).2.1
  have noExponent : (skipIf fun c => c == 'e' || c == 'E').run rest = .ok (none, rest) :=
    skipIf_run_of_not fun c next => by simp [(ends c next).2.2]
  rw [numeral, run_bind _ sign]
  simp only [run_bind _ digits]
  rw [if_neg (by simpa using fun zero => (noZero zero).le)]
  simp only [run_bind _ noPoint, Option.isSome_none, Bool.false_eq_true, if_false, pure_bind,
    run_bind _ noExponent]
  cases negative <;> rfl

/-- Whether an integer is stored in 64 bits, with or without a sign. -/
def Storable (value : Int) : Prop := -2 ^ 63 ≤ value ∧ value < 2 ^ 64

theorem toList_toString (value : Int) :
    (toString value).toList =
      (if value < 0 then ['-'] else []) ++ Nat.toDigits 10 value.natAbs := by
  change value.repr.toList = _
  rw [Int.repr_eq_if]
  rcases lt_or_ge value 0 with negative | natural
  · rw [if_neg negative.not_ge, if_pos negative, String.toList_append, Nat.toList_repr]
    congr
    omega
  · rw [if_pos natural, if_neg natural.not_gt, Nat.toList_repr]
    congr
    omega

theorem isBlank_of_isDigit {c : Char} (decimal : c.isDigit = true) : isBlank c = false := by
  simp only [isBlank, Bool.or_eq_false_iff, beq_eq_false_iff_ne]
  refine ⟨⟨⟨?_, ?_⟩, ?_⟩, ?_⟩
  all_goals
    rintro rfl
    exact absurd decimal (by decide)

/-- A written integer starts with its sign or with a digit. -/
theorem exists_toList_toString (value : Int) :
    ∃ c tail, (toString value).toList = c :: tail ∧ (c = '-' ∨ c.isDigit = true) := by
  rw [toList_toString]
  split
  · exact ⟨'-', _, rfl, .inl rfl⟩
  · obtain ⟨c, tail, written⟩ :=
      List.exists_cons_of_ne_nil (Nat.toDigits_ne_nil (n := value.natAbs) (b := 10))
    refine ⟨c, tail, written, .inr (isDigit_of_mem (n := value.natAbs) ?_)⟩
    rw [written]
    exact List.mem_cons_self

section Storable

variable {value : Int}

/-- The parts of a written integer. -/
def numeralOf (value : Int) : Numeral :=
  ⟨decide (value < 0), Nat.toDigits 10 value.natAbs, none, none⟩

theorem overflows_eq_false (storable : Storable value) : (numeralOf value).overflows = false := by
  obtain ⟨lower, upper⟩ := storable
  have short : (Nat.toDigits 10 value.natAbs).length ≤ 20 :=
    (Nat.length_toDigits_le_iff (by decide) (by decide)).2 (by omega)
  have small : ((Nat.toDigits 10 value.natAbs).length : Int) < 309 := by omega
  unfold Numeral.overflows
  refine if_pos (Bool.or_eq_true_iff.2 (.inr (decide_eq_true ?_)))
  simpa [numeralOf, natOf_toDigits] using small

theorem value_eq (storable : Storable value) : (numeralOf value).value = .int value := by
  obtain ⟨lower, upper⟩ := storable
  simp only [Numeral.value, numeralOf, natOf_toDigits, Option.isSome_none, Bool.or_self,
    Bool.false_eq_true, if_false, decide_eq_true_eq]
  rcases lt_or_ge value 0 with negative | natural
  · have large : (decide (value.natAbs = 0) || decide (Nat.pow 2 63 < value.natAbs)) = false := by
      rw [Bool.or_eq_false_iff, decide_eq_false_iff_not, decide_eq_false_iff_not, Nat.pow_eq]
      omega
    rw [if_pos negative, large, if_neg Bool.false_ne_true]
    congr
    omega
  · have small : ¬ Nat.pow 2 64 ≤ value.natAbs := by
      rw [Nat.pow_eq]
      omega
    rw [if_neg natural.not_gt, if_neg small, Int.natAbs_of_nonneg natural]

end Storable

/-- An integer of 64 bits is read from its decimal form. -/
theorem number_run {value : Int} (storable : Storable value) (ends : EndsNumber rest) :
    number.run ((toString value).toList ++ rest) = .ok (.int value, rest) := by
  have decimal : ∀ c ∈ Nat.toDigits 10 value.natAbs, c.isDigit = true :=
    fun c => isDigit_of_mem
  have noZero : (Nat.toDigits 10 value.natAbs).head? = some '0' →
      (Nat.toDigits 10 value.natAbs).length = 1 := by
    rcases Nat.eq_zero_or_pos value.natAbs with zero | positive
    · simp [zero]
    · exact fun zero => absurd zero (head?_toDigits_ne positive)
  have read : numeral.run ((toString value).toList ++ rest) = .ok (numeralOf value, rest) := by
    rw [toList_toString, List.append_assoc]
    simpa [numeralOf] using
      numeral_run (decide (value < 0)) decimal Nat.toDigits_ne_nil noZero ends
  rw [number, run_bind _ read]
  rw [overflows_eq_false storable]
  simp only [Bool.false_eq_true, if_false]
  rw [value_eq storable]
  rfl

end Reader

end Json

end IncrementalGlr
