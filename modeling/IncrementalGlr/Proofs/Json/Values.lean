import IncrementalGlr.Proofs.Json.Text

/-!
# Reading values as they are written

Items and members are written one to a line.  Whatever is read from the lines, the same steps lead
from one line to the next and to the closing bracket.
-/

namespace IncrementalGlr

namespace Json

/-- Whether a text begins a value: it starts with neither a blank nor a closing bracket. -/
def Begins (text : List Char) : Prop :=
  ∃ c rest, text = c :: rest ∧ Reader.isBlank c = false ∧ c ≠ ']' ∧ c ≠ '\x7d'

/-- The lines behind an opening bracket, with the closing bracket and what follows it.  The first
line follows no comma, and without lines both brackets stand side by side. -/
def lines (closing : Char) (depth : Nat) (rest : List Char) : Bool → List (List Char) → List Char
  | true, [] => closing :: rest
  | false, [] => newline depth ++ closing :: rest
  | true, text :: texts => newline (depth + 1) ++ (text ++ lines closing depth rest false texts)
  | false, text :: texts =>
    ',' :: (newline (depth + 1) ++ (text ++ lines closing depth rest false texts))

namespace Reader

variable {α : Type} {rest : List Char}

theorem blank_newline (depth : Nat) : ∀ b ∈ newline depth, isBlank b = true := by
  intro b member
  obtain rfl | space := List.mem_cons.1 member
  · rfl
  · rw [List.eq_of_mem_replicate space]
    rfl

theorem begins_quote (text : String) (rest : List Char) : Begins (quote text ++ rest) :=
  ⟨'"', _, quote_append text rest, by decide⟩

section Lines

variable {closing : Char} {depth : Nat} {texts : List (List Char)}

/-- Behind the last line the closing bracket is found. -/
theorem more_run_nil (bracket : closing = ']' ∨ closing = '\x7d') (isFirst : Bool) :
    (more closing isFirst).run (lines closing depth rest isFirst []) =
      .ok (false, closing :: rest) := by
  have ink : isBlank closing = false := by
    rcases bracket with rfl | rfl <;> decide
  have found : peek.run (lines closing depth rest isFirst []) = .ok (closing, closing :: rest) := by
    cases isFirst with
    | true => exact run_peek_cons ink
    | false => exact run_peek (blank_newline depth) ink
  rw [more, run_bind _ found, if_pos rfl]
  rfl

/-- The next line is found. -/
theorem more_run_cons (bracket : closing = ']' ∨ closing = '\x7d') (isFirst : Bool)
    {text : List Char} (begins : Begins text) :
    (more closing isFirst).run (lines closing depth rest isFirst (text :: texts)) =
      .ok (true, text ++ lines closing depth rest false texts) := by
  obtain ⟨c, tail, rfl, ink, notArray, notObject⟩ := begins
  have other : c ≠ closing := by
    rcases bracket with rfl | rfl <;> assumption
  have found {more : List Char} : peek.run (newline (depth + 1) ++ (c :: more)) = .ok (c, c :: more) :=
    run_peek (blank_newline _) ink
  cases isFirst with
  | true =>
      rw [more, lines, List.cons_append, run_bind _ found, if_neg other, if_pos rfl]
      rfl
  | false =>
      have comma : ',' ≠ closing := by
        rcases bracket with rfl | rfl <;> decide
      rw [more, lines, run_bind _ (run_peek_cons (by decide)), if_neg comma,
        if_neg Bool.false_ne_true, if_pos rfl, run_bind _ (run_skip _), List.cons_append,
        run_bind _ found, if_neg other]
      rfl

/-- A number may end at the end of a line. -/
theorem endsNumber_lines : EndsNumber (lines closing depth rest false texts) := by
  intro c next
  cases texts with
  | nil =>
      obtain rfl : '\n' = c := by simpa [lines, newline] using next
      decide
  | cons text texts =>
      obtain rfl : ',' = c := by simpa [lines] using next
      decide

theorem length_lines_cons (isFirst : Bool) (text : List Char) :
    (lines closing depth rest false texts).length + text.length <
      (lines closing depth rest isFirst (text :: texts)).length := by
  cases isFirst <;> simp [lines, newline] <;> omega

/-- There are more characters than lines. -/
theorem length_lt_length_lines (isFirst : Bool) :
    texts.length < (lines closing depth rest isFirst texts).length := by
  induction texts generalizing isFirst with
  | nil => cases isFirst <;> simp [lines, newline]
  | cons text texts induction =>
      have fewer := Nat.lt_of_lt_of_le (induction false) (Nat.le_add_right _ text.length)
      rw [List.length_cons]
      exact Nat.lt_of_le_of_lt fewer (length_lines_cons isFirst text)

theorem exists_step {isFirst : Bool} {steps : Nat}
    (enough : (lines closing depth rest isFirst texts).length ≤ steps) :
    ∃ left, steps = left + 1 := by
  have positive := (length_lt_length_lines isFirst).trans_le enough
  exact Nat.exists_eq_add_one_of_ne_zero (Nat.ne_zero_of_lt positive)

end Lines

end Reader

namespace Value

/-- The written form of a member. -/
def writeMember (depth : Nat) (member : String × Value) : List Char :=
  quote member.1 ++ ':' :: ' ' :: member.2.write depth

theorem writeMember_append (depth : Nat) (member : String × Value) (rest : List Char) :
    writeMember depth member ++ rest =
      quote member.1 ++ (':' :: ' ' :: (member.2.write depth ++ rest)) := by
  simp [writeMember]

theorem begins_writeMember (depth : Nat) (member : String × Value) :
    Begins (writeMember depth member) :=
  Reader.begins_quote ..

theorem writeItems_append (depth : Nat) (items : List Value) (rest : List Char) :
    writeItems (depth + 1) items ++ (newline depth ++ ']' :: rest) =
      lines ']' depth rest false (items.map (write (depth + 1))) := by
  induction items with
  | nil => rfl
  | cons item items induction => simp [writeItems, lines, ← induction]

theorem write_array_append (depth : Nat) (items : List Value) (rest : List Char) :
    (array items).write depth ++ rest =
      '[' :: lines ']' depth rest true (items.map (write (depth + 1))) := by
  cases items with
  | nil => rfl
  | cons item items => simp [write, lines, ← writeItems_append]

theorem writeMembers_append (depth : Nat) (members : List (String × Value)) (rest : List Char) :
    writeMembers (depth + 1) members ++ (newline depth ++ '\x7d' :: rest) =
      lines '\x7d' depth rest false (members.map (writeMember (depth + 1))) := by
  induction members with
  | nil => rfl
  | cons member members induction => simp [writeMembers, writeMember, lines, ← induction]

theorem write_object_append (depth : Nat) (members : List (String × Value)) (rest : List Char) :
    (object members).write depth ++ rest =
      '\x7b' :: lines '\x7d' depth rest true (members.map (writeMember (depth + 1))) := by
  cases members with
  | nil => rfl
  | cons member members => simp [write, writeMember, lines, ← writeMembers_append]

mutual

/-- How deeply arrays and objects are nested in a value. -/
def depth : Value → Nat
  | array items => depthOfItems items + 1
  | object members => depthOfMembers members + 1
  | _ => 0

/-- The greatest depth of the items. -/
def depthOfItems : List Value → Nat
  | [] => 0
  | item :: rest => max item.depth (depthOfItems rest)

/-- The greatest depth of the values of the members. -/
def depthOfMembers : List (String × Value) → Nat
  | [] => 0
  | (_, value) :: rest => max value.depth (depthOfMembers rest)

end

theorem depth_le_of_mem {items : List Value} {item : Value} (member : item ∈ items) :
    item.depth ≤ depthOfItems items := by
  induction items with
  | nil => cases member
  | cons first rest induction =>
      obtain rfl | later := List.mem_cons.1 member
      · exact le_max_left ..
      · exact (induction later).trans (le_max_right ..)

theorem depth_le_of_mem_members {members : List (String × Value)} {entry : String × Value}
    (member : entry ∈ members) : entry.2.depth ≤ depthOfMembers members := by
  induction members with
  | nil => cases member
  | cons first rest induction =>
      obtain rfl | later := List.mem_cons.1 member
      · exact le_max_left ..
      · exact (induction later).trans (le_max_right ..)

/-- Whether a value nests arrays and objects to at most the given depth and all its numbers are
integers of 64 bits. -/
inductive Readable : Nat → Value → Prop
  | null {levels : Nat} : Readable levels .null
  | bool {levels : Nat} (value : Bool) : Readable levels (.bool value)
  | int {levels : Nat} {value : Int} (storable : Reader.Storable value) :
    Readable levels (.int value)
  | string {levels : Nat} (value : String) : Readable levels (.string value)
  | array {levels : Nat} {items : List Value} (readable : ∀ item ∈ items, Readable levels item) :
    Readable (levels + 1) (.array items)
  | object {levels : Nat} {members : List (String × Value)}
    (readable : ∀ member ∈ members, Readable levels member.2) :
    Readable (levels + 1) (.object members)

theorem begins_write (depth : Nat) (value : Value) : Begins (value.write depth) := by
  cases value with
  | null => exact ⟨'n', _, rfl, by decide⟩
  | bool value => cases value with
    | true => exact ⟨'t', _, rfl, by decide⟩
    | false => exact ⟨'f', _, rfl, by decide⟩
  | int value =>
      obtain ⟨c, tail, written, sort⟩ := Reader.exists_toList_toString value
      refine ⟨c, tail, written, ?_⟩
      obtain rfl | decimal := sort
      · decide
      · refine ⟨Reader.isBlank_of_isDigit decimal, ?_, ?_⟩
        all_goals
          rintro rfl
          exact absurd decimal (by decide)
  | fraction => exact ⟨'0', _, rfl, by decide⟩
  | string value => exact ⟨'"', _, rfl, by decide⟩
  | array items => cases items <;> exact ⟨'[', _, rfl, by decide⟩
  | object members => cases members <;> exact ⟨'\x7b', _, rfl, by decide⟩

end Value

namespace Reader

variable {α : Type} {rest : List Char}

/-- A reader that looks at the next character leaves out blanks in front of it. -/
theorem run_peek_blank (next : Char → Reader α) {b : Char} (blank : isBlank b = true) :
    (peek >>= next).run (b :: rest) = (peek >>= next).run rest := by
  have same : peek.run (b :: rest) = peek.run rest := by
    rw [peek, run_bind _ run_get, run_bind _ run_get, List.dropWhile_cons_of_pos blank]
    rfl
  rw [StateT.run_bind, StateT.run_bind, same]

/-- A quoted string is also read behind the blank that follows a colon. -/
theorem string_run_blank (text : String) :
    string.run (' ' :: (quote text ++ rest)) = .ok (text, rest) := by
  have same : string.run (' ' :: (quote text ++ rest)) = string.run (quote text ++ rest) :=
    run_peek_blank _ (by decide)
  rw [same, string_run]

theorem key_run (name : String) : key.run (quote name ++ rest) = .ok (name, rest) := by
  rw [quote_append, key, run_bind _ (run_peek_cons (by decide))]
  exact stringBody_run name

theorem colon_run : colon.run (':' :: rest) = .ok ((), rest) := rfl

theorem value_run_blank (levels steps : Nat) :
    (value levels steps).run (' ' :: rest) = (value levels steps).run rest := by
  cases steps with
  | zero => rfl
  | succ steps =>
      have same : scalar?.run (' ' :: rest) = scalar?.run rest := run_peek_blank _ (by decide)
      rw [value, StateT.run_bind, StateT.run_bind, same]

section Loops

variable {closing : Char} {depth levels : Nat}

/-- Whether a reader takes a value from the front of its written form, given enough steps. -/
def Takes (reader : Nat → Reader α) (text : List Char) (value : α) : Prop :=
  ∀ (steps : Nat) {rest : List Char}, EndsNumber rest → text.length + rest.length ≤ steps →
    (reader steps).run (text ++ rest) = .ok (value, rest)

/-- A loop that reads one entry after the other reads all lines, if it reads the entries. -/
theorem loop_run (bracket : closing = ']' ∨ closing = '\x7d') {loop : Bool → Nat → Reader (List α)}
    {entry : Nat → Reader α} {write : α → List Char}
    (step : ∀ isFirst steps, loop isFirst (steps + 1) = do
      if ← more closing isFirst then
        let value ← entry steps
        return value :: (← loop false steps)
      else return [])
    {values : List α} (begins : ∀ value ∈ values, Begins (write value))
    (each : ∀ value ∈ values, Takes entry (write value) value) (isFirst : Bool) (steps : Nat)
    (enough : (lines closing depth rest isFirst (values.map write)).length ≤ steps) :
    (loop isFirst steps).run (lines closing depth rest isFirst (values.map write)) =
      .ok (values, closing :: rest) := by
  induction values generalizing isFirst steps with
  | nil =>
      obtain ⟨left, rfl⟩ := exists_step enough
      rw [step, List.map_nil, run_bind _ (more_run_nil bracket isFirst)]
      rfl
  | cons value values induction =>
      obtain ⟨left, rfl⟩ := exists_step enough
      rw [List.map_cons] at enough ⊢
      simp only [List.forall_mem_cons] at begins each
      have shorter := (length_lines_cons isFirst (write value)).trans_le enough
      have others := induction begins.2 each.2 false left (by omega)
      rw [step, run_bind _ (more_run_cons bracket isFirst begins.1), if_pos rfl,
        run_bind _ (each.1 left endsNumber_lines (by omega)), run_bind _ others]
      rfl

/-- Whether a value below a number of further levels of nesting is read from its written form. -/
def ReadsBack (levels : Nat) (value : Value) : Prop :=
  ∀ depth, Takes (Reader.value levels) (value.write depth) value

/-- A value is also read behind the blank that follows a colon. -/
theorem ReadsBack.behind_blank {value : Value} (read : ReadsBack levels value) (depth steps : Nat)
    (ends : EndsNumber rest) (enough : (value.write depth).length + rest.length ≤ steps) :
    (Reader.value levels steps).run (' ' :: (value.write depth ++ rest)) = .ok (value, rest) :=
  (value_run_blank levels steps).trans (read depth steps ends enough)

/-- Items are read from their lines. -/
theorem items_run {values : List Value} (each : ∀ item ∈ values, ReadsBack levels item)
    (isFirst : Bool) (steps : Nat)
    (enough : (lines ']' depth rest isFirst (values.map (Value.write (depth + 1)))).length ≤
      steps) :
    (items levels isFirst steps).run
        (lines ']' depth rest isFirst (values.map (Value.write (depth + 1)))) =
      .ok (values, ']' :: rest) := by
  have step (isFirst : Bool) (steps : Nat) : items levels isFirst (steps + 1) = do
      if ← more ']' isFirst then
        let item ← value levels steps
        return item :: (← items levels false steps)
      else return [] := by
    rw [items]
  exact loop_run (.inl rfl) step (fun item _ => item.begins_write _)
    (fun item member => each item member _) isFirst steps enough

/-- A key with its value. -/
def member (levels steps : Nat) : Reader (String × Value) := do
  let name ← key
  colon
  let content ← value levels steps
  return (name, content)

/-- A member is read from its line. -/
theorem takes_member {entry : String × Value} (read : ReadsBack levels entry.2) :
    Takes (member levels) (Value.writeMember depth entry) entry := by
  intro steps rest ends enough
  have content := read.behind_blank depth steps ends (by
    simp only [Value.writeMember, List.length_append, List.length_cons] at enough
    omega)
  rw [Value.writeMember_append, member, run_bind _ (key_run entry.1), run_bind _ colon_run,
    run_bind _ content]
  rfl

/-- Members are read from their lines. -/
theorem members_run {entries : List (String × Value)}
    (each : ∀ entry ∈ entries, ReadsBack levels entry.2) (isFirst : Bool) (steps : Nat)
    (enough : (lines '\x7d' depth rest isFirst
      (entries.map (Value.writeMember (depth + 1)))).length ≤ steps) :
    (members levels isFirst steps).run
        (lines '\x7d' depth rest isFirst (entries.map (Value.writeMember (depth + 1)))) =
      .ok (entries, '\x7d' :: rest) := by
  have step (isFirst : Bool) (steps : Nat) : members levels isFirst (steps + 1) = do
      if ← more '\x7d' isFirst then
        let entry ← member levels steps
        return entry :: (← members levels false steps)
      else return [] := by
    rw [members]
    simp [member]
  exact loop_run (.inr rfl) step (fun entry _ => Value.begins_writeMember _ entry)
    (fun entry inside => takes_member (each entry inside)) isFirst steps enough

theorem scalar?_int {value : Int} (storable : Storable value) (ends : EndsNumber rest) :
    scalar?.run ((toString value).toList ++ rest) = .ok (some (.int value), rest) := by
  obtain ⟨c, tail, written, sort⟩ := exists_toList_toString value
  have read := number_run storable ends
  rw [written] at read ⊢
  have ink : isBlank c = false := by
    obtain rfl | decimal := sort
    · decide
    · exact isBlank_of_isDigit decimal
  have sign : (c = '-' || c.isDigit) = true := by simpa using sort
  rw [List.cons_append, scalar?, run_bind _ (run_peek_cons ink)]
  split
  iterate 6 exact absurd sort (by decide)
  rw [if_pos sign]
  exact run_bind _ read

theorem value_of_scalar {value : Value} {input : List Char} (steps : Nat)
    (scalar : scalar?.run input = .ok (some value, rest)) :
    (Reader.value levels (steps + 1)).run input = .ok (value, rest) := by
  rw [Reader.value, run_bind _ scalar]
  rfl

/-- A value is never read in no step. -/
theorem readsBack_of_step {value : Value}
    (step : ∀ (depth left : Nat) {rest : List Char}, EndsNumber rest →
      (value.write depth ++ rest).length ≤ left + 1 →
      (Reader.value levels (left + 1)).run (value.write depth ++ rest) = .ok (value, rest)) :
    ReadsBack levels value := by
  intro depth steps rest ends enough
  rw [← List.length_append] at enough
  obtain ⟨c, tail, written, -⟩ := value.begins_write depth
  obtain ⟨left, rfl⟩ : ∃ left, steps = left + 1 := by
    rw [written, List.cons_append, List.length_cons] at enough
    exact Nat.exists_eq_add_one_of_ne_zero (by omega)
  exact step depth left ends enough

/-- Every value that is not nested too deeply is read from its written form. -/
theorem readsBack_of_readable {value : Value} (readable : value.Readable levels) :
    ReadsBack levels value := by
  induction readable with
  | null => exact readsBack_of_step fun depth left rest ends _ => value_of_scalar left rfl
  | bool value =>
      refine readsBack_of_step fun depth left rest ends _ => value_of_scalar left ?_
      cases value <;> rfl
  | int storable =>
      exact readsBack_of_step fun depth left rest ends _ =>
        value_of_scalar left (scalar?_int storable ends)
  | string value =>
      refine readsBack_of_step fun depth left rest ends _ => value_of_scalar left ?_
      rw [Value.write, quote_append, scalar?, run_bind _ (run_peek_cons (by decide))]
      change StateT.run (do skip; return some (Value.string (← stringBody))) _ = _
      rw [run_bind _ (run_skip _), run_bind _ (stringBody_run value)]
      rfl
  | @array levels values _ read =>
      refine readsBack_of_step fun depth left rest ends enough => ?_
      have opened {input : List Char} : scalar?.run ('[' :: input) = .ok (none, '[' :: input) := rfl
      rw [Value.write_array_append] at enough ⊢
      have contents := items_run read true left (Nat.le_of_succ_le_succ enough)
      rw [Reader.value, run_bind _ opened]
      simp only [Nat.add_one_ne_zero, if_false, Nat.add_sub_cancel, run_bind _ (run_next _), if_true,
        run_bind _ contents, run_bind _ (run_skip _)]
      rfl
  | @object levels members _ read =>
      refine readsBack_of_step fun depth left rest ends enough => ?_
      have opened {input : List Char} :
          scalar?.run ('\x7b' :: input) = .ok (none, '\x7b' :: input) := rfl
      rw [Value.write_object_append] at enough ⊢
      have contents := members_run read true left (Nat.le_of_succ_le_succ enough)
      have brace : ¬ '\x7b' = '[' := by decide
      rw [Reader.value, run_bind _ opened]
      simp only [Nat.add_one_ne_zero, if_false, Nat.add_sub_cancel, run_bind _ (run_next _), brace,
        run_bind _ contents, run_bind _ (run_skip _)]
      rfl

/-- An array is read by a reader of its items. -/
theorem list_run {item : Reader α} {write : α → List Char} {values : List α}
    (begins : ∀ value ∈ values, Begins (write value))
    (each : ∀ value ∈ values, Takes (fun _ => item) (write value) value) :
    (list (levels + 1) item).run ('[' :: lines ']' depth rest true (values.map write)) =
      .ok (values, rest) := by
  have step (isFirst : Bool) (steps : Nat) : listItems item isFirst (steps + 1) = do
      if ← more ']' isFirst then
        let value ← item
        return value :: (← listItems item false steps)
      else return [] := by
    rw [listItems]
  have enough : (lines ']' depth rest true (values.map write)).length ≤
      (lines ']' depth rest true (values.map write)).length + 1 := Nat.le_add_right _ 1
  have contents := loop_run (.inl rfl) step begins each true _ enough
  rw [list, run_bind _ (run_peek_cons (by decide)), if_pos rfl]
  simp only [Nat.add_one_ne_zero, if_false, run_bind _ (run_skip _), run_bind _ run_budget,
    run_bind _ contents]
  rfl

end Loops

end Reader

end Json

end IncrementalGlr
