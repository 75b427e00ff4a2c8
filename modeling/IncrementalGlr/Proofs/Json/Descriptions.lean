import IncrementalGlr.Description.Json
import IncrementalGlr.Proofs.Json.Rules

/-!
# Reading descriptions as they are written

A description that is not nested too deeply is read from its text.
-/

namespace IncrementalGlr

namespace Description

open Json (Value)

/-- Whether a description is one that can be stored: no name has two rules, and all precedences are
integers of 32 bits. -/
structure Fits (description : Description) : Prop where
  /-- No name has two rules. -/
  distinct : (description.rules.map Prod.fst).Nodup
  /-- The precedences in the rules have 32 bits. -/
  rules : ∀ entry ∈ description.rules, entry.2.Fits
  /-- The precedences in the extras have 32 bits. -/
  extras : ∀ rule ∈ description.extras, rule.Fits
  /-- The precedences in the external tokens have 32 bits. -/
  externals : ∀ rule ∈ description.externals, rule.Fits

/-- A name without a rule gets one behind all others. -/
theorem setRule_of_not_mem {name : String} {rules : List (String × Rule)}
    (new : name ∉ rules.map Prod.fst) (rule : Rule) :
    setRule name rule rules = rules ++ [(name, rule)] := by
  induction rules with
  | nil => rfl
  | cons entry rules induction =>
      simp only [List.map_cons, List.mem_cons, not_or] at new
      rw [setRule, if_neg (by simpa using Ne.symm new.1), induction new.2, List.cons_append]

namespace Reader

open Json
open Json.Reader

variable {levels depth : Nat} {rest : List Char}

/-- The written form of a rule with its name. -/
def writeEntry (depth : Nat) (entry : String × Rule) : List Char :=
  Value.writeMember depth (entry.1, entry.2.toJson)

/-- Rules are read from their lines, behind those already read. -/
theorem ruleMembers_run {rules : List (String × Rule)} (fits : ∀ entry ∈ rules, entry.2.Fits)
    (shallow : ∀ entry ∈ rules, entry.2.toJson.depth ≤ levels)
    (within : levels ≤ Json.Reader.depthLimit) (before : List (String × Rule))
    (distinct : ((before ++ rules).map Prod.fst).Nodup) (isFirst : Bool) (steps : Nat)
    (enough : (lines '\x7d' depth rest isFirst (rules.map (writeEntry (depth + 1)))).length ≤
      steps) :
    (ruleMembers levels before isFirst steps).run
        (lines '\x7d' depth rest isFirst (rules.map (writeEntry (depth + 1)))) =
      .ok (before ++ rules, '\x7d' :: rest) := by
  induction rules generalizing before isFirst steps with
  | nil =>
      obtain ⟨left, rfl⟩ := exists_step enough
      rw [ruleMembers, List.map_nil, run_bind _ (more_run_nil (.inr rfl) isFirst),
        List.append_nil]
      rfl
  | cons entry rules induction =>
      obtain ⟨left, rfl⟩ := exists_step enough
      rw [List.map_cons] at enough ⊢
      simp only [List.forall_mem_cons] at fits shallow
      have shorter := (length_lines_cons isFirst (writeEntry (depth + 1) entry)).trans_le enough
      have begins : Begins (writeEntry (depth + 1) entry) := Value.begins_writeMember _ _
      have read {rest : List Char} (ends : EndsNumber rest) :=
        Rule.Reader.rule_run_blank fits.1 shallow.1 within (depth + 1) ends
      have new : entry.1 ∉ before.map Prod.fst := by
        rw [List.map_append, List.map_cons, List.nodup_append] at distinct
        exact fun old => distinct.2.2 _ old _ List.mem_cons_self rfl
      have others := induction fits.2 shallow.2 (before ++ [entry]) (by simpa using distinct) false
        left (by omega)
      rw [ruleMembers, run_bind _ (more_run_cons (.inr rfl) isFirst begins), if_pos rfl,
        writeEntry, Value.writeMember_append, run_bind _ (key_run entry.1), run_bind _ colon_run,
        run_bind _ (read endsNumber_lines), setRule_of_not_mem new, others, List.append_assoc]
      rfl

/-- The rules are read behind a blank. -/
theorem rules_run {rules : List (String × Rule)} (fits : ∀ entry ∈ rules, entry.2.Fits)
    (shallow : ∀ entry ∈ rules, entry.2.toJson.depth ≤ levels)
    (within : levels ≤ Json.Reader.depthLimit) (distinct : (rules.map Prod.fst).Nodup) :
    (Reader.rules (levels + 1)).run
        (' ' :: ((Value.object (rules.map fun entry => (entry.1, entry.2.toJson))).write depth ++
          rest)) =
      .ok (rules, rest) := by
  have enough : (lines '\x7d' depth rest true (rules.map (writeEntry (depth + 1)))).length ≤
      (lines '\x7d' depth rest true (rules.map (writeEntry (depth + 1)))).length + 1 :=
    Nat.le_add_right _ 1
  have contents := ruleMembers_run fits shallow within [] distinct true _ enough
  rw [Value.write_object_append, List.map_map]
  refine (run_peek_blank _ (by decide)).trans ?_
  rw [run_bind _ (run_peek_cons (by decide)), if_pos rfl]
  simp only [Nat.add_one_ne_zero, if_false, Nat.add_sub_cancel, run_bind _ (run_skip _),
    run_bind _ run_budget]
  exact run_bind _ contents

/-- A list of rules is read behind a blank. -/
theorem ruleList_run {rules : List Rule} (fits : ∀ rule ∈ rules, rule.Fits)
    (shallow : ∀ rule ∈ rules, rule.toJson.depth ≤ levels)
    (within : levels ≤ Json.Reader.depthLimit) :
    (ruleList (levels + 1)).run
        (' ' :: ((Value.array (rules.map Rule.toJson)).write depth ++ rest)) =
      .ok (rules, rest) := by
  rw [Value.write_array_append, List.map_map]
  refine (run_peek_blank _ (by decide)).trans ?_
  exact list_run (fun rule _ => rule.toJson.begins_write _)
    fun rule member => Rule.Reader.takes_rule (fits rule member) (shallow rule member) within _

/-- The conflicts are read behind a blank. -/
theorem conflicts_run (conflicts : List (List String)) :
    (Reader.conflicts (levels + 2)).run
        (' ' :: ((Value.array (conflicts.map fun names =>
          .array (names.map Value.string))).write depth ++ rest)) =
      .ok (conflicts, rest) := by
  rw [Value.write_array_append, List.map_map]
  refine (run_peek_blank _ (by decide)).trans ?_
  refine list_run (fun names _ => Value.begins_write _ _) fun names _ steps rest _ _ => ?_
  rw [Function.comp_apply, Value.write_array_append, List.map_map]
  exact list_run (fun name _ => Value.begins_write _ _) fun name _ steps rest _ _ => string_run name

/-- A member is read from its line, and the next ones after it. -/
theorem members_run_cons {fields next : Fields} {name : String} {value : Value}
    {texts : List (List Char)} (isFirst : Bool) (steps : Nat)
    (read : ∀ {rest}, (member levels fields name).run
      (':' :: ' ' :: (value.write (depth + 1) ++ rest)) = .ok (next, rest)) :
    (members levels fields isFirst (steps + 1)).run
        (lines '\x7d' depth rest isFirst (Value.writeMember (depth + 1) (name, value) :: texts)) =
      (members levels next false steps).run (lines '\x7d' depth rest false texts) := by
  rw [members, run_bind _ (more_run_cons (.inr rfl) isFirst (Value.begins_writeMember _ _)),
    if_pos rfl, Value.writeMember_append, run_bind _ (key_run name), run_bind _ read]

/-- Behind the last member the closing brace is found. -/
theorem members_run_nil (fields : Fields) (steps : Nat) :
    (members levels fields false (steps + 1)).run (lines '\x7d' depth rest false []) =
      .ok (fields, '\x7d' :: rest) := by
  rw [members, run_bind _ (more_run_nil (.inr rfl) false)]
  rfl

section Members

variable {fields : Fields}

/-- A member that has not been read before is read behind its colon. -/
theorem once_run {α β : Type} {before : Option α} (unread : before = none) {item : Reader β}
    (set : β → Fields) {value : β} {input : List Char} (read : item.run input = .ok (value, rest)) :
    StateT.run (do
      once before
      colon
      return set (← item)) (':' :: input) = .ok (set value, rest) := by
  subst unread
  rw [run_bind _ (rfl : (once none).run (':' :: input) = .ok ((), ':' :: input)),
    run_bind _ colon_run, run_bind _ read]
  rfl

theorem member_name_run (unread : fields.name = none) (name : String) :
    (member levels fields "name").run
        (':' :: ' ' :: ((Value.string name).write depth ++ rest)) =
      .ok ({ fields with name := some name }, rest) :=
  once_run unread (fun name => { fields with name := some name }) (string_run_blank name)

theorem member_rules_run (unread : fields.rules = none) {rules : List (String × Rule)}
    (fits : ∀ entry ∈ rules, entry.2.Fits) (distinct : (rules.map Prod.fst).Nodup)
    (shallow : ∀ entry ∈ rules, entry.2.toJson.depth ≤ levels)
    (within : levels ≤ Json.Reader.depthLimit) :
    (member (levels + 1) fields "rules").run
        (':' :: ' ' ::
          ((Value.object (rules.map fun entry => (entry.1, entry.2.toJson))).write depth ++ rest)) =
      .ok ({ fields with rules := some rules }, rest) :=
  once_run unread (fun rules => { fields with rules := some rules })
    (rules_run fits shallow within distinct)

theorem member_extras_run (unread : fields.extras = none) {rules : List Rule}
    (fits : ∀ rule ∈ rules, rule.Fits) (shallow : ∀ rule ∈ rules, rule.toJson.depth ≤ levels)
    (within : levels ≤ Json.Reader.depthLimit) :
    (member (levels + 1) fields "extras").run
        (':' :: ' ' :: ((Value.array (rules.map Rule.toJson)).write depth ++ rest)) =
      .ok ({ fields with extras := some rules }, rest) :=
  once_run unread (fun rules => { fields with extras := some rules })
    (ruleList_run fits shallow within)

theorem member_externals_run (unread : fields.externals = none) {rules : List Rule}
    (fits : ∀ rule ∈ rules, rule.Fits) (shallow : ∀ rule ∈ rules, rule.toJson.depth ≤ levels)
    (within : levels ≤ Json.Reader.depthLimit) :
    (member (levels + 1) fields "externals").run
        (':' :: ' ' :: ((Value.array (rules.map Rule.toJson)).write depth ++ rest)) =
      .ok ({ fields with externals := some rules }, rest) :=
  once_run unread (fun rules => { fields with externals := some rules })
    (ruleList_run fits shallow within)

theorem member_conflicts_run (unread : fields.conflicts = none) (conflicts : List (List String)) :
    (member (levels + 2) fields "conflicts").run
        (':' :: ' ' :: ((Value.array (conflicts.map fun names =>
          .array (names.map Value.string))).write depth ++ rest)) =
      .ok ({ fields with conflicts := some conflicts }, rest) :=
  once_run unread (fun conflicts => { fields with conflicts := some conflicts })
    (conflicts_run conflicts)

end Members

end Reader

/-- The members of the value that stands for a description. -/
def jsonMembers (description : Description) : List (String × Value) :=
  [("name", .string description.name),
    ("rules", .object (description.rules.map fun entry => (entry.1, entry.2.toJson))),
    ("extras", .array (description.extras.map Rule.toJson)),
    ("externals", .array (description.externals.map Rule.toJson)),
    ("conflicts",
      .array (description.conflicts.map fun names => .array (names.map Json.Value.string)))]

/-- Whether all rules of a description are nested to at most the given depth. -/
structure Within (levels : Nat) (description : Description) : Prop where
  /-- The rules are. -/
  rules : ∀ entry ∈ description.rules, entry.2.toJson.depth ≤ levels
  /-- The extras are. -/
  extras : ∀ rule ∈ description.extras, rule.toJson.depth ≤ levels
  /-- The external tokens are. -/
  externals : ∀ rule ∈ description.externals, rule.toJson.depth ≤ levels

theorem within_of_depth {description : Description} {levels : Nat}
    (shallow : description.toJson.depth ≤ levels + 2) : description.Within levels := by
  simp only [toJson, Value.depth, Value.depthOfMembers] at shallow
  refine ⟨fun entry member => ?_, fun rule member => ?_, fun rule member => ?_⟩
  · have deepest := Value.depth_le_of_mem_members
      (List.mem_map_of_mem (f := fun entry : String × Rule => (entry.1, entry.2.toJson)) member)
    dsimp only at deepest
    omega
  · have deepest := Value.depth_le_of_mem (List.mem_map_of_mem (f := Rule.toJson) member)
    omega
  · have deepest := Value.depth_le_of_mem (List.mem_map_of_mem (f := Rule.toJson) member)
    omega

/-- All five members are read. -/
theorem Reader.members_run {description : Description} (fits : description.Fits) {levels : Nat}
    (shallow : description.Within (levels + 1)) (within : levels < Json.Reader.depthLimit)
    (depth : Nat) {steps : Nat} (rest : List Char) (enough : 6 ≤ steps) :
    (Reader.members (levels + 2) .empty true steps).run
        (Json.lines '\x7d' depth rest true
          (description.jsonMembers.map (Value.writeMember (depth + 1)))) =
      .ok (⟨some description.name, some description.rules, some description.extras,
        some description.externals, some description.conflicts⟩, '\x7d' :: rest) := by
  obtain ⟨left, rfl⟩ := Nat.exists_eq_add_of_le' enough
  refine (members_run_cons true (left + 5) (member_name_run rfl _)).trans ?_
  refine (members_run_cons false (left + 4)
    (member_rules_run rfl fits.rules fits.distinct shallow.rules within)).trans ?_
  refine (members_run_cons false (left + 3)
    (member_extras_run rfl fits.extras shallow.extras within)).trans ?_
  refine (members_run_cons false (left + 2)
    (member_externals_run rfl fits.externals shallow.externals within)).trans ?_
  refine (members_run_cons false (left + 1) (member_conflicts_run rfl _)).trans ?_
  exact members_run_nil _ left

/-- A description is read by its reader. -/
theorem Reader.description_run {description : Description} (fits : description.Fits)
    (shallow : description.toJson.depth ≤ Json.Reader.depthLimit) (rest : List Char) :
    Reader.description.run (description.toJson.write 0 ++ rest) = .ok (description, rest) := by
  have written : description.toJson.write 0 ++ rest =
      '\x7b' :: Json.lines '\x7d' 0 rest true
        (description.jsonMembers.map (Value.writeMember 1)) :=
    Value.write_object_append 0 description.jsonMembers rest
  have five : (description.jsonMembers.map (Value.writeMember 1)).length = 5 := rfl
  have enough : 5 < (Json.lines '\x7d' 0 rest true
      (description.jsonMembers.map (Value.writeMember 1))).length :=
    five ▸ Json.Reader.length_lt_length_lines true
  have members := Reader.members_run fits (within_of_depth shallow)
    (by decide : 124 < Json.Reader.depthLimit) 0 rest (enough.trans (Nat.lt_succ_self _))
  rw [written, Reader.description, Json.Reader.run_bind _ (Json.Reader.run_peek_cons (by decide)),
    if_pos rfl, Json.Reader.run_bind _ (Json.Reader.run_skip _),
    Json.Reader.run_bind _ Json.Reader.run_budget]
  exact Json.Reader.run_bind _ members

/-- A description is read from its text. -/
theorem read_render {description : Description} (fits : description.Fits)
    (shallow : description.toJson.depth < 128) : read description.render = .ok description := by
  have found := Reader.description_run fits (Nat.le_of_lt_succ shallow) []
  rw [List.append_nil] at found
  rw [read, render, Json.Value.render, String.toList_ofList, StateT.run_bind, found]
  rfl

/-- Escapes, flags that are missing or empty and the least precedence are all kept. -/
theorem read_render_signed :
    let rule := Rule.precedence (.static (some .left)) (-2147483648)
      (.seq [.string "\"\\\n\x01é", .pattern "a|b" (some ""), .pattern "c" none])
    let description : Description :=
      ⟨"signed", [("sum", rule), ("other", .choice [.blank, .symbol "sum"])], [], [.symbol "indent"],
        [["sum", "other"], []]⟩
    description.Fits ∧ description.toJson.depth < 128 ∧
      read description.render = .ok description := by
  intro rule description
  have fits : description.Fits := by
    refine ⟨by decide, ?_, ?_, ?_⟩
    · have sum : rule.Fits :=
        .precedence _ (by decide) (by decide)
          (.seq (by simp [Rule.Fits.string, Rule.Fits.pattern]))
      have other : (Rule.choice [.blank, .symbol "sum"]).Fits :=
        .choice (by simp [Rule.Fits.blank, Rule.Fits.symbol])
      simp [description, sum, other]
    · simp [description]
    · simp [description, Rule.Fits.symbol]
  have shallow : description.toJson.depth < 128 := by decide
  exact ⟨fits, shallow, read_render fits shallow⟩

end Description

end IncrementalGlr
