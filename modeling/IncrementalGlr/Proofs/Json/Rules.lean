import IncrementalGlr.Proofs.Json.Values
import IncrementalGlr.Rule.Json

/-!
# Reading rules as they are written

A rule is written as its kind with its parts.  Both are found again, whatever the kind, and the parts
give back the rule.
-/

namespace IncrementalGlr

namespace Rule

open Json (Value)

/-- Whether all precedences in a rule are integers of 32 bits. -/
inductive Fits : Rule → Prop
  | blank : Fits .blank
  | string (value : String) : Fits (.string value)
  | pattern (value : String) (flags : Option String) : Fits (.pattern value flags)
  | symbol (name : String) : Fits (.symbol name)
  | seq {members : List Rule} (inner : ∀ member ∈ members, Fits member) : Fits (.seq members)
  | choice {members : List Rule} (inner : ∀ member ∈ members, Fits member) :
    Fits (.choice members)
  | repetition (atLeastOnce : Bool) {content : Rule} (inner : Fits content) :
    Fits (.repetition atLeastOnce content)
  | precedence (kind : PrecedenceKind) {value : Int} {content : Rule} (lower : -2 ^ 31 ≤ value)
    (upper : value < 2 ^ 31) (inner : Fits content) : Fits (.precedence kind value content)
  | token (immediate : Bool) {content : Rule} (inner : Fits content) :
    Fits (.token immediate content)
  | field (name : String) {content : Rule} (inner : Fits content) : Fits (.field name content)
  | aliased (value : String) (named : Bool) {content : Rule} (inner : Fits content) :
    Fits (.aliased value named content)

/-- The kind of a rule. -/
def kind : Rule → Tag
  | blank => .blank
  | string _ => .string
  | pattern .. => .pattern
  | symbol _ => .symbol
  | seq _ => .seq
  | choice _ => .choice
  | repetition atLeastOnce _ => .repetition atLeastOnce
  | precedence kind .. => .precedence kind
  | token immediate _ => .token immediate
  | field .. => .field
  | aliased .. => .aliased

/-- The parts of a rule as they are written. -/
def parts : Rule → List (String × Value)
  | blank => []
  | string value => [("value", .string value)]
  | pattern value none => [("value", .string value)]
  | pattern value (some flags) => [("value", .string value), ("flags", .string flags)]
  | symbol name => [("name", .string name)]
  | seq members => [("members", .array (members.map toJson))]
  | choice members => [("members", .array (members.map toJson))]
  | repetition _ content => [("content", content.toJson)]
  | precedence _ value content => [("value", .int value), ("content", content.toJson)]
  | token _ content => [("content", content.toJson)]
  | field name content => [("name", .string name), ("content", content.toJson)]
  | aliased value named content =>
    [("value", .string value), ("named", .bool named), ("content", content.toJson)]

theorem toJsonAll_eq (rules : List Rule) : toJsonAll rules = rules.map toJson := by
  induction rules with
  | nil => rfl
  | cons rule rules induction => rw [toJsonAll, induction, List.map_cons]

theorem toJson_eq (rule : Rule) : rule.toJson = tagged rule.kind rule.parts := by
  cases rule with
  | pattern value flags => cases flags <;> rfl
  | seq members => rw [toJson, toJsonAll_eq, kind, parts]
  | choice members => rw [toJson, toJsonAll_eq, kind, parts]
  | _ => rfl

/-- No part has the key of the kind. -/
theorem ne_type_of_mem_parts (rule : Rule) : ∀ part ∈ rule.parts, part.1 ≠ "type" := by
  cases rule with
  | pattern value flags => cases flags <;> simp [parts]
  | _ => simp [parts]

theorem ofName?_name (tag : Tag) : Tag.ofName? tag.name = some tag := by
  rcases tag with _ | _ | _ | _ | _ | _ | (_ | _) | ((_ | _ | _) | _) | (_ | _) | _ | _
  all_goals rfl

/-! ## Values -/

section Values

variable {levels : Nat}

theorem readable_tagged (tag : Tag) {parts : List (String × Value)}
    (readable : ∀ part ∈ parts, part.2.Readable levels) :
    (tagged tag parts).Readable (levels + 1) := by
  refine .object fun member inside => ?_
  obtain rfl | part := List.mem_cons.1 inside
  · exact .string _
  · exact readable member part

theorem depth_tagged (tag : Tag) (parts : List (String × Value)) :
    (tagged tag parts).depth = Value.depthOfMembers parts + 1 := by
  simp [tagged, Value.depth, Value.depthOfMembers]

/-- A rule can be read if its parts can. -/
theorem readable_of_parts {rule : Rule}
    (readable : ∀ {levels : Nat}, Value.depthOfMembers rule.parts ≤ levels →
      ∀ part ∈ rule.parts, part.2.Readable levels)
    (shallow : rule.toJson.depth ≤ levels) : rule.toJson.Readable levels := by
  rw [toJson_eq] at shallow ⊢
  rw [depth_tagged] at shallow
  obtain ⟨inner, rfl⟩ := Nat.exists_eq_add_one_of_ne_zero (Nat.ne_zero_of_lt shallow)
  exact readable_tagged rule.kind (readable (Nat.le_of_succ_le_succ shallow))

/-- Several rules can be read if their parts can. -/
theorem readable_array {rules : List Rule}
    (readable : ∀ rule ∈ rules, ∀ {levels : Nat}, Value.depthOfMembers rule.parts ≤ levels →
      ∀ part ∈ rule.parts, part.2.Readable levels)
    (shallow : (Value.array (rules.map toJson)).depth ≤ levels) :
    (Value.array (rules.map toJson)).Readable levels := by
  rw [Value.depth] at shallow
  obtain ⟨inner, rfl⟩ := Nat.exists_eq_add_one_of_ne_zero (Nat.ne_zero_of_lt shallow)
  refine .array fun item inside => ?_
  obtain ⟨rule, member, rfl⟩ := List.mem_map.1 inside
  have bounded := (Value.depth_le_of_mem inside).trans (Nat.le_of_succ_le_succ shallow)
  exact readable_of_parts (readable rule member) bounded

/-- The parts of a rule that is not nested too deeply can be read. -/
theorem Fits.readable_parts {rule : Rule} (fits : rule.Fits)
    (shallow : Value.depthOfMembers rule.parts ≤ levels) :
    ∀ part ∈ rule.parts, part.2.Readable levels := by
  induction fits generalizing levels with
  | pattern value flags => cases flags <;> simp [parts, Value.Readable.string]
  | seq _ readable =>
      simpa [parts] using
        readable_array readable (by simpa [parts, Value.depthOfMembers] using shallow)
  | choice _ readable =>
      simpa [parts] using
        readable_array readable (by simpa [parts, Value.depthOfMembers] using shallow)
  | precedence kind lower upper _ readable =>
      have storable : Json.Reader.Storable _ := ⟨by omega, upper.trans (by decide)⟩
      simpa [parts, Value.Readable.int storable] using
        readable_of_parts readable (by simpa [parts, Value.depthOfMembers, Value.depth] using shallow)
  | blank | string | symbol => simp [parts, Value.Readable.string]
  | repetition _ _ readable | token _ _ readable | field _ _ readable | aliased _ _ _ readable =>
      simpa [parts, Value.Readable.string, Value.Readable.bool] using
        readable_of_parts readable (by simpa [parts, Value.depthOfMembers, Value.depth] using shallow)

/-- The kind and the parts of a rule are found in its value. -/
theorem partsOf?_tagged (tag : Tag) {parts : List (String × Value)}
    (other : ∀ part ∈ parts, part.1 ≠ "type") :
    partsOf? (tagged tag parts) = some (tag, .keyed parts) := by
  have kinds : parts.filter (fun part => part.1 == "type") = [] :=
    List.filter_eq_nil_iff.2 fun part member => by simpa using other part member
  have rest : parts.filter (fun part => part.1 != "type") = parts :=
    List.filter_eq_self.2 fun part member => by simpa using other part member
  simp [tagged, partsOf?, kinds, rest, Tag.ofValue?, ofName?_name]

/-- A rule is found in its value if it is found in its parts. -/
theorem ofValue?_of_ofParts? {rule : Rule}
    (found : ∀ {depth : Nat}, 2 * Value.depthOfMembers rule.parts ≤ depth →
      ofParts? (depth + 1) rule.kind (.keyed rule.parts) = some rule)
    {depth : Nat} (enough : 2 * rule.toJson.depth ≤ depth) :
    ofValue? depth rule.toJson = some rule := by
  rw [toJson_eq] at enough ⊢
  rw [depth_tagged] at enough
  obtain ⟨inner, rfl⟩ : ∃ inner, depth = inner + 2 := ⟨depth - 2, by omega⟩
  rw [ofValue?, partsOf?_tagged rule.kind rule.ne_type_of_mem_parts]
  exact found (by omega)

/-- Several rules are found in their values if they are found in their parts. -/
theorem mapM_ofValue? {rules : List Rule}
    (found : ∀ rule ∈ rules, ∀ {depth : Nat}, 2 * Value.depthOfMembers rule.parts ≤ depth →
      ofParts? (depth + 1) rule.kind (.keyed rule.parts) = some rule)
    {depth : Nat} (enough : 2 * Value.depthOfItems (rules.map toJson) ≤ depth) :
    (rules.map toJson).mapM (ofValue? depth) = some rules := by
  induction rules with
  | nil => rfl
  | cons rule rules induction =>
      simp only [List.forall_mem_cons] at found
      simp only [List.map_cons, Value.depthOfItems] at enough
      rw [List.map_cons, List.mapM_cons, ofValue?_of_ofParts? found.1 (by omega),
        induction found.2 (by omega)]
      rfl

/-- A rule is found in its parts. -/
theorem Fits.found_in_parts {rule : Rule} (fits : rule.Fits) {depth : Nat}
    (enough : 2 * Value.depthOfMembers rule.parts ≤ depth) :
    ofParts? (depth + 1) rule.kind (.keyed rule.parts) = some rule := by
  induction fits generalizing depth with
  | pattern value flags => cases flags <;> rfl
  | seq _ found =>
      simp only [parts, Value.depthOfMembers, Value.depth] at enough
      have members := mapM_ofValue? found (by omega : _ ≤ depth)
      simp [ofParts?, parts, kind, Tag.parts, Parts.lookup, itemsOf?, members]
  | choice _ found =>
      simp only [parts, Value.depthOfMembers, Value.depth] at enough
      have members := mapM_ofValue? found (by omega : _ ≤ depth)
      simp [ofParts?, parts, kind, Tag.parts, Parts.lookup, itemsOf?, members]
  | precedence kind lower upper _ found =>
      simp only [parts, Value.depthOfMembers, Value.depth] at enough
      have content := ofValue?_of_ofParts? found (by omega : _ ≤ depth)
      have small : intOf? (some (.int _)) = some _ := if_pos ⟨lower, upper⟩
      simp [ofParts?, parts, Rule.kind, Tag.parts, Parts.lookup, small, content]
  | blank | string | symbol => rfl
  | repetition _ _ found | token _ _ found | field _ _ found | aliased _ _ _ found =>
      simp only [parts, Value.depthOfMembers, Value.depth] at enough
      have content := ofValue?_of_ofParts? found (by omega : _ ≤ depth)
      simp [ofParts?, parts, kind, Tag.parts, Parts.lookup, stringOf?, boolOf?, content]

end Values

/-! ## Texts -/

namespace Reader

open Json
open Json.Reader

variable {levels : Nat} {rest : List Char}

theorem tag_run (tag : Tag) :
    Reader.tag.run (' ' :: (quote tag.name ++ rest)) = .ok (tag, rest) := by
  rw [Reader.tag, run_bind _ (string_run_blank tag.name), ofName?_name]
  rfl

/-- The parts of a rule are read from their lines, once the kind is known. -/
theorem members_run (tag : Tag) {parts : List (String × Value)}
    (other : ∀ part ∈ parts, part.1 ≠ "type")
    (each : ∀ part ∈ parts, ReadsBack levels part.2) (depth steps : Nat) (rest : List Char)
    (enough : (lines '\x7d' depth rest false
      (parts.map (Value.writeMember (depth + 1)))).length ≤ steps) :
    (members levels (some tag) false steps).run
        (lines '\x7d' depth rest false (parts.map (Value.writeMember (depth + 1)))) =
      .ok ((some tag, parts), '\x7d' :: rest) := by
  induction parts generalizing steps with
  | nil =>
      obtain ⟨left, rfl⟩ := exists_step enough
      rw [members, List.map_nil, run_bind _ (more_run_nil (.inr rfl) false)]
      rfl
  | cons part parts induction =>
      obtain ⟨left, rfl⟩ := exists_step enough
      rw [List.map_cons] at enough ⊢
      simp only [List.forall_mem_cons] at other each
      have shorter := (length_lines_cons false (Value.writeMember (depth + 1) part)).trans_le enough
      have others := induction other.2 each.2 left (by omega)
      rw [members, run_bind _ (more_run_cons (.inr rfl) false (Value.begins_writeMember _ part)),
        if_pos rfl, Value.writeMember_append, run_bind _ (key_run part.1), if_neg other.1,
        run_bind _ colon_run, run_bind _ run_budget,
        run_bind _ (each.1.behind_blank _ _ endsNumber_lines (by simp; omega)),
        run_bind _ others]
      rfl

/-- The kind of a rule is read from the first line, its parts from the other ones. -/
theorem members_run_tagged (tag : Tag) {parts : List (String × Value)}
    (other : ∀ part ∈ parts, part.1 ≠ "type")
    (each : ∀ part ∈ parts, ReadsBack levels part.2) (depth steps : Nat) (rest : List Char)
    (enough : (lines '\x7d' depth rest true
      ((("type", .string tag.name) :: parts).map (Value.writeMember (depth + 1)))).length ≤ steps) :
    (members levels none true steps).run
        (lines '\x7d' depth rest true
          ((("type", .string tag.name) :: parts).map (Value.writeMember (depth + 1)))) =
      .ok ((some tag, parts), '\x7d' :: rest) := by
  obtain ⟨left, rfl⟩ := exists_step enough
  rw [List.map_cons] at enough ⊢
  have shorter := (length_lines_cons true
    (Value.writeMember (depth + 1) ("type", .string tag.name))).trans_le enough
  have others := members_run tag other each depth left rest (by omega)
  rw [members, run_bind _ (more_run_cons (.inr rfl) true (Value.begins_writeMember _ _)),
    if_pos rfl, Value.writeMember_append, run_bind _ (key_run "type"), if_pos rfl]
  simp only [Option.isSome_none, Bool.false_eq_true, if_false, run_bind _ colon_run, Value.write,
    run_bind _ (tag_run tag), others]

/-- A rule is read from its written form. -/
theorem takes_rule {rule : Rule} (fits : rule.Fits) (shallow : rule.toJson.depth ≤ levels)
    (within : levels ≤ Json.Reader.depthLimit) (depth : Nat) :
    Takes (fun _ => Reader.rule levels) (rule.toJson.write depth) rule := by
  intro steps rest _ _
  rw [toJson_eq, depth_tagged] at shallow
  obtain ⟨inner, rfl⟩ := Nat.exists_eq_add_one_of_ne_zero (Nat.ne_zero_of_lt shallow)
  have bounded := Nat.le_of_succ_le_succ shallow
  have each : ∀ part ∈ rule.parts, ReadsBack inner part.2 :=
    fun part member => readsBack_of_readable (fits.readable_parts bounded part member)
  have read := members_run_tagged rule.kind rule.ne_type_of_mem_parts each depth _ rest
    (Nat.le_add_right _ 1)
  have found : Rule.ofParts? Rule.depthLimit rule.kind (.keyed rule.parts) = some rule :=
    fits.found_in_parts (by unfold Json.Reader.depthLimit at *; omega)
  rw [toJson_eq, tagged, Value.write_object_append, Reader.rule,
    run_bind _ (run_peek_cons (by decide)), if_pos rfl]
  simp only [Nat.add_one_ne_zero, if_false, Nat.add_sub_cancel, run_bind _ (run_skip _),
    run_bind _ run_budget, run_bind _ read]
  rw [ofParts, found]
  rfl

/-- A rule is also read behind the blank that follows a colon. -/
theorem rule_run_blank {rule : Rule} (fits : rule.Fits) (shallow : rule.toJson.depth ≤ levels)
    (within : levels ≤ Json.Reader.depthLimit) (depth : Nat) (ends : EndsNumber rest) :
    (Reader.rule levels).run (' ' :: (rule.toJson.write depth ++ rest)) = .ok (rule, rest) := by
  have same : (Reader.rule levels).run (' ' :: (rule.toJson.write depth ++ rest)) =
      (Reader.rule levels).run (rule.toJson.write depth ++ rest) := run_peek_blank _ (by decide)
  rw [same]
  exact takes_rule fits shallow within depth _ ends le_rfl

end Reader

end Rule

end IncrementalGlr
