import IncrementalGlr.Description.Basic
import IncrementalGlr.Rule.Json

/-!
# Descriptions in JSON

A description is an object with the members `name`, `rules`, `extras`, `externals` and `conflicts`,
of which only the first two are required.  Other members are ignored.  It may also be written as an
array of the same values in that order.
-/

namespace IncrementalGlr

namespace Description

/-- The value that stands for a description. -/
def toJson (description : Description) : Json.Value :=
  .object
    [("name", .string description.name),
      ("rules", .object (description.rules.map fun entry => (entry.1, entry.2.toJson))),
      ("extras", .array (description.extras.map Rule.toJson)),
      ("externals", .array (description.externals.map Rule.toJson)),
      ("conflicts",
        .array (description.conflicts.map fun names => .array (names.map Json.Value.string)))]

/-- The text of a description. -/
def render (description : Description) : String := description.toJson.render

/-- The parts of a description that have been read. -/
structure Fields where
  /-- The name of the language. -/
  name : Option String
  /-- The rules. -/
  rules : Option (List (String × Rule))
  /-- The extras. -/
  extras : Option (List Rule)
  /-- The external tokens. -/
  externals : Option (List Rule)
  /-- The intended conflicts. -/
  conflicts : Option (List (List String))
  deriving Inhabited

namespace Fields

/-- Nothing read. -/
def empty : Fields := ⟨none, none, none, none, none⟩

/-- The description of the parts, unless a required one is missing. -/
def finish? (fields : Fields) : Option Description := do
  return ⟨← fields.name, ← fields.rules, fields.extras.getD defaultExtras,
    fields.externals.getD [], fields.conflicts.getD []⟩

end Fields

namespace Reader

open Json (Reader)
open Json.Reader

/-- The rules up to the closing brace, which is left, after those already read.  For a repeated
name the last rule is kept in the first place. -/
def ruleMembers (levels : Nat) (rules : List (String × Rule)) (isFirst : Bool) :
    Nat → Reader (List (String × Rule))
  | 0 => malformed
  | steps + 1 => do
    if ← more '\x7d' isFirst then
      let name ← key
      colon
      let rule ← Rule.Reader.rule levels
      ruleMembers levels (setRule name rule rules) false steps
    else return rules

/-- The rules by name. -/
def rules (levels : Nat) : Reader (List (String × Rule)) := do
  if (← peek) = '\x7b' then
    if levels = 0 then malformed
    skip
    let rules ← ruleMembers (levels - 1) [] true (← budget)
    skip
    return rules
  else refuse

/-- A list of rules. -/
def ruleList (levels : Nat) : Reader (List Rule) :=
  list levels (Rule.Reader.rule (levels - 1))

/-- A list of lists of names. -/
def conflicts (levels : Nat) : Reader (List (List String)) :=
  list levels (list (levels - 1) string)

/-- Refuses a member that has been read before. -/
def once {α : Type} (before : Option α) : Reader Unit :=
  if before.isSome then mismatch else return

/-- Reads the member of a key. -/
def member (levels : Nat) (fields : Fields) (name : String) : Reader Fields := do
  match name with
  | "name" => do
    once fields.name
    colon
    return { fields with name := some (← string) }
  | "rules" => do
    once fields.rules
    colon
    return { fields with rules := some (← rules levels) }
  | "extras" => do
    once fields.extras
    colon
    return { fields with extras := some (← ruleList levels) }
  | "externals" => do
    once fields.externals
    colon
    return { fields with externals := some (← ruleList levels) }
  | "conflicts" => do
    once fields.conflicts
    colon
    return { fields with conflicts := some (← conflicts levels) }
  | _ => do
    colon
    ignore (← budget)
    return fields

/-- The members up to the closing brace, which is left. -/
def members (levels : Nat) (fields : Fields) (isFirst : Bool) : Nat → Reader Fields
  | 0 => malformed
  | steps + 1 => do
    if ← more '\x7d' isFirst then
      let fields ← member levels fields (← key)
      members levels fields false steps
    else return fields

/-- A part that is written without its key, if the list of parts has not ended. -/
def part? {α : Type} (item : Reader α) (isFirst hasEnded : Bool) : Reader (Option α) := do
  if hasEnded then return none
  else if ← more ']' isFirst then some <$> item
  else return none

/-- The parts in order, up to the closing bracket, which is left. -/
def listedFields (levels : Nat) : Reader Fields := do
  let name ← part? string true false
  if name.isNone then mismatch
  let rules ← part? (rules levels) false false
  if rules.isNone then mismatch
  let extras ← part? (ruleList levels) false false
  let externals ← part? (ruleList levels) false extras.isNone
  let conflicts ← part? (conflicts levels) false externals.isNone
  return ⟨name, rules, extras, externals, conflicts⟩

/-- The description of the parts read. -/
def finishFields (fields : Fields) : Reader Description :=
  match fields.finish? with
  | some description => return description
  | none => mismatch

/-- A description. -/
def description : Reader Description := do
  let c ← peek
  if c = '\x7b' then
    skip
    let fields ← members (depthLimit - 1) .empty true (← budget)
    let description ← finishFields fields
    skip
    return description
  else if c = '[' then
    skip
    let description ← finishFields (← listedFields (depthLimit - 1))
    if (← peek) ≠ ']' then malformed
    skip
    return description
  else refuse

end Reader

/-- The description that a text holds. -/
def read (text : String) : Except Json.ReadError Description := do
  let (description, _) ← (do
    let description ← Reader.description
    Json.Reader.finish
    return description).run text.toList
  return description

end Description

end IncrementalGlr
