import IncrementalGlr.Json.Reader
import IncrementalGlr.Rule.Basic

/-!
# Rules in JSON

A rule is an object with a member `type` and one member for each of its parts.  It may also be
written as an array of the same values without their keys.
-/

namespace IncrementalGlr

namespace Rule

/-- The kinds of rules, as the member `type` tells them apart. -/
inductive Tag
  /-- The empty text. -/
  | blank
  /-- A fixed text. -/
  | string
  /-- A regular expression. -/
  | pattern
  /-- A reference to a rule. -/
  | symbol
  /-- A sequence. -/
  | seq
  /-- A choice. -/
  | choice
  /-- A repetition. -/
  | repetition (atLeastOnce : Bool)
  /-- A precedence. -/
  | precedence (kind : PrecedenceKind)
  /-- A token. -/
  | token (immediate : Bool)
  /-- A field. -/
  | field
  /-- Another name. -/
  | aliased
  deriving DecidableEq, Inhabited

namespace Tag

/-- Every kind with its name, in order. -/
def names : List (String × Tag) :=
  [("BLANK", blank), ("STRING", string), ("PATTERN", pattern), ("SYMBOL", symbol), ("SEQ", seq),
    ("CHOICE", choice), ("REPEAT", repetition false), ("REPEAT1", repetition true),
    ("PREC", precedence (.static none)), ("PREC_LEFT", precedence (.static (some .left))),
    ("PREC_RIGHT", precedence (.static (some .right))), ("PREC_DYNAMIC", precedence .dynamic),
    ("TOKEN", token false), ("IMMEDIATE_TOKEN", token true), ("FIELD", field), ("ALIAS", aliased)]

/-- The kind of a name. -/
def ofName? (name : String) : Option Tag :=
  (names.find? fun entry => entry.1 == name).map Prod.snd

/-- The kind that a value stands for: a name, or the position of one. -/
def ofValue? : Json.Value → Option Tag
  | .string name => ofName? name
  | .int value => if 0 ≤ value then (names[value.toNat]?).map Prod.snd else none
  | _ => none

/-- The name of a kind. -/
def name (tag : Tag) : String := ((names.find? fun entry => entry.2 == tag).map Prod.fst).getD ""

/-- The parts of rules of a kind, in order. -/
def parts : Tag → List String
  | blank => []
  | string => ["value"]
  | pattern => ["value", "flags"]
  | symbol => ["name"]
  | seq => ["members"]
  | choice => ["members"]
  | repetition _ => ["content"]
  | precedence _ => ["value", "content"]
  | token _ => ["content"]
  | field => ["name", "content"]
  | aliased => ["value", "named", "content"]

end Tag

/-! ## Writing -/

/-- The value of a rule with its kind and its parts. -/
def tagged (tag : Tag) (parts : List (String × Json.Value)) : Json.Value :=
  .object (("type", .string tag.name) :: parts)

mutual

/-- The value that stands for a rule. -/
def toJson : Rule → Json.Value
  | blank => tagged .blank []
  | string value => tagged .string [("value", .string value)]
  | pattern value none => tagged .pattern [("value", .string value)]
  | pattern value (some flags) =>
    tagged .pattern [("value", .string value), ("flags", .string flags)]
  | symbol name => tagged .symbol [("name", .string name)]
  | seq members => tagged .seq [("members", .array (toJsonAll members))]
  | choice members => tagged .choice [("members", .array (toJsonAll members))]
  | repetition atLeastOnce content =>
    tagged (.repetition atLeastOnce) [("content", content.toJson)]
  | precedence kind value content =>
    tagged (.precedence kind) [("value", .int value), ("content", content.toJson)]
  | token immediate content => tagged (.token immediate) [("content", content.toJson)]
  | field name content => tagged .field [("name", .string name), ("content", content.toJson)]
  | aliased value named content =>
    tagged .aliased
      [("value", .string value), ("named", .bool named), ("content", content.toJson)]

/-- The values that stand for the rules of a list. -/
def toJsonAll : List Rule → List Json.Value
  | [] => []
  | rule :: rest => rule.toJson :: toJsonAll rest

end

/-! ## Reading -/

/-- The parts of a rule as they are written. -/
inductive Parts
  /-- Values with keys. -/
  | keyed (members : List (String × Json.Value))
  /-- Values in the order of the parts. -/
  | listed (items : List Json.Value)

namespace Parts

/-- The value of each part of the given names, if it is there; keys must not be repeated and there
must be no more values than parts. -/
def lookup (names : List String) : Parts → Option (List (Option Json.Value))
  | keyed members =>
    names.mapM fun name =>
      match members.filter fun member => member.1 == name with
      | [] => some none
      | [(_, value)] => some (some value)
      | _ => none
  | listed items =>
    if names.length < items.length then none
    else some ((List.range names.length).map fun index => items[index]?)

end Parts

/-- The kind and the parts of a rule that is written as a value. -/
def partsOf? : Json.Value → Option (Tag × Parts)
  | .object members =>
    match members.filter fun member => member.1 == "type" with
    | [(_, tag)] =>
      (Tag.ofValue? tag).map fun tag =>
        (tag, .keyed (members.filter fun member => member.1 != "type"))
    | _ => none
  | .array (tag :: items) => (Tag.ofValue? tag).map fun tag => (tag, .listed items)
  | _ => none

/-- A string. -/
def stringOf? : Option Json.Value → Option String
  | some (.string value) => some value
  | _ => none

/-- A string that may be missing. -/
def optionalStringOf? : Option Json.Value → Option (Option String)
  | none => some none
  | some .null => some none
  | some (.string value) => some (some value)
  | _ => none

/-- A truth value. -/
def boolOf? : Option Json.Value → Option Bool
  | some (.bool value) => some value
  | _ => none

/-- An integer of 32 bits. -/
def intOf? : Option Json.Value → Option Int
  | some (.int value) => if -Int.pow 2 31 ≤ value ∧ value < Int.pow 2 31 then some value else none
  | _ => none

/-- The items of an array. -/
def itemsOf? : Option Json.Value → Option (List Json.Value)
  | some (.array items) => some items
  | _ => none

mutual

/-- The rule of a kind with the given parts, nested to at most the given depth. -/
def ofParts? : Nat → Tag → Parts → Option Rule
  | 0, _, _ => none
  | depth + 1, tag, parts => do
    let values ← parts.lookup tag.parts
    match tag, values with
    | .blank, _ => return blank
    | .string, [value] => return string (← stringOf? value)
    | .pattern, [value, flags] => return pattern (← stringOf? value) (← optionalStringOf? flags)
    | .symbol, [name] => return symbol (← stringOf? name)
    | .seq, [members] => return seq (← (← itemsOf? members).mapM (ofValue? depth))
    | .choice, [members] => return choice (← (← itemsOf? members).mapM (ofValue? depth))
    | .repetition atLeastOnce, [content] =>
      return repetition atLeastOnce (← ofValue? depth (← content))
    | .precedence kind, [value, content] =>
      return precedence kind (← intOf? value) (← ofValue? depth (← content))
    | .token immediate, [content] => return token immediate (← ofValue? depth (← content))
    | .field, [name, content] => return field (← stringOf? name) (← ofValue? depth (← content))
    | .aliased, [value, named, content] =>
      return aliased (← stringOf? value) (← boolOf? named) (← ofValue? depth (← content))
    | _, _ => none

/-- The rule that a value stands for, nested to at most the given depth. -/
def ofValue? : Nat → Json.Value → Option Rule
  | 0, _ => none
  | depth + 1, value => do
    let (tag, parts) ← partsOf? value
    ofParts? depth tag parts

end

/-- Greatest depth of the rules that are read: no deeper rule fits the nesting of JSON. -/
def depthLimit : Nat := 2 * Json.Reader.depthLimit + 2

namespace Reader

open Json (Reader)
open Json.Reader

/-- The kind of a rule, given by its name. -/
def tag : Reader Tag := do
  match Tag.ofName? (← Json.Reader.string) with
  | some tag => return tag
  | none => mismatch

/-- The members of a rule up to the closing brace, which is left: the kind as soon as its member
is found, and all other members. -/
def members (levels : Nat) (found : Option Tag) (isFirst : Bool) :
    Nat → Reader (Option Tag × List (String × Json.Value))
  | 0 => malformed
  | steps + 1 => do
    if ← more '\x7d' isFirst then
      let name ← key
      if name = "type" then
        if found.isSome then mismatch
        colon
        let tag ← tag
        members levels (some tag) false steps
      else
        colon
        let content ← value levels (← budget)
        let (found, rest) ← members levels found false steps
        return (found, (name, content) :: rest)
    else return (found, [])

/-- The rule of a kind with the given parts. -/
def ofParts (tag : Tag) (parts : Parts) : Reader Rule :=
  match ofParts? depthLimit tag parts with
  | some rule => return rule
  | none => mismatch

/-- A rule below the given number of further levels of nesting.  Its text is read to the end
before its parts are looked at, its kind excepted. -/
def rule (levels : Nat) : Reader Rule := do
  let c ← peek
  if c = '\x7b' then
    if levels = 0 then malformed
    skip
    let (found, members) ← members (levels - 1) none true (← budget)
    match found with
    | none => mismatch
    | some tag =>
      skip
      ofParts tag (.keyed members)
  else if c = '[' then
    if levels = 0 then malformed
    skip
    if !(← more ']' true) then mismatch
    let tag ← tag
    let items ← items (levels - 1) false (← budget)
    skip
    ofParts tag (.listed items)
  else refuse

end Reader

end Rule

end IncrementalGlr
