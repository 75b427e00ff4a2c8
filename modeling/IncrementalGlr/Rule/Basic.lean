import IncrementalGlr.Text.Quoted

/-!
# Rules of grammars

The expressions with which grammars describe their symbols.
-/

namespace IncrementalGlr

/-- Which reading of equal precedence wins: the one that groups to the left or to the right. -/
inductive Associativity
  /-- Group to the left. -/
  | left
  /-- Group to the right. -/
  | right
  deriving DecidableEq, Inhabited

/-- What a precedence decides. -/
inductive PrecedenceKind
  /-- Conflicts of the parse table and ties between tokens. -/
  | static (associativity : Option Associativity)
  /-- The choice among readings of a text. -/
  | dynamic
  deriving DecidableEq, Inhabited

/-- A rule expression. -/
inductive Rule
  /-- The empty text. -/
  | blank
  /-- Exactly the given text. -/
  | string (value : String)
  /-- Text that a regular expression matches, under flags of its own. -/
  | pattern (value : String) (flags : Option String)
  /-- What the rule of the given name describes. -/
  | symbol (name : String)
  /-- All members one after the other. -/
  | seq (members : List Rule)
  /-- Any one of the members. -/
  | choice (members : List Rule)
  /-- Any number of times the content, or at least once. -/
  | repetition (atLeastOnce : Bool) (content : Rule)
  /-- The content with a precedence. -/
  | precedence (kind : PrecedenceKind) (value : Int) (content : Rule)
  /-- The content as one token; an immediate token directly follows the one before. -/
  | token (immediate : Bool) (content : Rule)
  /-- The content under a name for its part in the whole. -/
  | field (name : String) (content : Rule)
  /-- The content under another name in trees. -/
  | aliased (value : String) (named : Bool) (content : Rule)
  deriving BEq, Inhabited

namespace Rule

/-- The rule or the empty text. -/
def optional (rule : Rule) : Rule := choice [rule, blank]

/-- The rule without wrappers that have no bearing on what text it describes. -/
def unwrap : Rule → Rule
  | precedence _ _ content => content.unwrap
  | field _ content => content.unwrap
  | rule => rule

/-- Whether the rule describes a token rather than a sequence of symbols. -/
def isToken (rule : Rule) : Bool :=
  match rule.unwrap with
  | string _ => true
  | pattern .. => true
  | token .. => true
  | _ => false

/-- The word for a kind of precedence. -/
def precedenceName : PrecedenceKind → String
  | .static none => "Prec"
  | .static (some .left) => "PrecLeft"
  | .static (some .right) => "PrecRight"
  | .dynamic => "PrecDynamic"

/-- Named parts between braces. -/
def describeParts (name : String) (parts : List (String × String)) : String :=
  name ++ " \x7b " ++ ", ".intercalate (parts.map fun (key, text) => key ++ ": " ++ text) ++
    " \x7d"

mutual

/-- The rule in full, as error messages show it. -/
def describe : Rule → String
  | blank => "Blank"
  | string value => describeParts "String" [("value", Quoted.ofString value)]
  | pattern value none =>
    describeParts "Pattern" [("value", Quoted.ofString value), ("flags", "None")]
  | pattern value (some flags) =>
    describeParts "Pattern"
      [("value", Quoted.ofString value), ("flags", "Some(" ++ Quoted.ofString flags ++ ")")]
  | symbol name => describeParts "Symbol" [("name", Quoted.ofString name)]
  | seq members =>
    describeParts "Seq" [("members", "[" ++ ", ".intercalate (describeAll members) ++ "]")]
  | choice members =>
    describeParts "Choice" [("members", "[" ++ ", ".intercalate (describeAll members) ++ "]")]
  | repetition atLeastOnce content =>
    describeParts (if atLeastOnce then "Repeat1" else "Repeat") [("content", content.describe)]
  | precedence kind value content =>
    describeParts (precedenceName kind)
      [("value", toString value), ("content", content.describe)]
  | token immediate content =>
    describeParts (if immediate then "ImmediateToken" else "Token")
      [("content", content.describe)]
  | field name content =>
    describeParts "Field" [("name", Quoted.ofString name), ("content", content.describe)]
  | aliased value named content =>
    describeParts "Alias"
      [("value", Quoted.ofString value), ("named", toString named),
        ("content", content.describe)]

/-- Every rule of a list in full. -/
def describeAll : List Rule → List String
  | [] => []
  | rule :: rest => rule.describe :: describeAll rest

end

end Rule

end IncrementalGlr
