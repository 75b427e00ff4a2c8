import IncrementalGlr.Grammar.LoadError
import IncrementalGlr.Rule.Basic

/-!
# Descriptions of grammars

A grammar as its author writes it: named rules, extras, external tokens and declared conflicts.
-/

namespace IncrementalGlr

/-- A grammar as its author writes it. -/
structure Description where
  /-- Name of the language. -/
  name : String
  /-- The rules by name; the first one describes whole texts.  No name occurs twice. -/
  rules : List (String × Rule)
  /-- Tokens that may stand anywhere. -/
  extras : List Rule
  /-- Tokens that an external scanner finds. -/
  externals : List Rule
  /-- Sets of rules whose conflicts are intended. -/
  conflicts : List (List String)
  deriving BEq, Inhabited

namespace Description

/-- The extras of a description that names none: white space. -/
def defaultExtras : List Rule := [.pattern "\\s+" none]

/-- A description without rules. -/
def empty (name : String) : Description := ⟨name, [], defaultExtras, [], []⟩

/-- Gives a name its rule.  A name that has one already keeps its place. -/
def setRule (name : String) (rule : Rule) : List (String × Rule) → List (String × Rule)
  | [] => [(name, rule)]
  | entry :: rest =>
    if entry.1 == name then (name, rule) :: rest else entry :: setRule name rule rest

/-- Adds a rule. -/
def addRule (description : Description) (name : String) (rule : Rule) : Description :=
  { description with rules := setRule name rule description.rules }

end Description

/-! ## Defects of descriptions

Every reason for which a description cannot be compiled, with the words in which it is reported. -/

/-- What is wrong with a token. -/
inductive TokenDefect
  /-- The token refers to another rule. -/
  | refersToRule
  /-- The token is none of those collected from the rules. -/
  | notCollected
  deriving DecidableEq, Inhabited

namespace TokenDefect

/-- The defect in words. -/
def message : TokenDefect → String
  | refersToRule => "tokens cannot refer to other rules"
  | notCollected => "token was not collected"

end TokenDefect

/-- What there can be too many of. -/
inductive Quantity
  /-- Symbols of the grammar. -/
  | symbols
  /-- States of the parse table. -/
  | parseStates
  /-- Symbols on the right-hand side of a production. -/
  | children
  /-- Productions of the grammar. -/
  | productions
  deriving DecidableEq, Inhabited

namespace Quantity

/-- The word for a quantity. -/
def name : Quantity → String
  | symbols => "symbols"
  | parseStates => "parse states"
  | children => "children"
  | productions => "productions"

end Quantity

/-- Why a description cannot be compiled. -/
inductive CompileError
  /-- There is no rule. -/
  | noRules (grammar : String)
  /-- A rule refers to a name that no rule has. -/
  | undefinedSymbol (name rule : String)
  /-- A token of a rule has no pattern. -/
  | invalidToken (rule : String) (defect : TokenDefect)
  /-- An extra is no token. -/
  | unsupportedExtra (rule : Rule)
  /-- An external token is given by something other than a name or a text. -/
  | unsupportedExternal (rule : Rule)
  /-- The table has no room for so many. -/
  | tooLarge (quantity : Quantity) (count : Nat)
  /-- The table is refused. -/
  | load (error : LoadError)
  deriving BEq, Inhabited

namespace CompileError

/-- An extra as error messages show it. -/
def describeExtra : Rule → String
  | .symbol name => name
  | rule => rule.describe

/-- The error in words. -/
def message : CompileError → String
  | noRules grammar => "grammar `" ++ grammar ++ "` has no rules"
  | undefinedSymbol name rule =>
    "rule `" ++ rule ++ "` refers to undefined symbol `" ++ name ++ "`"
  | invalidToken rule defect => "invalid token in rule `" ++ rule ++ "`: " ++ defect.message
  | unsupportedExtra rule => "extra `" ++ describeExtra rule ++ "` must be a token"
  | unsupportedExternal rule =>
    "external `" ++ rule.describe ++ "` must be a symbol or a string"
  | tooLarge quantity count =>
    "grammar needs " ++ toString count ++ " " ++ quantity.name ++
      ", more than the table format allows"
  | load error => "generated table does not load: " ++ error.message

end CompileError

end IncrementalGlr
