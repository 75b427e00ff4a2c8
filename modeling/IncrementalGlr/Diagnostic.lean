import IncrementalGlr.Text.Basic

/-!
# Diagnostics

A message about a range of a text, and its rendering with the line in which the range stands.
-/

namespace IncrementalGlr

/-- How grave a message is. -/
inductive Severity
  /-- The text is wrong. -/
  | error
  /-- Something else went wrong. -/
  | warning
  deriving DecidableEq, Inhabited

/-- A message about a range of a text. -/
structure Diagnostic where
  /-- The message. -/
  message : String
  /-- The range it is about. -/
  range : Span
  /-- How grave it is. -/
  severity : Severity
  deriving DecidableEq, Inhabited

namespace Severity

/-- The word for a severity. -/
def name : Severity → String
  | error => "error"
  | warning => "warning"

/-- The character that underlines a range. -/
def underline : Severity → Char
  | error => '^'
  | warning => '-'

end Severity

namespace Diagnostic

/-- Spaces. -/
def blank (count : Nat) : String := String.ofList (List.replicate count ' ')

/-- The message with the line of its range, in which the range is underlined.  An empty range is
shown like one character. -/
def render (diagnostic : Diagnostic) (path : String) (text : Text) : String :=
  let place := text.pointAt diagnostic.range.start
  let number := toString (place.row + 1)
  let margin := blank number.length
  let line := (text.lines[place.row]?).getD ""
  let marks := List.replicate (max 1 diagnostic.range.length) diagnostic.severity.underline
  "\n".intercalate
    [diagnostic.severity.name ++ ": " ++ diagnostic.message,
      margin ++ "--> " ++ path ++ ":" ++ number ++ ":" ++ toString (place.column + 1),
      margin ++ " |",
      number ++ " | " ++ line,
      margin ++ " | " ++ blank place.column ++ String.ofList marks ++ " here",
      margin ++ " |"]

end Diagnostic

end IncrementalGlr
