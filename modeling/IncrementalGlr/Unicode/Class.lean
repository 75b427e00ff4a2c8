import IncrementalGlr.Unicode.Category
import IncrementalGlr.Unicode.Property

/-!
# Classes of characters

Binary properties, and the classes of characters that patterns, queries and quoted output refer to.
-/

namespace IncrementalGlr

/-! ## Binary properties

A binary property either holds of a code point or does not.  A table for each group of related
properties lists the code points.
-/

namespace Unicode

namespace Property

/-- Every property: its names in lower case and without separators, and its code points. -/
def table : List (List String × List String) :=
  Letter.table ++ Identifier.table ++ Mark.table ++ Emoji.table ++ Symbol.table

/-- The code points with the property of a name, which is in lower case and without separators. -/
def ranges? (name : String) : Option (List (Nat × Nat)) := rangesNamed? table name

end Property

end Unicode

/-! ## Character classes

The classes of characters that patterns, queries and quoted output refer to.
-/

namespace Unicode

/-- Whether ranges in ascending order contain a code point. -/
def isIn (point : Nat) : List (Nat × Nat) → Bool
  | [] => false
  | (first, last) :: rest => first ≤ point && (point ≤ last || isIn point rest)

/-- Decimal digits of all scripts. -/
def digitRanges : List (Nat × Nat) := Category.select (· == "Nd")

/-- Characters with the property of white space. -/
def spaceRanges : List (Nat × Nat) := (Property.ranges? "whitespace").getD []

/-- Alphabetic characters. -/
def alphabeticRanges : List (Nat × Nat) := (Property.ranges? "alphabetic").getD []

/-- Characters that connect or modify the ones before them in a word. -/
def joiningRanges : List (Nat × Nat) :=
  Category.select fun label => Category.isIn "M" label || label == "Nd" || label == "Pc"

/-- Zero-width characters that join letters. -/
def joinControlRanges : List (Nat × Nat) := (Property.ranges? "joincontrol").getD []

/-- Numbers of all kinds. -/
def numericRanges : List (Nat × Nat) := Category.select (Category.isIn "N")

/-- Characters that have no shape of their own: controls, formats, unassigned code points and all
separators. -/
def unprintableRanges : List (Nat × Nat) :=
  Category.select fun label => Category.isIn "C" label || Category.isIn "Z" label

/-- Characters that extend the one before them. -/
def extendingRanges : List (Nat × Nat) := (Property.ranges? "graphemeextend").getD []

/-- Whether a character is white space. -/
def isSpace (c : Char) : Bool := isIn c.toNat spaceRanges

/-- Whether a character is a letter. -/
def isAlphabetic (c : Char) : Bool := isIn c.toNat alphabeticRanges

/-- Whether a character is a letter or a number. -/
def isAlphanumeric (c : Char) : Bool := isAlphabetic c || isIn c.toNat numericRanges

/-- Whether a character may stand inside a word. -/
def isWord (c : Char) : Bool :=
  isAlphabetic c || isIn c.toNat joiningRanges || isIn c.toNat joinControlRanges

/-- Whether a character can be shown as it is: it has a shape and does not join the character
before it. -/
def isShown (c : Char) : Bool :=
  c == ' ' || !(isIn c.toNat unprintableRanges || isIn c.toNat extendingRanges)

end Unicode

end IncrementalGlr
