import IncrementalGlr.Pattern.Basic
import IncrementalGlr.Pattern.CharSet
import IncrementalGlr.Unicode.Age
import IncrementalGlr.Unicode.Break
import IncrementalGlr.Unicode.Category
import IncrementalGlr.Unicode.Class
import IncrementalGlr.Unicode.Script

/-!
# Written regular expressions

The structure of a regular expression as it is written, and the pattern it means.  The meaning
depends on flags that the expression itself can set; some combinations have no meaning because
they could match text that is not UTF-8.
-/

namespace IncrementalGlr

/-! ## Classes named by properties

A class may be named by a category, by a binary property or by a script, or by a property together
with one of its values.  Names are compared without case and separators. -/

/-- A class named by a property. -/
inductive PropertyQuery
  /-- A category, a binary property or a script. -/
  | named (name : String)
  /-- A value of a property that has more than two values, or all other values. -/
  | valued (property value : String) (isInverse : Bool)
  deriving DecidableEq, Inhabited

namespace PropertyQuery

/-- Whether the query asks for all characters without the value that it names. -/
def isInverse : PropertyQuery → Bool
  | named _ => false
  | valued _ _ isInverse => isInverse

/-- A property's name without case, separators and the word that may stand in front of it. -/
def normalize (name : String) : String :=
  let isSeparator (c : Char) : Bool := c == ' ' || c == '_' || c == '-'
  let fold (cs : List Char) : String :=
    String.ofList ((cs.filter fun c => !isSeparator c && c.toNat < 128).map Char.toLower)
  match name.toList with
  | i :: s :: rest =>
    if i.toLower == 'i' && s.toLower == 's' then
      let name := fold rest
      if name == "c" then "isc" else name
    else fold (i :: s :: rest)
  | cs => fold cs

/-- The characters that a normalised name stands for.  Some short names stand for a category
although a property or a kind of value has the same short name. -/
def namedRanges? (name : String) : Option (List (Nat × Nat)) :=
  if name == "cf" || name == "sc" || name == "lc" then Unicode.Category.ranges? name
  else (Unicode.Property.ranges? name).or
    ((Unicode.Category.ranges? name).or (Unicode.Script.ranges? name))

/-- The characters that serve a script: its own, except those that are shared, and those that it
shares. -/
def scriptExtension? (name : String) : Option CharSet := do
  let script ← Unicode.ScriptExtension.shortName? name
  let own ← Unicode.Script.ranges? script
  return ((CharSet.ofRanges own).diff (.ofRanges Unicode.ScriptExtension.sharedRanges)).union
    (.ofRanges (Unicode.ScriptExtension.rangesSharedBy script))

/-- The characters for which the property of a normalised name has the value of another one. -/
def valuedSet? (property value : String) : Option CharSet :=
  match property with
  | "gc" | "generalcategory" => (Unicode.Category.ranges? value).map .ofRanges
  | "sc" | "script" => (Unicode.Script.ranges? value).map .ofRanges
  | "scx" | "scriptextensions" => scriptExtension? value
  | "age" => (Unicode.Age.ranges? value).map .ofRanges
  | "gcb" | "graphemeclusterbreak" => (Unicode.GraphemeBreak.ranges? value).map .ofRanges
  | "wb" | "wordbreak" => (Unicode.WordBreak.ranges? value).map .ofRanges
  | "sb" | "sentencebreak" => (Unicode.SentenceBreak.ranges? value).map .ofRanges
  | _ => none

/-- The characters that have the property or the value that is named, if there is such a one. -/
def charSet? : PropertyQuery → Option CharSet
  | named name => (namedRanges? (normalize name)).map .ofRanges
  | valued property value _ => valuedSet? (normalize property) (normalize value)

end PropertyQuery

/-! ## Written regular expressions -/

/-- The flags that decide what an expression means. -/
structure PatternFlags where
  /-- Letters match in either case. -/
  ignoreCase : Bool
  /-- Line assertions look at lines rather than at the whole text. -/
  multiLine : Bool
  /-- The dot matches the ends of lines too. -/
  dotAll : Bool
  /-- Lines may end with carriage returns. -/
  returnLines : Bool
  /-- Classes and word boundaries know all scripts. -/
  allScripts : Bool
  deriving DecidableEq, Inhabited

namespace PatternFlags

/-- The flags with which an expression begins. -/
def initial : PatternFlags := ⟨false, false, false, false, true⟩

/-- Sets or clears the flag of a letter; the other letters have no bearing on what is matched. -/
def set (flags : PatternFlags) (letter : Char) (value : Bool) : PatternFlags :=
  match letter with
  | 'i' => { flags with ignoreCase := value }
  | 'm' => { flags with multiLine := value }
  | 's' => { flags with dotAll := value }
  | 'R' => { flags with returnLines := value }
  | 'u' => { flags with allScripts := value }
  | _ => flags

/-- Sets or clears the flags of letters. -/
def update (flags : PatternFlags) (changes : List (Char × Bool)) : PatternFlags :=
  changes.foldl (fun flags (letter, value) => flags.set letter value) flags

end PatternFlags

/-- The classes written with a letter behind a backslash. -/
inductive LetterClass
  /-- Decimal digits. -/
  | digit
  /-- White space. -/
  | space
  /-- Word characters. -/
  | word
  deriving DecidableEq, Inhabited

/-- Operations on classes. -/
inductive ClassOperation
  /-- Members of both. -/
  | intersection
  /-- Members of the first alone. -/
  | difference
  /-- Members of exactly one. -/
  | symmetricDifference
  deriving DecidableEq, Inhabited

/-- A class as it is written between brackets. -/
inductive ClassExpression
  /-- Nothing. -/
  | empty
  /-- The characters between two, ends included. -/
  | range (first last : Char)
  /-- A class written with a letter. -/
  | letter (letterClass : LetterClass) (negated : Bool)
  /-- A class of ASCII characters written by its name. -/
  | ascii (ranges : List (Nat × Nat)) (negated : Bool)
  /-- A class named by a property. -/
  | property (query : PropertyQuery) (negated : Bool)
  /-- A class in brackets of its own. -/
  | bracket (negated : Bool) (body : ClassExpression)
  /-- Members of either class. -/
  | union (left right : ClassExpression)
  /-- An operation on two classes. -/
  | combine (operation : ClassOperation) (left right : ClassExpression)
  deriving DecidableEq, Inhabited

/-- Assertions as they are written; what the line assertions mean depends on flags. -/
inductive WrittenAssertion
  /-- The start of the text or of a line. -/
  | start
  /-- The end of the text or of a line. -/
  | stop
  /-- The start of the text. -/
  | textStart
  /-- The end of the text. -/
  | textStop
  /-- A relation to the words around the place. -/
  | word (edge : WordEdge)
  deriving DecidableEq, Inhabited

/-- A regular expression as it is written. -/
inductive Expression
  /-- Nothing. -/
  | empty
  /-- Changes of flags up to the end of the group. -/
  | flags (changes : List (Char × Bool))
  /-- A character; `isByte` if it is written as a number of two hexadecimal digits. -/
  | literal (c : Char) (isByte : Bool)
  /-- Any character, or any but the end of a line. -/
  | dot
  /-- A condition on the place. -/
  | assertion (kind : WrittenAssertion)
  /-- A class written with a letter. -/
  | letter (letterClass : LetterClass) (negated : Bool)
  /-- A class named by a property. -/
  | property (query : PropertyQuery) (negated : Bool)
  /-- A class in brackets. -/
  | bracket (negated : Bool) (body : ClassExpression)
  /-- Repetition between a least and a greatest number of times. -/
  | repetition (body : Expression) (least : Nat) (greatest : Option Nat)
  /-- A group, with the flags that change inside it. -/
  | group (changes : List (Char × Bool)) (body : Expression)
  /-- One expression after the other. -/
  | seq (first second : Expression)
  /-- Either expression. -/
  | either (first second : Expression)
  deriving DecidableEq, Inhabited

namespace LetterClass

/-- The ASCII members of the class. -/
def asciiSet : LetterClass → CharSet
  | digit => ⟨[(0x30, 0x39)]⟩
  | space => ⟨[(0x09, 0x0D), (0x20, 0x20)]⟩
  | word => ⟨[(0x30, 0x39), (0x41, 0x5A), (0x5F, 0x5F), (0x61, 0x7A)]⟩

/-- The members of the class from all scripts. -/
def fullSet : LetterClass → CharSet
  | digit => .ofRanges Unicode.digitRanges
  | space => .ofRanges Unicode.spaceRanges
  | word =>
    .ofRanges (Unicode.alphabeticRanges ++ Unicode.joiningRanges ++ Unicode.joinControlRanges)

end LetterClass

namespace CharSet

/-- The complement if asked for.  Without other scripts there is no complement, since it would
contain bytes that are no characters. -/
def negateIf (flags : PatternFlags) (negated : Bool) (set : CharSet) : Option CharSet :=
  if !negated then some set else if flags.allScripts then some set.complement else none

/-- The set with the other case of its members where case is ignored. -/
def foldCaseIf (flags : PatternFlags) (set : CharSet) : CharSet :=
  if !flags.ignoreCase then set
  else if flags.allScripts then set.foldCase
  else set.foldAsciiCase

/-- Applies case and then negation. -/
def foldAndNegate (flags : PatternFlags) (negated : Bool) (set : CharSet) : Option CharSet :=
  (set.foldCaseIf flags).negateIf flags negated

end CharSet

namespace LetterClass

/-- The characters of a class written with a letter. -/
def charSet? (flags : PatternFlags) (letterClass : LetterClass) (negated : Bool) :
    Option CharSet :=
  (if flags.allScripts then letterClass.fullSet else letterClass.asciiSet).negateIf flags negated

end LetterClass

namespace PropertyQuery

/-- The characters of a class named by a property, which needs other scripts.  To negate a query
for another value is to ask for the value. -/
def flaggedSet? (flags : PatternFlags) (query : PropertyQuery) (negated : Bool) :
    Option CharSet :=
  if flags.allScripts then
    query.charSet? >>= CharSet.foldAndNegate flags (negated != query.isInverse)
  else none

end PropertyQuery

namespace ClassExpression

/-- The characters of a class, if it has a meaning under the flags. -/
def charSet? (flags : PatternFlags) : ClassExpression → Option CharSet
  | empty => some .empty
  | range first last =>
    if flags.allScripts || last.toNat < 128 then some (.ofRanges [(first.toNat, last.toNat)])
    else none
  | letter letterClass negated => letterClass.charSet? flags negated
  | ascii ranges negated => CharSet.foldAndNegate flags negated (.ofRanges ranges)
  | property query negated => query.flaggedSet? flags negated
  | bracket negated body => do (← body.charSet? flags).foldAndNegate flags negated
  | union left right => do return (← left.charSet? flags).union (← right.charSet? flags)
  | combine operation left right => do
    let left := (← left.charSet? flags).foldCaseIf flags
    let right := (← right.charSet? flags).foldCaseIf flags
    match operation with
    | .intersection => return left.inter right
    | .difference => return left.diff right
    | .symmetricDifference => return left.symmDiff right

end ClassExpression

namespace WrittenAssertion

/-- The assertion that is meant under the flags. -/
def meaning (flags : PatternFlags) : WrittenAssertion → Assertion
  | start =>
    if !flags.multiLine then .textStart
    else if flags.returnLines then .returnLineStart
    else .lineStart
  | stop =>
    if !flags.multiLine then .textEnd
    else if flags.returnLines then .returnLineEnd
    else .lineEnd
  | textStart => .textStart
  | textStop => .textEnd
  | word edge => .word edge flags.allScripts

end WrittenAssertion

namespace Expression

/-- The characters a dot matches under the flags. -/
def dotSet (flags : PatternFlags) : CharSet :=
  let all : CharSet := .ofRanges CharSet.scalarRanges
  if flags.dotAll then all
  else if flags.returnLines then all.diff ⟨[(10, 10), (13, 13)]⟩
  else all.diff ⟨[(10, 10)]⟩

/-- The pattern that an expression means under the flags, and the flags that hold after it. -/
def meaning? (flags : PatternFlags) : Expression → Option (Pattern × PatternFlags)
  | empty => some (.empty, flags)
  | .flags changes => some (.empty, flags.update changes)
  | literal c isByte =>
    if !flags.allScripts && isByte && 128 ≤ c.toNat then none
    else some (.chars ((CharSet.singleton c).foldCaseIf flags), flags)
  | dot => if flags.allScripts then some (.chars (dotSet flags), flags) else none
  | assertion kind => some (.look (kind.meaning flags), flags)
  | letter letterClass negated => do
    return (.chars (← letterClass.charSet? flags negated), flags)
  | property query negated => do return (.chars (← query.flaggedSet? flags negated), flags)
  | bracket negated body => do
    return (.chars (← (← body.charSet? flags).foldAndNegate flags negated), flags)
  | repetition body least greatest => do
    let (pattern, flags) ← body.meaning? flags
    return (pattern.repeated least greatest, flags)
  | group changes body => do
    let (pattern, _) ← body.meaning? (flags.update changes)
    return (pattern, flags)
  | seq first second => do
    let (left, flags) ← first.meaning? flags
    let (right, flags) ← second.meaning? flags
    return (left.followedBy right, flags)
  | either first second => do
    let (left, flags) ← first.meaning? flags
    let (right, flags) ← second.meaning? flags
    return (.either left right, flags)

end Expression

end IncrementalGlr
