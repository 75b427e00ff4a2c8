import IncrementalGlr.Pattern.CharSet

/-!
# Patterns

A pattern is a regular expression over characters with assertions about the place where it is
matched.  What the assertions need of a place are the bytes on its two sides.  The operations of
this module are those of partial derivatives: `acceptsEmpty` says whether a pattern matches the
empty text at a place, and `heads` lists the ways in which a nonempty match can begin.
-/

namespace IncrementalGlr

/-- Relations between a place and the words around it. -/
inductive WordEdge
  /-- A word begins or ends at the place. -/
  | boundary
  /-- No word begins or ends at the place. -/
  | interior
  /-- A word begins at the place. -/
  | start
  /-- A word ends at the place. -/
  | stop
  /-- No word character stands before the place. -/
  | startHalf
  /-- No word character stands after the place. -/
  | stopHalf
  deriving DecidableEq, Hashable, Inhabited

/-- Conditions on the place where a pattern is matched. -/
inductive Assertion
  /-- The text begins at the place. -/
  | textStart
  /-- The text ends at the place. -/
  | textEnd
  /-- A line begins at the place; lines end with a line feed. -/
  | lineStart
  /-- A line ends at the place; lines end with a line feed. -/
  | lineEnd
  /-- A line begins at the place; lines end with a carriage return, a line feed or both. -/
  | returnLineStart
  /-- A line ends at the place; lines end with a carriage return, a line feed or both. -/
  | returnLineEnd
  /-- A relation to the words of all scripts, or to those of ASCII characters only. -/
  | word (edge : WordEdge) (allScripts : Bool)
  deriving DecidableEq, Hashable, Inhabited

/-- What stands on the two sides of a place. -/
structure Place where
  /-- The byte before the place, or none at the start of the text. -/
  before : Option UInt8
  /-- The byte after the place, or none at the end of the text. -/
  after : Option UInt8
  /-- Whether the character before the place is a word character of any script. -/
  wordBefore : Bool
  /-- Whether the character after the place is a word character of any script. -/
  wordAfter : Bool
  deriving DecidableEq, Inhabited

namespace Place

/-- Whether a byte is a letter, a digit or the underscore of ASCII. -/
def isWordByte (byte : UInt8) : Bool :=
  (0x30 ≤ byte && byte ≤ 0x39) || (0x41 ≤ byte && byte ≤ 0x5A) || byte == 0x5F ||
    (0x61 ≤ byte && byte ≤ 0x7A)

/-- Whether there is a byte and it is a word character. -/
def isWordAt (byte : Option UInt8) : Bool := byte.any isWordByte

/-- A place known by its bytes alone; only ASCII characters are taken for word characters. -/
def ofBytes (before after : Option UInt8) : Place :=
  ⟨before, after, isWordAt before, isWordAt after⟩

end Place

namespace WordEdge

/-- Whether the relation holds between a place and the words around it. -/
def holds (edge : WordEdge) (before after : Bool) : Bool :=
  match edge with
  | boundary => before != after
  | interior => before == after
  | start => !before && after
  | stop => before && !after
  | startHalf => !before
  | stopHalf => !after

end WordEdge

namespace Assertion

/-- Whether the assertion holds at a place. -/
def holds (assertion : Assertion) (place : Place) : Bool :=
  match assertion with
  | textStart => place.before == none
  | textEnd => place.after == none
  | lineStart => place.before == none || place.before == some 10
  | lineEnd => place.after == none || place.after == some 10
  | returnLineStart =>
    place.before == none || place.before == some 10 ||
      (place.before == some 13 && place.after != some 10)
  | returnLineEnd =>
    place.after == none || place.after == some 13 ||
      (place.after == some 10 && place.before != some 13)
  | word edge false => edge.holds (Place.isWordAt place.before) (Place.isWordAt place.after)
  | word edge true => edge.holds place.wordBefore place.wordAfter

/-- Whether the assertion asks for word characters of all scripts. -/
def isAllScripts : Assertion → Bool
  | word _ allScripts => allScripts
  | _ => false

end Assertion

/-- A regular expression over characters. -/
inductive Pattern
  /-- The empty text. -/
  | empty
  /-- One character of a set. -/
  | chars (set : CharSet)
  /-- The empty text where an assertion holds. -/
  | look (assertion : Assertion)
  /-- A match of the first pattern followed by one of the second. -/
  | seq (first second : Pattern)
  /-- A match of either pattern. -/
  | either (first second : Pattern)
  /-- Matches one after the other, at least as many as the first number and at most as many as the
  second one; without the latter, there is no upper bound. -/
  | repetition (least : Nat) (greatest : Option Nat) (body : Pattern)
  deriving DecidableEq, Hashable, Inhabited

namespace Pattern

/-- Whether the pattern matches the empty text at a place. -/
def acceptsEmpty (place : Place) : Pattern → Bool
  | empty => true
  | chars _ => false
  | look assertion => assertion.holds place
  | seq first second => first.acceptsEmpty place && second.acceptsEmpty place
  | either first second => first.acceptsEmpty place || second.acceptsEmpty place
  | repetition least _ body => least == 0 || body.acceptsEmpty place

/-- The second pattern after the first, without needless empty parts. -/
def followedBy : Pattern → Pattern → Pattern
  | empty, next => next
  | first, empty => first
  | first, next => seq first next

/-- Between a least and a greatest number of matches; repetitions that need no counting are
simplified. -/
def repeated (body : Pattern) (least : Nat) (greatest : Option Nat) : Pattern :=
  if greatest = some 0 then empty
  else if least = 1 ∧ greatest = some 1 then body
  else repetition least greatest body

/-- The ways in which a nonempty match at a place can begin: a set for its first character and a
pattern for the rest.  If the body of a repetition accepts the empty text at the place, all matches
that the repetition still needs may be empty there. -/
def heads (place : Place) : Pattern → List (CharSet × Pattern)
  | empty => []
  | chars set => [(set, empty)]
  | look _ => []
  | seq first second =>
    (first.heads place).map (fun (set, rest) => (set, rest.followedBy second)) ++
      if first.acceptsEmpty place then second.heads place else []
  | either first second => first.heads place ++ second.heads place
  | repetition least greatest body =>
    if greatest = some 0 then []
    else
      let needed := if body.acceptsEmpty place then 0 else least - 1
      let later := body.repeated needed (greatest.map (· - 1))
      (body.heads place).map fun (set, rest) => (set, rest.followedBy later)

/-- Whether an assertion of the pattern asks for word characters of all scripts. -/
def usesAllScripts : Pattern → Bool
  | empty => false
  | chars _ => false
  | look assertion => assertion.isAllScripts
  | seq first second => first.usesAllScripts || second.usesAllScripts
  | either first second => first.usesAllScripts || second.usesAllScripts
  | repetition _ _ body => body.usesAllScripts

/-- Exactly the given characters. -/
def ofChars (text : List Char) : Pattern :=
  text.foldr (fun c rest => (chars (.singleton c)).followedBy rest) empty

end Pattern

end IncrementalGlr
