import IncrementalGlr.Pattern.Basic
import IncrementalGlr.Pattern.Reader
import IncrementalGlr.Unicode.Class

/-!
# Searching for a pattern

A search asks whether a pattern matches anywhere in a text, the empty match included.  It reads the
text character by character and tries the pattern anew at every place.
-/

namespace IncrementalGlr

namespace Place

/-- The last byte of a character's encoding if it is ASCII, and otherwise a byte that stands for
none. -/
def edgeByte (c : Char) : UInt8 := if c.toNat < 128 then UInt8.ofNat c.toNat else 0x80

/-- The place between two characters. -/
def ofChars (before after : Option Char) : Place :=
  ⟨before.map edgeByte, after.map edgeByte, before.any Unicode.isWord, after.any Unicode.isWord⟩

end Place

namespace Pattern

/-- What is left of patterns after a character at a place, each once. -/
def readChar (place : Place) (c : Char) (patterns : List Pattern) : List Pattern :=
  (patterns.flatMap fun pattern =>
    (pattern.heads place).filterMap fun (set, rest) =>
      if set.contains c.toNat then some rest else none).eraseDups

/-- Whether one of the patterns, or the searched one from some later place on, matches in the text
after a character. -/
def isFoundAfter (pattern : Pattern) (before : Option Char) (started : List Pattern) :
    List Char → Bool
  | [] =>
    let place := Place.ofChars before none
    (pattern :: started).any (acceptsEmpty place)
  | c :: rest =>
    let place := Place.ofChars before (some c)
    let alive := pattern :: started
    alive.any (acceptsEmpty place) ||
      pattern.isFoundAfter (some c) (readChar place c alive) rest

/-- Whether the pattern matches somewhere in a text. -/
def isFoundIn (pattern : Pattern) (text : List Char) : Bool :=
  pattern.isFoundAfter none [] text

end Pattern

/-! ## The weight of patterns

A search runs a program of steps, in which a counted repetition stands as often as its count says.
The weight of a pattern is roughly the number of bytes of that program.  Searches refuse patterns
that are too heavy. -/

namespace CharSet

/-- Bytes of the steps that recognise a member.  One character takes a step for each of its bytes,
and ranges beyond ASCII take several steps each. -/
def weight (set : CharSet) : Nat :=
  match set.ranges with
  | [(first, last)] =>
    if first = last then 32 * (Char.ofNat first).utf8Size
    else if last < 128 then 72
    else 924
  | ranges =>
    if ranges.all fun range => range.2 < 128 then 64 + 8 * ranges.length
    else 864 + 60 * ranges.length

end CharSet

namespace Pattern

/-- Bytes of the program for the pattern.  A repetition without an upper bound has one more copy of
its body than it needs at least. -/
def weight : Pattern → Nat
  | empty => 32
  | chars set => set.weight
  | look _ => 32
  | seq first second => first.weight + second.weight
  | either first second => first.weight + second.weight + 40
  | repetition least greatest body => greatest.getD (least + 1) * (body.weight + 40) + 32

/-- The greatest weight of a pattern to search for. -/
def weightLimit : Nat := 10 * Nat.pow 2 20

/-- The pattern to search for that the text of a regular expression means. -/
def readSearch? (text : String) : Option Pattern :=
  (read? text).filter fun pattern => pattern.weight ≤ weightLimit

end Pattern

end IncrementalGlr
