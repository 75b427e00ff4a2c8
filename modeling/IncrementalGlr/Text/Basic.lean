/-!
# Text addressed by byte offsets

A text is its UTF-8 bytes.  Every offset, length and column of the library counts bytes of the
encoding, so that a cut is only meaningful where a character begins.
-/

namespace IncrementalGlr

/-- A range of byte offsets, its start included and its end not. -/
structure Span where
  /-- First offset of the range. -/
  start : Nat
  /-- Offset after the last one of the range. -/
  stop : Nat
  deriving DecidableEq, Hashable, Inhabited

namespace Span

/-- Number of offsets in the range. -/
def length (span : Span) : Nat := span.stop - span.start

/-- Whether no offset is in the range. -/
def isEmpty (span : Span) : Bool := span.stop ≤ span.start

/-- Whether the second range lies inside the first, ends included. -/
def covers (outer inner : Span) : Bool := outer.start ≤ inner.start && inner.stop ≤ outer.stop

/-- The smallest range that covers both. -/
def cover (left right : Span) : Span :=
  ⟨min left.start right.start, max left.stop right.stop⟩

end Span

/-- A text in UTF-8. -/
structure Text where
  /-- The encoding of the text. -/
  bytes : ByteArray

namespace Text

/-- The encoding of a string. -/
def ofString (source : String) : Text := ⟨source.toUTF8⟩

/-- Length in bytes. -/
def size (text : Text) : Nat := text.bytes.size

/-- The byte at an offset, or none past the end. -/
def byte? (text : Text) (offset : Nat) : Option UInt8 := text.bytes[offset]?

/-- The characters of the encoding; malformed bytes read as no text at all. -/
def decode (text : Text) : String := (String.fromUTF8? text.bytes).getD ""

/-- The part of the text in a range; the range is cut off at the end of the text. -/
def slice (text : Text) (span : Span) : Text := ⟨text.bytes.extract span.start span.stop⟩

/-- The text from an offset on. -/
def dropTo (text : Text) (offset : Nat) : Text := text.slice ⟨offset, text.size⟩

/-- Two texts one after the other. -/
def append (left right : Text) : Text := ⟨left.bytes ++ right.bytes⟩

instance : Append Text := ⟨append⟩

/-- Whether a byte continues a character that an earlier byte began. -/
def isContinuation (byte : UInt8) : Bool := byte &&& 0xC0 == 0x80

/-- Whether a character begins at an offset, the end of the text included. -/
def isBoundary (text : Text) (offset : Nat) : Bool :=
  match text.byte? offset with
  | some byte => !isContinuation byte
  | none => offset == text.size

/-- Whether the bytes of a pattern stand at an offset. -/
def startsWithAt (text pattern : Text) (offset : Nat) : Bool :=
  (text.slice ⟨offset, offset + pattern.size⟩).bytes == pattern.bytes

/-- The least position at or after an offset at which a pattern stands, tried over the given
number of positions. -/
def findFrom (text pattern : Text) (offset : Nat) : Nat → Option Nat
  | 0 => none
  | positions + 1 =>
    if text.startsWithAt pattern offset then some offset
    else text.findFrom pattern (offset + 1) positions

/-- The least position at or after an offset at which a pattern stands. -/
def find? (text pattern : Text) (offset : Nat) : Option Nat :=
  text.findFrom pattern offset (text.size + 1 - offset)

end Text

/-! ## Lines and columns

A line ends after its line feed, so a text has one line more than it has line feeds.
-/

/-- A place in a text by line and byte column, both from zero. -/
structure Point where
  /-- Number of line feeds before the place. -/
  row : Nat
  /-- Number of bytes since the last of them. -/
  column : Nat
  deriving DecidableEq, Inhabited

namespace Point

/-- The first place of a text. -/
def origin : Point := ⟨0, 0⟩

/-- The place after one more byte. -/
def next (point : Point) (byte : UInt8) : Point :=
  if byte = 10 then ⟨point.row + 1, 0⟩ else ⟨point.row, point.column + 1⟩

end Point

namespace Text

/-- The place after the first `offset` bytes of a text. -/
def pointAt (text : Text) (offset : Nat) : Point :=
  (text.bytes.extract 0 offset).data.foldl Point.next Point.origin

/-- The place at an offset, or none past the end of the text. -/
def point? (text : Text) (offset : Nat) : Option Point :=
  if offset ≤ text.size then some (text.pointAt offset) else none

/-- The lines of a text without their line feeds. -/
def lines (text : Text) : List String := text.decode.splitOn "\n"

end Text

end IncrementalGlr
