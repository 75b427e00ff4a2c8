import IncrementalGlr.Text.Basic

/-!
# Text handed out in chunks

A source of text answers with the chunk that begins at a given offset.  A chunk may end before the
text does; the reader then asks again where the chunk ended, and an empty chunk means the end.
-/

namespace IncrementalGlr

/-- A source of text. -/
structure TextSource where
  /-- Length in bytes that the source announces. -/
  size : Nat
  /-- Text that begins at an offset, as far as the source likes to hand it out. -/
  chunk : Nat → Text

namespace TextSource

/-- A text held in one piece; there is nothing to hand out inside a character. -/
def ofText (text : Text) : TextSource where
  size := text.size
  chunk offset := if text.isBoundary offset then text.dropTo offset else ⟨.empty⟩

/-- The rest of the piece that holds an offset counted from the first piece. -/
def chunkOfPieces : List Text → Nat → Text
  | [], _ => ⟨.empty⟩
  | piece :: rest, offset =>
    if offset < piece.size then piece.dropTo offset
    else chunkOfPieces rest (offset - piece.size)

/-- A text held in consecutive pieces. -/
def ofPieces (pieces : List Text) : TextSource where
  size := (pieces.map Text.size).foldr (· + ·) 0
  chunk := chunkOfPieces pieces

/-- Reads on after the text collected so far; every further chunk adds at least one byte, so the
number of bytes still missing bounds the number of chunks. -/
def readFrom (source : TextSource) (collected : Text) : Nat → Text
  | 0 => collected
  | missing + 1 =>
    if source.size ≤ collected.size then collected
    else
      let chunk := source.chunk collected.size
      if chunk.size = 0 then collected
      else source.readFrom (collected ++ chunk) missing

/-- The whole text of a source, until it has its announced length or a chunk is empty. -/
def read (source : TextSource) : Text := source.readFrom (source.chunk 0) source.size

end TextSource

end IncrementalGlr
