import IncrementalGlr.Text.Basic

/-!
# Edits

An edit replaces one range of a text.  It is described by three offsets: the common start of the
removed and of the inserted text, and the end of each of them.
-/

namespace IncrementalGlr

/-- Lines and columns of the three offsets of an edit. -/
structure EditPoints where
  /-- Where both texts start. -/
  start : Point
  /-- End of the removed text in the old text. -/
  oldEnd : Point
  /-- End of the inserted text in the new text. -/
  newEnd : Point
  deriving DecidableEq, Inhabited

/-- The replacement of the text between `start` and `oldEnd` by text that ends at `newEnd`. -/
structure Edit where
  /-- Where both texts start. -/
  start : Nat
  /-- End of the removed text in the old text. -/
  oldEnd : Nat
  /-- End of the inserted text in the new text. -/
  newEnd : Nat
  /-- The same places by line and column, if they are known. -/
  points : Option EditPoints
  deriving DecidableEq, Inhabited

namespace Edit

/-- An edit known by its offsets alone. -/
def ofOffsets (start oldEnd newEnd : Nat) : Edit := ⟨start, oldEnd, newEnd, none⟩

/-- Replaces a range of a text; gives the new text and the edit that describes the change. -/
def replace (text : Text) (range : Span) (replacement : Text) : Text × Edit :=
  let newText := text.slice ⟨0, range.start⟩ ++ replacement ++ text.dropTo range.stop
  let newEnd := range.start + replacement.size
  let points := EditPoints.mk (text.pointAt range.start) (text.pointAt range.stop)
    (newText.pointAt newEnd)
  (newText, ⟨range.start, range.stop, newEnd, some points⟩)

/-- Whether the edit neither removes nor inserts text. -/
def isNoop (edit : Edit) : Bool := edit.start == edit.oldEnd && edit.start == edit.newEnd

/-- The removed range of the old text. -/
def oldRange (edit : Edit) : Span := ⟨edit.start, edit.oldEnd⟩

/-- The inserted range of the new text. -/
def newRange (edit : Edit) : Span := ⟨edit.start, edit.newEnd⟩

/-- Moves an offset of the old text to the new one.  Offsets inside the removed text collapse onto
the new end, so adjacent ranges stay adjacent. -/
def mapOffset (edit : Edit) (offset : Nat) : Nat :=
  if offset ≤ edit.start then offset
  else if edit.oldEnd ≤ offset then offset - edit.oldEnd + edit.newEnd
  else edit.newEnd

end Edit

end IncrementalGlr
