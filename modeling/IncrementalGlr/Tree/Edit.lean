import IncrementalGlr.Text.Edit
import IncrementalGlr.Tree.Basic

/-!
# Edited trees

An edited tree describes the text after an edit before it is parsed again.  Every subtree whose text
or lookahead overlaps the edit is copied with a new length and marked as changed; all others stay
the same objects.
-/

namespace IncrementalGlr

/-- How one edit moves the offsets of a tree.  Inserted text belongs to the subtree that starts at
the edit, or to the one that ends there if the edit is at the end of the text. -/
structure EditMap where
  /-- Start of the edit. -/
  start : Nat
  /-- End of the removed text. -/
  oldEnd : Nat
  /-- End of the inserted text. -/
  newEnd : Nat
  /-- Whether the edit is at the end of the text. -/
  atEnd : Bool
  deriving DecidableEq, Inhabited

namespace EditMap

/-- The map of an edit to a text of the given length; offsets out of order or past the end are
moved to the nearest sensible ones. -/
def ofEdit (edit : Edit) (length : Nat) : EditMap :=
  let start := min edit.start length
  ⟨start, min (max edit.oldEnd start) length, max edit.newEnd start, length ≤ start⟩

/-- Where an offset of the old text moves. -/
def map (map : EditMap) (offset : Nat) : Nat :=
  if (if map.atEnd then offset < map.start else offset ≤ map.start) then offset
  else if offset < map.oldEnd then map.newEnd
  else offset - map.oldEnd + map.newEnd

/-- The new length of a subtree that spans a range. -/
def newLength (map : EditMap) (start stop : Nat) : Nat :=
  max (map.map stop) (map.map start) - map.map start

/-- Whether neither the text of a subtree nor its lookahead reaches into the edit and its length
stays. -/
def isUntouched (map : EditMap) (start stop lookahead : Nat) : Bool :=
  if map.atEnd then
    (stop < map.start && stop + lookahead ≤ map.start) || map.oldEnd ≤ start
  else stop + lookahead ≤ map.start || (map.start < start && map.oldEnd ≤ start)

end EditMap

/-- The progress of an edit through a tree. -/
structure EditProgress where
  /-- The id of the next subtree. -/
  nextId : Nat
  /-- The unchanged tokens that the edit has touched, the last one first. -/
  displaced : List Subtree

namespace EditProgress

/-- The next id. -/
def freshId : StateM EditProgress Nat := fun progress =>
  (progress.nextId, { progress with nextId := progress.nextId + 1 })

/-- Records that a token gives way to a changed copy. -/
def displace (leaf : Subtree) : StateM EditProgress Unit := fun progress =>
  ((), if leaf.hasChanges then progress
    else { progress with displaced := leaf :: progress.displaced })

end EditProgress

namespace Subtree

mutual

/-- The changed copy of a subtree that stands at `start`. -/
def editChanged (map : EditMap) (start : Nat) : Subtree → StateM EditProgress Subtree
  | mk data children => do
    let length := map.newLength start (start + data.length)
    if data.flags.leaf then
      EditProgress.displace (mk data children)
      return (mk data children).resized (← EditProgress.freshId) length
    else
      let children ← editAll map start children
      return (mk data children).rebuilt (← EditProgress.freshId) length children

/-- The subtrees of a list after an edit; those that it does not touch are kept. -/
def editAll (map : EditMap) (start : Nat) : List Subtree → StateM EditProgress (List Subtree)
  | [] => return []
  | child :: rest => do
    let edited ←
      if map.isUntouched start (start + child.length) child.lookahead then pure child
      else editChanged map start child
    return edited :: (← editAll map (start + child.length) rest)

end

end Subtree

namespace SyntaxTree

/-- The tree after an edit, with the tokens that the edit touched as they were before, and
the id for the next subtree.  The root always counts as touched. -/
def edit (edit : Edit) (tree : SyntaxTree) (nextId : Nat) : SyntaxTree × List Subtree × Nat :=
  let (root, progress) :=
    (tree.root.editChanged (.ofEdit edit tree.length) 0).run ⟨nextId, []⟩
  ({ tree with root }, progress.displaced.reverse, progress.nextId)

end SyntaxTree

end IncrementalGlr
