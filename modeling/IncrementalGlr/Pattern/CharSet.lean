import IncrementalGlr.Unicode.CaseFold

/-!
# Sets of characters

A set of characters is a list of ranges of code points, in ascending order and with a gap between
any two.  Code points that encode no character belong to no set.
-/

namespace IncrementalGlr

/-- A set of characters. -/
structure CharSet where
  /-- First and last code point of each range, in ascending order. -/
  ranges : List (Nat × Nat)
  deriving DecidableEq, Hashable, Inhabited

namespace CharSet

/-- The set without members. -/
def empty : CharSet := ⟨[]⟩

/-- Whether a code point belongs to the set. -/
def contains (set : CharSet) (point : Nat) : Bool :=
  set.ranges.any fun (first, last) => first ≤ point && point ≤ last

/-- Whether the set has a member between two code points, ends included. -/
def meets (set : CharSet) (low high : Nat) : Bool :=
  set.ranges.any fun (first, last) => first ≤ high && low ≤ last

/-- Joins ranges that touch or overlap; the ranges are sorted by their first code points. -/
def joinSorted : List (Nat × Nat) → List (Nat × Nat)
  | [] => []
  | (first, last) :: rest =>
    match joinSorted rest with
    | (next, stop) :: others =>
      if next ≤ last + 1 then (first, max last stop) :: others
      else (first, last) :: (next, stop) :: others
    | [] => [(first, last)]

/-- The common part of two ranges, if there is one. -/
def overlap? (left right : Nat × Nat) : Option (Nat × Nat) :=
  let first := max left.1 right.1
  let last := min left.2 right.2
  if first ≤ last then some (first, last) else none

/-- The common parts of ranges. -/
def overlaps (left right : List (Nat × Nat)) : List (Nat × Nat) :=
  left.flatMap fun range => right.filterMap (overlap? range)

/-- The code points that encode characters. -/
def scalarRanges : List (Nat × Nat) := [(0, 0xD7FF), (0xE000, 0x10FFFF)]

/-- The set of the characters in some ranges, in any order. -/
def ofRanges (ranges : List (Nat × Nat)) : CharSet :=
  ⟨joinSorted ((overlaps ranges scalarRanges).mergeSort fun a b => a.1 ≤ b.1)⟩

/-- The set of one character. -/
def singleton (c : Char) : CharSet := ⟨[(c.toNat, c.toNat)]⟩

/-- The members of either set. -/
def union (left right : CharSet) : CharSet := ofRanges (left.ranges ++ right.ranges)

/-- The members of both sets. -/
def inter (left right : CharSet) : CharSet := ofRanges (overlaps left.ranges right.ranges)

/-- The gaps between ranges from a code point on. -/
def gapsFrom (start : Nat) : List (Nat × Nat) → List (Nat × Nat)
  | [] => if start ≤ 0x10FFFF then [(start, 0x10FFFF)] else []
  | (first, last) :: rest =>
    if start < first then (start, first - 1) :: gapsFrom (last + 1) rest
    else gapsFrom (last + 1) rest

/-- The characters outside the set. -/
def complement (set : CharSet) : CharSet := ofRanges (gapsFrom 0 set.ranges)

/-- The members of the first set that are not in the second. -/
def diff (left right : CharSet) : CharSet := left.inter right.complement

/-- The members of exactly one of two sets. -/
def symmDiff (left right : CharSet) : CharSet := (left.union right).diff (left.inter right)

/-- The members and all characters that differ from a member in case alone. -/
def foldCase (set : CharSet) : CharSet :=
  ofRanges (set.ranges ++
    (Unicode.CaseFold.partners set.contains).map fun point => (point, point))

/-- The members and, for letters without marks from `A` to `Z`, the other case of members. -/
def foldAsciiCase (set : CharSet) : CharSet :=
  let upper := overlaps set.ranges [(0x41, 0x5A)]
  let lower := overlaps set.ranges [(0x61, 0x7A)]
  ofRanges (set.ranges ++ upper.map (fun (first, last) => (first + 32, last + 32)) ++
    lower.map fun (first, last) => (first - 32, last - 32))

end CharSet

end IncrementalGlr
