/-!
# Tables of code points

The tables of this folder are texts of numbers.  A text of gaps and lengths lists the ranges of a
set of code points in ascending order; a text of lengths and labels lists consecutive runs.
-/

namespace IncrementalGlr

namespace Unicode

/-- Adjacent code points with the same label. -/
structure Run where
  /-- First code point of the run. -/
  first : Nat
  /-- Last code point of the run. -/
  last : Nat
  /-- What the code points have in common. -/
  label : String
  deriving DecidableEq, Inhabited

/-- The value of a decimal digit. -/
def digit (c : Char) : Nat := c.toNat - 48

/-- The decimal numbers among characters, in order; other characters only separate them. -/
def numbersIn (chars : List Char) : List Nat :=
  let (found, pending) := chars.foldl
    (fun (found, pending) c =>
      if c.isDigit then (found, some (pending.getD 0 * 10 + digit c))
      else
        match pending with
        | some number => (number :: found, none)
        | none => (found, none))
    (([], none) : List Nat × Option Nat)
  (pending.toList ++ found).reverse

/-- The decimal numbers of a text. -/
def numbers (text : String) : List Nat := numbersIn text.toList

/-- Ranges of code points from their gaps and lengths, the first gap starting at a position. -/
def rangesFrom (position : Nat) : List Nat → List (Nat × Nat)
  | gap :: length :: rest =>
    (position + gap, position + gap + length - 1) ::
      rangesFrom (position + gap + length) rest
  | _ => []

/-- The ranges of code points in the lines of a text of gaps and lengths. -/
def rangesOf (lines : List String) : List (Nat × Nat) := rangesFrom 0 (lines.flatMap numbers)

/-- The ranges listed under a name in a table of names and texts of gaps and lengths. -/
def rangesNamed? (table : List (List String × List String)) (name : String) :
    Option (List (Nat × Nat)) :=
  (table.find? fun entry => entry.1.contains name).map fun entry => rangesOf entry.2

namespace Run

/-- The run of a length and a label, written together, at a position. -/
def ofWord (position : Nat) (word : List Char) : Run :=
  let length := (numbersIn word).headD 0
  ⟨position, position + length - 1, String.ofList (word.filter Char.isAlpha)⟩

/-- Consecutive runs of the given words. -/
def ofWords (position : Nat) : List (List Char) → List Run
  | [] => []
  | word :: rest =>
    let run := ofWord position word
    run :: ofWords (run.last + 1) rest

/-- The runs in the lines of a text of lengths and labels. -/
def ofLengths (lines : List String) : List Run :=
  ofWords 0 (lines.flatMap fun line => line.toList.splitOn ' ')

end Run

end Unicode

end IncrementalGlr
