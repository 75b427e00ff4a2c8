import IncrementalGlr.Pattern.Basic
import IncrementalGlr.Text.Basic

/-!
# Scanning for tokens

Text is read byte by byte, and the patterns of all rules run at once.
-/

namespace IncrementalGlr

/-! ## Matching byte by byte

Text is read byte by byte, so a match in progress is either before a character or inside one.  A
thread is one way in which a rule may still match.
-/

/-- The first bytes of an encoded character. -/
structure PartialChar where
  /-- The digits of the code point that have been read. -/
  value : Nat
  /-- Number of bytes still to come. -/
  missing : Nat
  /-- The least code point whose encoding has this length. -/
  least : Nat
  deriving DecidableEq, Inhabited

namespace PartialChar

/-- The first byte of a character. -/
def begin (byte : UInt8) : Option PartialChar :=
  let value := byte.toNat
  if value < 0x80 then some ⟨value, 0, 0⟩
  else if value < 0xC0 then none
  else if value < 0xE0 then some ⟨value - 0xC0, 1, 0x80⟩
  else if value < 0xF0 then some ⟨value - 0xE0, 2, 0x800⟩
  else if value < 0xF8 then some ⟨value - 0xF0, 3, 0x10000⟩
  else none

/-- One more byte of a character. -/
def extend (char : PartialChar) (byte : UInt8) : Option PartialChar :=
  let value := byte.toNat
  if 0x80 ≤ value ∧ value < 0xC0 then
    some ⟨char.value * 64 + (value - 0x80), char.missing - 1, char.least⟩
  else none

/-- Whether the bytes can still become a member of a set. -/
def canBeIn (char : PartialChar) (set : CharSet) : Bool :=
  let width := Nat.pow 64 char.missing
  set.meets (max (char.value * width) char.least) (char.value * width + (width - 1))

end PartialChar

/-- One way in which a rule may still match. -/
inductive Thread
  /-- The pattern has to match from here. -/
  | between (rule : Nat) (rest : Pattern)
  /-- The character begun has to become a member of the set, and then the pattern to match. -/
  | inside (rule : Nat) (char : PartialChar) (set : CharSet) (rest : Pattern)
  deriving DecidableEq, Inhabited

namespace Thread

/-- The rule of a thread whose match is complete at a place. -/
def completed? (place : Place) : Thread → Option Nat
  | between rule rest => if rest.acceptsEmpty place then some rule else none
  | inside .. => none

/-- A thread after a byte of a character that has to be in a set. -/
def afterByte (rule : Nat) (char : Option PartialChar) (set : CharSet) (rest : Pattern) :
    Option Thread :=
  match char with
  | none => none
  | some char =>
    if !char.canBeIn set then none
    else if char.missing = 0 then some (between rule rest)
    else some (inside rule char set rest)

/-- The threads into which a thread develops when it reads a byte at a place. -/
def read (place : Place) (byte : UInt8) : Thread → List Thread
  | between rule rest =>
    (rest.heads place).filterMap fun (set, tail) => afterByte rule (PartialChar.begin byte) set tail
  | inside rule char set rest => (afterByte rule (char.extend byte) set rest).toList

/-- The rules that are complete at a place, each once. -/
def completed (place : Place) (threads : List Thread) : List Nat :=
  (threads.filterMap (completed? place)).eraseDups

/-- All threads after a byte at a place, each once. -/
def readAll (place : Place) (byte : UInt8) (threads : List Thread) : List Thread :=
  (threads.flatMap (read place byte)).eraseDups

end Thread

/-! ## Scanning for tokens

A scan runs the patterns of all rules from one place of a text and reports every rule and every
nonempty length at which the rule matches.  It also says how much of the text it had to look at.

Matches are noticed when the byte after them is read, because an assertion may depend on it.  The
scan goes on until no thread is left and nothing was complete before the last byte.
-/

/-- What a scan found. -/
structure Scan where
  /-- Rules and ends of their matches, by ascending end. -/
  matched : List (Nat × Nat)
  /-- The end of the bytes that the scan looked at; one more than the length of the text if it
  looked for a byte past the end. -/
  examined : Nat
  deriving DecidableEq, Inhabited

namespace Scan

/-- The place between the byte before an offset and a given byte. -/
def placeAt (text : Text) (offset : Nat) (after : Option UInt8) : Place :=
  .ofBytes (if offset = 0 then none else text.byte? (offset - 1)) after

/-- The threads that try each pattern from the start. -/
def startThreads (patterns : List Pattern) : List Thread :=
  patterns.zipIdx.map fun (pattern, rule) => .between rule pattern

/-- Whether the threads have no future: nothing is complete whatever comes next, and no byte lets
any of them go on. -/
def isFutile (text : Text) (offset : Nat) (threads : List Thread) : Bool :=
  (Thread.completed (placeAt text offset none) threads).isEmpty &&
    (List.range 256).all fun value =>
      let byte := UInt8.ofNat value
      let place := placeAt text offset (some byte)
      (Thread.completed place threads).isEmpty && (Thread.readAll place byte threads).isEmpty

/-- Scans on from `offset` with the given threads, `remaining` bytes before the end of the text.
Matches at `start` itself would be empty and are not reported. -/
def runFrom (text : Text) (start offset : Nat) (threads : List Thread) : Nat → Scan
  | 0 =>
    let found := Thread.completed (placeAt text offset none) threads
    ⟨if start < offset then found.map (·, offset) else [], offset + 1⟩
  | remaining + 1 =>
    let byte := (text.byte? offset).getD 0
    let place := placeAt text offset (some byte)
    let found := Thread.completed place threads
    let next := Thread.readAll place byte threads
    let reported := if start < offset then found.map (·, offset) else []
    if found.isEmpty && next.isEmpty then
      ⟨reported, if isFutile text offset threads then offset else offset + 1⟩
    else
      let later := runFrom text start (offset + 1) next remaining
      ⟨reported ++ later.matched, later.examined⟩

/-- Scans a text from an offset with the patterns of all rules.  Without rules there is nothing to
look for. -/
def run (patterns : List Pattern) (text : Text) (offset : Nat) : Scan :=
  if patterns.isEmpty then ⟨[], offset + 1⟩
  else runFrom text offset offset (startThreads patterns) (text.size - offset)

end Scan

end IncrementalGlr
