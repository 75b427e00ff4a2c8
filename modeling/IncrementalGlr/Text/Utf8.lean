/-!
# Well-formed UTF-8

The first malformed place of a byte sequence, with the number of bytes that are surely wrong.  No
number is given where the sequence ends inside a character that was well formed so far.
-/

namespace IncrementalGlr

/-- A place at which bytes stop being UTF-8. -/
structure Utf8Error where
  /-- Number of bytes that form whole characters. -/
  validUpTo : Nat
  /-- Number of bytes to give up, or none if the text only ends too early. -/
  badLength : Option Nat
  deriving DecidableEq, Inhabited

namespace Utf8Error

/-- The error in words. -/
def message (error : Utf8Error) : String :=
  match error.badLength with
  | some count =>
    "invalid utf-8 sequence of " ++ toString count ++ " bytes from index " ++
      toString error.validUpTo
  | none => "incomplete utf-8 byte sequence from index " ++ toString error.validUpTo

end Utf8Error

namespace Utf8

/-- Least and greatest second byte allowed after a leading byte, with the number of bytes after
the leading one; none if no character begins with the byte. -/
def continuation? (lead : UInt8) : Option (UInt8 × UInt8 × Nat) :=
  if lead < 0x80 then some (0, 0, 0)
  else if lead < 0xC2 then none
  else if lead < 0xE0 then some (0x80, 0xBF, 1)
  else if lead = 0xE0 then some (0xA0, 0xBF, 2)
  else if lead = 0xED then some (0x80, 0x9F, 2)
  else if lead < 0xF0 then some (0x80, 0xBF, 2)
  else if lead = 0xF0 then some (0x90, 0xBF, 3)
  else if lead < 0xF4 then some (0x80, 0xBF, 3)
  else if lead = 0xF4 then some (0x80, 0x8F, 3)
  else none

/-- Checks the bytes after a leading byte; `done` of them are already read.  The answer is the
rest of the sequence, or the number of surely wrong bytes. -/
def tail (least greatest : UInt8) (done : Nat) :
    Nat → List UInt8 → Except (Option Nat) (List UInt8)
  | 0, rest => .ok rest
  | _ + 1, [] => .error none
  | count + 1, byte :: rest =>
    if least ≤ byte ∧ byte ≤ greatest then tail 0x80 0xBF (done + 1) count rest
    else .error (some done)

/-- The first malformed place, searched over at most the given number of characters; `offset`
bytes stand before the sequence. -/
def findError (offset : Nat) : Nat → List UInt8 → Option Utf8Error
  | 0, _ => none
  | _ + 1, [] => none
  | characters + 1, lead :: rest =>
    match continuation? lead with
    | none => some ⟨offset, some 1⟩
    | some (least, greatest, count) =>
      match tail least greatest 1 count rest with
      | .error badLength => some ⟨offset, badLength⟩
      | .ok rest => findError (offset + 1 + count) characters rest

/-- The first malformed place of a byte sequence, or none if it is UTF-8. -/
def error? (bytes : List UInt8) : Option Utf8Error := findError 0 bytes.length bytes

end Utf8

end IncrementalGlr
