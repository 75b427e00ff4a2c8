import IncrementalGlr.Unicode.Class

/-!
# Quoted text

Text between quotation marks, in which marks, backslashes and characters that cannot be shown are
written behind a backslash.
-/

namespace IncrementalGlr

namespace Quoted

/-- A code point in hexadecimal digits between braces. -/
def codePoint (point : Nat) : String :=
  "\\u\x7b" ++ String.ofList (Nat.toDigits 16 point) ++ "\x7d"

/-- The written form of a character. -/
def escape (c : Char) : String :=
  match c with
  | '\x00' => "\\0"
  | '\t' => "\\t"
  | '\r' => "\\r"
  | '\n' => "\\n"
  | '"' => "\\\""
  | '\\' => "\\\\"
  | _ => if Unicode.isShown c then String.singleton c else codePoint c.toNat

/-- The written form of a text. -/
def ofString (text : String) : String :=
  "\"" ++ text.foldl (fun written c => written ++ escape c) "" ++ "\""

end Quoted

end IncrementalGlr
