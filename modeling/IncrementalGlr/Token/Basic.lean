import IncrementalGlr.Symbol
import IncrementalGlr.Text.Basic

/-!
# Tokens

The pieces of text that the parser consumes, and scanners that find some of them by other means
than lexical rules.
-/

namespace IncrementalGlr

/-- A piece of text that stands for a terminal. -/
structure Token where
  /-- The terminal, or the error symbol if no terminal matches the text. -/
  symbol : Symbol
  /-- Where the text stands. -/
  range : Span
  /-- Number of bytes after the text that were looked at to find it. -/
  lookahead : Nat
  /-- Whether no terminal matches the text. -/
  isError : Bool
  deriving DecidableEq, Inhabited

namespace Token

/-- Length of the text. -/
def length (token : Token) : Nat := token.range.length

/-- Whether the token is the end of the input. -/
def isEnd (token : Token) : Bool := token.symbol = .endOfInput

end Token

/-- A token found by an external scanner. -/
structure ExternalToken where
  /-- The terminal found. -/
  symbol : Symbol
  /-- Length of its text. -/
  length : Nat
  /-- Number of bytes looked at after the text. -/
  lookahead : Nat
  deriving DecidableEq, Inhabited

/-- A scanner for external terminals: from a text, an offset and the set of valid terminals. -/
def ExternalScanner : Type := Text → Nat → SymbolSet → Option ExternalToken

/-- A terminal that begins with one text and ends with the first occurrence of another. -/
structure DelimitedToken where
  /-- The terminal. -/
  symbol : Symbol
  /-- The text at its start. -/
  opening : Text
  /-- The text at its end. -/
  closing : Text
  /-- Number of bytes that the terminal claims to have looked at after its text. -/
  lookahead : Nat
  /-- Whether the terminal is only looked for where it is valid. -/
  onlyValid : Bool

namespace DelimitedToken

/-- The token of the terminal at an offset. -/
def find? (delimited : DelimitedToken) (text : Text) (offset : Nat) (valid : SymbolSet) :
    Option ExternalToken :=
  if delimited.onlyValid && !valid.contains delimited.symbol then none
  else if !text.startsWithAt delimited.opening offset then none
  else
    let inner := offset + delimited.opening.size
    (text.find? delimited.closing inner).map fun position =>
      ⟨delimited.symbol, position + delimited.closing.size - offset, delimited.lookahead⟩

/-- The scanner that tries delimited terminals in order. -/
def scanner (tokens : List DelimitedToken) : ExternalScanner := fun text offset valid =>
  tokens.findSome? fun delimited => delimited.find? text offset valid

end DelimitedToken

end IncrementalGlr
