import IncrementalGlr.Query.Error
import IncrementalGlr.Unicode.Class

/-!
# Tokens of queries

A query is written with parentheses, brackets, marks, names, quoted texts, captures after `@` and
predicates after `#`.  Blanks separate tokens, and a semicolon begins a comment.
-/

namespace IncrementalGlr

/-- What a token of a query is. -/
inductive QueryTokenKind
  /-- The mark `(`. -/
  | openParen
  /-- The mark `)`. -/
  | closeParen
  /-- The mark `[`. -/
  | openBracket
  /-- The mark `]`. -/
  | closeBracket
  /-- The mark `?`. -/
  | question
  /-- The mark `*`. -/
  | star
  /-- The mark `+`. -/
  | plus
  /-- The mark `:`. -/
  | colon
  /-- A name. -/
  | name (value : String)
  /-- A quoted text. -/
  | text (value : String)
  /-- The name of a capture. -/
  | capture (value : String)
  /-- The name of a predicate. -/
  | predicate (value : String)
  deriving DecidableEq, Inhabited

/-- A token of a query. -/
structure QueryToken where
  /-- What it is. -/
  kind : QueryTokenKind
  /-- Where it begins. -/
  start : Nat
  deriving DecidableEq, Inhabited

namespace QueryToken

/-- Characters with their byte offsets, the first one at `offset`. -/
def indexed (offset : Nat) : List Char → List (Nat × Char)
  | [] => []
  | c :: rest => (offset, c) :: indexed (offset + c.utf8Size) rest

/-- Whether a character may stand in a name. -/
def isNameChar (c : Char) : Bool :=
  Unicode.isAlphanumeric c || c == '_' || c == '-' || c == '.'

/-- Whether a character may stand in the name of a predicate. -/
def isPredicateChar (c : Char) : Bool := isNameChar c || c == '?' || c == '!'

/-- The character that is written behind a backslash. -/
def unescape (c : Char) : Char :=
  match c with
  | 'n' => '\n'
  | 't' => '\t'
  | 'r' => '\r'
  | '0' => '\x00'
  | _ => c

/-- What is read from characters: a value, and the characters that follow. -/
structure Read (chars : List (Nat × Char)) (α : Type) where
  /-- The value. -/
  value : α
  /-- The characters that follow. -/
  after : List (Nat × Char)
  /-- They are the last ones. -/
  isSuffix : after <:+ chars

namespace Read

variable {α β : Type} {chars : List (Nat × Char)}

/-- A value that is read from more characters is read in the same way. -/
def behind (read : Read chars α) (entry : Nat × Char) : Read (entry :: chars) α :=
  ⟨read.value, read.after, read.isSuffix.trans (List.suffix_cons entry chars)⟩

/-- Changes the value. -/
def map (change : α → β) (read : Read chars α) : Read chars β :=
  ⟨change read.value, read.after, read.isSuffix⟩

end Read

/-- A quoted text after its opening mark, up to its closing mark. -/
def quotedText : (chars : List (Nat × Char)) → Option (Read chars (List Char))
  | [] => none
  | (_, '"') :: rest => some ⟨[], rest, List.suffix_cons _ rest⟩
  | (_, '\\') :: escaped :: rest =>
    (quotedText rest).map fun read =>
      ((read.map (unescape escaped.2 :: ·)).behind escaped).behind _
  | (_, '\\') :: [] => none
  | entry :: rest => (quotedText rest).map fun read => (read.map (entry.2 :: ·)).behind entry

/-- The longest beginning of characters of a class as a word. -/
def word (isMember : Char → Bool) (chars : List (Nat × Char)) : Read chars String :=
  ⟨String.ofList ((chars.takeWhile fun (_, c) => isMember c).map Prod.snd),
    chars.dropWhile fun (_, c) => isMember c, List.dropWhile_suffix _⟩

/-- The mark that is a token by itself. -/
def mark? (c : Char) : Option QueryTokenKind :=
  match c with
  | '(' => some .openParen
  | ')' => some .closeParen
  | '[' => some .openBracket
  | ']' => some .closeBracket
  | '?' => some .question
  | '*' => some .star
  | '+' => some .plus
  | ':' => some .colon
  | _ => none

/-- The token that begins with a character, given the characters after that one. -/
def first (c : Char) (rest : List (Nat × Char)) : Except QueryFault (Read rest QueryTokenKind) :=
  match mark? c with
  | some kind => .ok ⟨kind, rest, List.suffix_rfl⟩
  | none =>
    if c == '"' then
      match quotedText rest with
      | some read => .ok (read.map fun value => .text (String.ofList value))
      | none => .error .unterminatedString
    else if c == '@' then
      let name := word isNameChar rest
      if name.value.isEmpty then .error (.missingName c) else .ok (name.map .capture)
    else if c == '#' then
      let name := word isPredicateChar rest
      if name.value.isEmpty then .error (.missingName c) else .ok (name.map .predicate)
    else if isNameChar c then
      .ok ((word isNameChar rest).map fun name => .name (String.singleton c ++ name))
    else .error (.unexpectedCharacter c)

/-- The tokens of a list of characters. -/
def ofChars : List (Nat × Char) → Except QueryError (List QueryToken)
  | [] => .ok []
  | (start, c) :: rest =>
    if Unicode.isSpace c then ofChars rest
    else if c == ';' then ofChars (rest.dropWhile fun (_, c) => c ≠ '\n')
    else
      match first c rest with
      | .error fault => .error ⟨fault, start⟩
      | .ok read => do
        let tokens ← ofChars read.after
        return ⟨read.value, start⟩ :: tokens
termination_by chars => chars.length
decreasing_by
  · exact Nat.lt_succ_self _
  · exact Nat.lt_succ_of_le (List.dropWhile_suffix _).length_le
  · exact Nat.lt_succ_of_le read.isSuffix.length_le

/-- The tokens of a query. -/
def ofString (source : String) : Except QueryError (List QueryToken) :=
  ofChars (indexed 0 source.toList)

end QueryToken

end IncrementalGlr
