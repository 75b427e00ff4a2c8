import IncrementalGlr.Pattern.Expression

/-!
# Reading regular expressions

The written form of regular expressions: literals, classes, groups, repetitions, assertions and
flags.  References back to groups and conditions on surrounding text are refused, and so is nesting
deeper than 250.  Only whether an expression is well formed matters, so every refusal is alike.

The recursion through groups and brackets runs on a budget that exceeds the length of the text;
every step on it consumes a character.
-/

namespace IncrementalGlr

namespace Expression

/-- What is left to read. -/
structure Cursor where
  /-- The characters still to read. -/
  rest : List Char
  /-- Whether blanks and comments between the parts are skipped. -/
  ignoresSpace : Bool
  /-- Names already given to groups. -/
  names : List String
  deriving Inhabited

/-- A step of reading, which may fail. -/
abbrev Reader (α : Type) : Type := StateT Cursor Option α

/-- An expression or class with its depth of nesting. -/
structure Nested (α : Type) where
  /-- The value read. -/
  value : α
  /-- Depth of its parts that contain others. -/
  depth : Nat
  deriving Inhabited

namespace Nested

/-- A value that contains no other. -/
def leaf {α : Type} (value : α) : Nested α := ⟨value, 0⟩

/-- Several values put together under one more level; a single value stays as it is. -/
def combine {α : Type} (empty : α) (join : α → α → α) : List (Nested α) → Nested α
  | [] => leaf empty
  | [one] => one
  | first :: rest =>
    let depth := rest.foldl (fun depth part => max depth part.depth) first.depth
    ⟨(rest.map value).foldl join first.value, depth + 1⟩

end Nested

namespace Reader

/-- The greatest depth of nesting. -/
def depthLimit : Nat := 250

/-- The next character, or none at the end. -/
def peek? : Reader (Option Char) := do return (← get).rest.head?

/-- The character after the next one. -/
def peekSecond? : Reader (Option Char) := do return ((← get).rest.drop 1).head?

/-- The next character; reading fails at the end. -/
def peek : Reader Char := do
  match ← peek? with
  | some c => return c
  | none => failure

/-- Leaves out the next character. -/
def skip : Reader Unit := modify fun cursor => { cursor with rest := cursor.rest.drop 1 }

/-- What follows after blanks and comments. -/
def dropSpace : Bool → List Char → List Char
  | _, [] => []
  | true, c :: rest => dropSpace (c ≠ '\n') rest
  | false, c :: rest =>
    if Unicode.isSpace c then dropSpace false rest
    else if c = '#' then dropSpace true rest
    else c :: rest

/-- Leaves out blanks and comments where they are ignored. -/
def skipSpace : Reader Unit := modify fun cursor =>
  if cursor.ignoresSpace then { cursor with rest := dropSpace false cursor.rest } else cursor

/-- Leaves out the next character and blanks after it. -/
def advance : Reader Unit := do
  skip
  skipSpace

/-- Leaves out blanks whether they are ignored or not. -/
def skipBlanks : Reader Unit := modify fun cursor =>
  { cursor with rest := cursor.rest.dropWhile Unicode.isSpace }

/-- Leaves out a text if it comes next, and says whether it did. -/
def skipText (text : String) : Reader Bool := do
  let cursor ← get
  let chars := text.toList
  if chars.isPrefixOf cursor.rest then
    set { cursor with rest := cursor.rest.drop chars.length }
    return true
  else return false

/-- Requires a character. -/
def expect (c : Char) : Reader Unit := do
  if (← peek) = c then skip else failure

/-- The first character behind blanks, which may stand on both sides of one mark of a comment.
The text of the comment counts, and if nothing else is left, so do the blanks. -/
def firstBehindBlanks? (chars : List Char) : Option Char :=
  match chars.dropWhile Unicode.isSpace with
  | '#' :: comment => (comment.find? fun c => !Unicode.isSpace c).or chars.head?
  | c :: _ => some c
  | [] => chars.head?

/-- The character after the next one, blanks left out where they are ignored. -/
def peekAfterSpace? : Reader (Option Char) := do
  let cursor ← get
  let later := cursor.rest.drop 1
  return if cursor.ignoresSpace then firstBehindBlanks? later else later.head?

/-- The value of a hexadecimal digit. -/
def hexDigit? (c : Char) : Option Nat :=
  if '0' ≤ c ∧ c ≤ '9' then some (c.toNat - 48)
  else if 'a' ≤ c ∧ c ≤ 'f' then some (c.toNat - 87)
  else if 'A' ≤ c ∧ c ≤ 'F' then some (c.toNat - 55)
  else none

/-- The character of a code point; reading fails if it encodes none. -/
def charOf (point : Nat) : Reader Char :=
  if point < 0xD800 ∨ (0xDFFF < point ∧ point < 0x110000) then return Char.ofNat point
  else failure

/-- The given number of hexadecimal digits after the value of those before them. -/
def hexDigits (value : Nat) : Nat → Reader Nat
  | 0 => return value
  | count + 1 => do
    let some digit := hexDigit? (← peek) | failure
    advance
    hexDigits (value * 16 + digit) count

/-- Hexadecimal digits up to a closing brace, which is left; also how many there are. -/
def hexBraced (value count : Nat) : Nat → Reader (Nat × Nat)
  | 0 => failure
  | budget + 1 => do
    let c ← peek
    if c = '}' then return (value, count)
    let some digit := hexDigit? c | failure
    advance
    hexBraced (value * 16 + digit) (count + 1) budget

/-- A character written as a number, after the letter that announces it. -/
def hexEscape (letter : Char) : Reader (Char × Bool) := do
  advance
  if (← peek) = '{' then
    advance
    let (value, count) ← hexBraced 0 0 ((← get).rest.length + 1)
    advance
    if count = 0 then failure
    return (← charOf value, false)
  else
    let digits := if letter = 'x' then 2 else if letter = 'u' then 4 else 8
    let value ← hexDigits 0 digits
    return (← charOf value, letter = 'x')

/-- The characters up to a closing brace, which is left. -/
def nameBraced (name : List Char) : Nat → Reader (List Char)
  | 0 => failure
  | budget + 1 => do
    let c ← peek
    if c = '}' then return name.reverse
    advance
    nameBraced (c :: name) budget

/-- Splits characters at the first place where a separator stands. -/
def splitAtText (separator : List Char) (before : List Char) :
    List Char → Option (List Char × List Char)
  | [] => none
  | c :: rest =>
    if separator.isPrefixOf (c :: rest) then
      some (before.reverse, (c :: rest).drop separator.length)
    else splitAtText separator (c :: before) rest

/-- The class that a name in braces asks for. -/
def queryOfName (name : List Char) : PropertyQuery :=
  let valued (isInverse : Bool) (parts : List Char × List Char) : PropertyQuery :=
    .valued (String.ofList parts.1) (String.ofList parts.2) isInverse
  match splitAtText ['!', '='] [] name with
  | some parts => valued true parts
  | none =>
    match (splitAtText [':'] [] name).or (splitAtText ['='] [] name) with
    | some parts => valued false parts
    | none => .named (String.ofList name)

/-- A class named by a property, after the backslash. -/
def propertyEscape (negated : Bool) : Reader Expression := do
  advance
  let c ← peek
  if c = '{' then
    advance
    let name ← nameBraced [] ((← get).rest.length + 1)
    skip
    return .property (queryOfName name) negated
  else if c = '\\' then failure
  else
    advance
    return .property (.named (String.singleton c)) negated

/-- Whether a character has a meaning of its own in expressions. -/
def isMeta (c : Char) : Bool := "\\.+*?()|[]\x7b\x7d^$#&-~".contains c

/-- Whether a character may be written behind a backslash although it need not. -/
def isEscapable (c : Char) : Bool :=
  isMeta c || (c.toNat < 128 && !c.isAlphanum && c ≠ '<' && c ≠ '>')

/-- Whether a character may stand in the name of a word boundary. -/
def isBoundaryChar (c : Char) : Bool := c.isAlpha || c == '-'

/-- The name of a word boundary. -/
def boundaryName (name : List Char) : Nat → Reader (List Char)
  | 0 => failure
  | budget + 1 => do
    match ← peek? with
    | some c =>
      if isBoundaryChar c then
        advance
        boundaryName (c :: name) budget
      else return name.reverse
    | none => return name.reverse

/-- A word boundary, after its letter: a name in braces may say which kind is meant.  Braces that
hold no name belong to a repetition. -/
def wordBoundary : Reader WordEdge := do
  if (← peek?) ≠ some '{' then return .boundary
  let cursor ← get
  advance
  if !isBoundaryChar (← peek) then
    set cursor
    return .boundary
  let name ← boundaryName [] ((← get).rest.length + 1)
  expect '}'
  match String.ofList name with
  | "start" => return .start
  | "end" => return .stop
  | "start-half" => return .startHalf
  | "end-half" => return .stopHalf
  | _ => failure

/-- What a backslash and the characters behind it stand for. -/
def escape : Reader Expression := do
  skip
  let c ← peek
  match c with
  | 'x' | 'u' | 'U' =>
    let (c, isByte) ← hexEscape c
    return .literal c isByte
  | 'p' | 'P' => propertyEscape (c = 'P')
  | 'd' | 'D' => do skip; return .letter .digit (c = 'D')
  | 's' | 'S' => do skip; return .letter .space (c = 'S')
  | 'w' | 'W' => do skip; return .letter .word (c = 'W')
  | _ =>
    skip
    if isEscapable c then return .literal c false
    match c with
    | 'a' => return .literal '\x07' false
    | 'f' => return .literal '\x0C' false
    | 't' => return .literal '\t' false
    | 'n' => return .literal '\n' false
    | 'r' => return .literal '\r' false
    | 'v' => return .literal '\x0B' false
    | 'A' => return .assertion .textStart
    | 'z' => return .assertion .textStop
    | 'b' => return .assertion (.word (← wordBoundary))
    | 'B' => return .assertion (.word .interior)
    | '<' => return .assertion (.word .start)
    | '>' => return .assertion (.word .stop)
    | _ => failure

/-- A character, an assertion or a class outside of brackets. -/
def primitive : Reader Expression := do
  let c ← peek
  if c = '\\' then escape
  else
    skip
    match c with
    | '.' => return .dot
    | '^' => return .assertion .start
    | '$' => return .assertion .stop
    | _ => return .literal c false

/-! ## Classes in brackets -/

/-- The members of a class of ASCII characters with a name. -/
def asciiClass? (name : String) : Option (List (Nat × Nat)) :=
  match name with
  | "alnum" => some [(0x30, 0x39), (0x41, 0x5A), (0x61, 0x7A)]
  | "alpha" => some [(0x41, 0x5A), (0x61, 0x7A)]
  | "ascii" => some [(0x00, 0x7F)]
  | "blank" => some [(0x09, 0x09), (0x20, 0x20)]
  | "cntrl" => some [(0x00, 0x1F), (0x7F, 0x7F)]
  | "digit" => some [(0x30, 0x39)]
  | "graph" => some [(0x21, 0x7E)]
  | "lower" => some [(0x61, 0x7A)]
  | "print" => some [(0x20, 0x7E)]
  | "punct" => some [(0x21, 0x2F), (0x3A, 0x40), (0x5B, 0x60), (0x7B, 0x7E)]
  | "space" => some [(0x09, 0x0D), (0x20, 0x20)]
  | "upper" => some [(0x41, 0x5A)]
  | "word" => some [(0x30, 0x39), (0x41, 0x5A), (0x5F, 0x5F), (0x61, 0x7A)]
  | "xdigit" => some [(0x30, 0x39), (0x41, 0x46), (0x61, 0x66)]
  | _ => none

/-- A class of ASCII characters written by its name, with the characters after it. -/
def asciiClassAt? (chars : List Char) : Option (ClassExpression × List Char) :=
  match chars with
  | '[' :: ':' :: rest =>
    let (negated, rest) :=
      match rest with
      | '^' :: rest => (true, rest)
      | _ => (false, rest)
    match rest.dropWhile (· ≠ ':') with
    | ':' :: ']' :: later =>
      (asciiClass? (String.ofList (rest.takeWhile (· ≠ ':')))).map fun ranges =>
        (.ascii ranges negated, later)
    | _ => none
  | _ => none

/-- A member of a class that an escaped or plain character stands for. -/
def classItem : Reader Expression := do
  let c ← peek
  if c = '\\' then escape
  else
    skip
    return .literal c false

/-- A single item as a class; assertions are no class. -/
def classOfItem : Expression → Reader ClassExpression
  | .literal c _ => return .range c c
  | .letter letterClass negated => return .letter letterClass negated
  | .property query negated => return .property query negated
  | _ => failure

/-- A character or a range of characters in a class. -/
def classRange : Reader ClassExpression := do
  let first ← classItem
  skipSpace
  let c ← peek
  let second ← peekAfterSpace?
  if c ≠ '-' || second = some ']' || second = some '-' then classOfItem first
  else
    advance
    let _ ← peek
    let last ← classItem
    match first, last with
    | .literal first _, .literal last _ =>
      if first ≤ last then return .range first last else failure
    | _, _ => failure

/-- Hyphens at the start of a class stand for themselves. -/
def leadingHyphens (items : List (Nested ClassExpression)) :
    Nat → Reader (List (Nested ClassExpression))
  | 0 => failure
  | budget + 1 => do
    if (← peek) = '-' then
      advance
      leadingHyphens (.leaf (.range '-' '-') :: items) budget
    else return items

/-- The opening of a class: whether it is negated and the members that stand for themselves because
they come first. -/
def classOpening : Reader (Bool × List (Nested ClassExpression)) := do
  advance
  let negated := (← peek) = '^'
  if negated then advance
  let items ← leadingHyphens [] ((← get).rest.length + 1)
  if items.isEmpty && (← peek) = ']' then
    advance
    let _ ← peek
    return (negated, [.leaf (.range ']' ']')])
  else return (negated, items)

/-- The items of a class so far as one class. -/
def classOfItems (items : List (Nested ClassExpression)) : Nested ClassExpression :=
  Nested.combine .empty .union items.reverse

/-- The operation that waits for its second class, and what it makes of it. -/
def finishOperation (pending : Option (ClassOperation × Nested ClassExpression))
    (right : Nested ClassExpression) : Nested ClassExpression :=
  match pending with
  | none => right
  | some (operation, left) =>
    ⟨.combine operation left.value right.value, max left.depth right.depth + 1⟩

/-- The operation written by two equal characters. -/
def operationOf? (c : Char) : Option ClassOperation :=
  match c with
  | '&' => some .intersection
  | '-' => some .difference
  | '~' => some .symmetricDifference
  | _ => none

/-- The rest of a class up to its closing bracket.  Operations have equal rank and group to the
left. -/
def classRest (negated : Bool) (pending : Option (ClassOperation × Nested ClassExpression))
    (items : List (Nested ClassExpression)) : Nat → Reader (Nested ClassExpression)
  | 0 => failure
  | budget + 1 => do
    skipSpace
    let c ← peek
    let operation := if (← peekSecond?) = some c then operationOf? c else none
    match c, operation with
    | '[', _ =>
      let cursor ← get
      match asciiClassAt? cursor.rest with
      | some (item, rest) =>
        set { cursor with rest }
        classRest negated pending (.leaf item :: items) budget
      | none =>
        let (innerNegated, innerItems) ← classOpening
        let inner ← classRest innerNegated none innerItems budget
        classRest negated pending (inner :: items) budget
    | ']', _ =>
      skip
      let body := finishOperation pending (classOfItems items)
      return ⟨.bracket negated body.value, body.depth + 1⟩
    | _, some operation =>
      skip
      skip
      let left := finishOperation pending (classOfItems items)
      classRest negated (some (operation, left)) [] budget
    | _, none =>
      let item ← classRange
      classRest negated pending (.leaf item :: items) budget

/-- A class in brackets. -/
def bracket : Reader (Nested Expression) := do
  let budget := (← get).rest.length + 1
  let (negated, items) ← classOpening
  let set ← classRest negated none items budget
  match set.value with
  | .bracket negated body => return ⟨.bracket negated body, set.depth⟩
  | _ => failure

/-! ## Repetitions -/

/-- Whether something can be repeated. -/
def isRepeatable : Expression → Bool
  | .empty => false
  | .flags _ => false
  | _ => true

/-- Takes the last item to repeat it. -/
def popRepeatable (items : List (Nested Expression)) :
    Reader (Nested Expression × List (Nested Expression)) :=
  match items with
  | last :: rest => if isRepeatable last.value then return (last, rest) else failure
  | [] => failure

/-- Adds a repetition of an item. -/
def pushRepetition (item : Nested Expression) (least : Nat) (greatest : Option Nat)
    (items : List (Nested Expression)) : List (Nested Expression) :=
  ⟨.repetition item.value least greatest, item.depth + 1⟩ :: items

/-- Leaves out the mark that asks for few repetitions; which text is matched does not depend on
it. -/
def skipLazyMark : Reader Unit := do
  if (← peek?) = some '?' then skip

/-- Decimal digits with the value of those before them; also how many there are. -/
def decimalDigits (value count : Nat) : Nat → Reader (Nat × Nat)
  | 0 => return (value, count)
  | budget + 1 => do
    match ← peek? with
    | some c =>
      if c.isDigit then
        advance
        decimalDigits (value * 10 + (c.toNat - 48)) (count + 1) budget
      else return (value, count)
    | none => return (value, count)

/-- A decimal number of at most 32 bits between blanks. -/
def decimal : Reader Nat := do
  skipBlanks
  let (value, count) ← decimalDigits 0 0 ((← get).rest.length + 1)
  skipBlanks
  if count = 0 || Nat.pow 2 32 ≤ value then failure
  return value

/-- A repetition with counts in braces. -/
def countedRepetition (items : List (Nested Expression)) :
    Reader (List (Nested Expression)) := do
  let (item, items) ← popRepeatable items
  advance
  let least ← decimal
  let greatest ←
    if (← peek) = ',' then
      advance
      if (← peek) = '}' then pure none else do pure (some (← decimal))
    else pure (some least)
  if (← peek) ≠ '}' then failure
  advance
  skipLazyMark
  if greatest.any (· < least) then failure
  return pushRepetition item least greatest items

/-- A repetition written with one character. -/
def markedRepetition (least : Nat) (greatest : Option Nat) (items : List (Nested Expression)) :
    Reader (List (Nested Expression)) := do
  let (item, items) ← popRepeatable items
  skip
  skipLazyMark
  return pushRepetition item least greatest items

/-! ## Groups -/

/-- Whether a character may stand in the name of a group. -/
def isNameChar (isFirst : Bool) (c : Char) : Bool :=
  c == '_' || (if isFirst then Unicode.isAlphabetic c
    else c == '.' || c == '[' || c == ']' || Unicode.isAlphanumeric c)

/-- The name of a group up to its closing angle, which is left out. -/
def groupName : Reader Unit := do
  let cursor ← get
  let name := cursor.rest.takeWhile (· ≠ '>')
  let rest := cursor.rest.drop name.length
  let isWellFormed := (name.head?.any (isNameChar true)) && (name.drop 1).all (isNameChar false)
  let text := String.ofList name
  if !isWellFormed || rest.isEmpty || cursor.names.contains text then failure
  set { cursor with rest := rest.drop 1, names := text :: cursor.names }

/-- The flags that expressions know. -/
def isFlag (c : Char) : Bool := "imsUuRx".contains c

/-- Changes of flags up to the character that ends them, which is left.  No flag may be repeated,
and at most one hyphen turns the flags behind it off. -/
def flagChanges (changes : List (Char × Bool)) (isNegated isDangling : Bool) :
    Nat → Reader (List (Char × Bool) × Bool)
  | 0 => failure
  | budget + 1 => do
    let c ← peek
    if c = ':' || c = ')' then
      if isDangling then failure
      return (changes.reverse, isNegated)
    skip
    if c = '-' then
      if isNegated then failure
      flagChanges changes true true budget
    else
      if !isFlag c || changes.any (·.1 = c) then failure
      flagChanges ((c, !isNegated) :: changes) isNegated false budget

/-- Whether blanks are ignored after changes of flags. -/
def ignoresSpaceAfter (changes : List (Char × Bool)) (before : Bool) : Bool :=
  match changes.find? (·.1 = 'x') with
  | some (_, value) => value
  | none => before

/-- The opening of a group: either changes of flags for the rest of the group around it, or the
flags that change inside the group that opens. -/
def groupOpening : Reader (List (Char × Bool) ⊕ List (Char × Bool)) := do
  advance
  if (← skipText "?=") || (← skipText "?!") || (← skipText "?<=") || (← skipText "?<!") then
    failure
  if (← skipText "?P<") || (← skipText "?<") then
    groupName
    return .inr []
  else if ← skipText "?" then
    let (changes, hasSign) ← flagChanges [] false false ((← get).rest.length + 1)
    if (← peek) = ')' then
      skip
      if changes.isEmpty && !hasSign then failure
      return .inl changes
    else
      skip
      return .inr changes
  else return .inr []

/-- One sequence of items as an expression. -/
def sequenceOf (items : List (Nested Expression)) : Nested Expression :=
  Nested.combine .empty .seq items.reverse

/-- All alternatives as an expression. -/
def alternationOf (branches : List (Nested Expression)) : Nested Expression :=
  Nested.combine .empty .either branches.reverse

/-- Alternatives up to a closing parenthesis or the end, which is left. -/
def alternatives (branches items : List (Nested Expression)) :
    Nat → Reader (Nested Expression)
  | 0 => failure
  | budget + 1 => do
    skipSpace
    match ← peek? with
    | none => return alternationOf (sequenceOf items :: branches)
    | some ')' => return alternationOf (sequenceOf items :: branches)
    | some '|' =>
      skip
      alternatives (sequenceOf items :: branches) [] budget
    | some '(' =>
      let outer := (← get).ignoresSpace
      match ← groupOpening with
      | .inl changes =>
        modify fun cursor => { cursor with ignoresSpace := ignoresSpaceAfter changes outer }
        alternatives branches (.leaf (.flags changes) :: items) budget
      | .inr changes =>
        modify fun cursor => { cursor with ignoresSpace := ignoresSpaceAfter changes outer }
        let body ← alternatives [] [] budget
        modify fun cursor => { cursor with ignoresSpace := outer }
        expect ')'
        alternatives branches (⟨.group changes body.value, body.depth + 1⟩ :: items) budget
    | some '[' => do alternatives branches ((← bracket) :: items) budget
    | some '?' => do alternatives branches (← markedRepetition 0 (some 1) items) budget
    | some '*' => do alternatives branches (← markedRepetition 0 none items) budget
    | some '+' => do alternatives branches (← markedRepetition 1 none items) budget
    | some '{' => do alternatives branches (← countedRepetition items) budget
    | some _ => do alternatives branches (.leaf (← primitive) :: items) budget

/-- A whole expression. -/
def whole : Reader Expression := do
  let result ← alternatives [] [] ((← get).rest.length + 1)
  if (← peek?).isSome || depthLimit < result.depth then failure
  return result.value

end Reader

/-- The expression that a text writes. -/
def read? (text : String) : Option Expression :=
  (Reader.whole.run ⟨text.toList, false, []⟩).map (·.1)

end Expression

namespace Pattern

/-- The pattern that the text of a regular expression means. -/
def read? (text : String) : Option Pattern := do
  let expression ← Expression.read? text
  let (pattern, _) ← expression.meaning? .initial
  return pattern

end Pattern

end IncrementalGlr
