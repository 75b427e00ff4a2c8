/-!
# Reading JSON

Text is read in one pass, so that of two faults the first one is reported.  A fault is either one
of the text, which is then no JSON, or one of its contents, which have another shape than was asked
for.  Arrays and objects that are kept may be nested to a depth below 128; parts that are ignored
may be nested to any depth.

Loops run on a budget that exceeds the number of characters; each step consumes one.
-/

namespace IncrementalGlr

/-! ## JSON values and their written form

Values keep the members of objects in the order of the text, repeated keys included.  Numbers with
a fraction or an exponent are no integers and are kept without their value, since grammars only
use integers. -/

namespace Json

/-- A JSON value. -/
inductive Value
  /-- The value without content. -/
  | null
  /-- A truth value. -/
  | bool (value : Bool)
  /-- An integer of at most 64 bits. -/
  | int (value : Int)
  /-- Any other number. -/
  | fraction
  /-- A text. -/
  | string (value : String)
  /-- A list of values. -/
  | array (items : List Value)
  /-- A list of keys and values. -/
  | object (members : List (String × Value))
  deriving BEq, Inhabited

/-- A digit of a hexadecimal number. -/
def hexDigit (value : Nat) : Char := Nat.digitChar value

/-- The written form of a character inside a string. -/
def escape (c : Char) : List Char :=
  match c with
  | '"' => ['\\', '"']
  | '\\' => ['\\', '\\']
  | '\x08' => ['\\', 'b']
  | '\x0C' => ['\\', 'f']
  | '\n' => ['\\', 'n']
  | '\r' => ['\\', 'r']
  | '\t' => ['\\', 't']
  | _ =>
    if c.toNat < 32 then
      ['\\', 'u', '0', '0', hexDigit (c.toNat / 16), hexDigit (c.toNat % 16)]
    else [c]

/-- A string between quotation marks. -/
def quote (text : String) : List Char := '"' :: (text.toList.flatMap escape ++ ['"'])

/-- The start of a line at a depth of nesting. -/
def newline (depth : Nat) : List Char := '\n' :: List.replicate (2 * depth) ' '

namespace Value

mutual

/-- The written form of a value at a depth of nesting, with a line for each item and member. -/
def write (depth : Nat) : Value → List Char
  | null => "null".toList
  | bool true => "true".toList
  | bool false => "false".toList
  | int value => (toString value).toList
  | fraction => "0.5".toList
  | string value => quote value
  | array [] => ['[', ']']
  | array (first :: rest) =>
    '[' :: (newline (depth + 1) ++ first.write (depth + 1) ++ writeItems (depth + 1) rest ++
      newline depth ++ [']'])
  | object [] => ['\x7b', '\x7d']
  | object ((key, first) :: rest) =>
    '\x7b' :: (newline (depth + 1) ++ quote key ++ [':', ' '] ++ first.write (depth + 1) ++
      writeMembers (depth + 1) rest ++ newline depth ++ ['\x7d'])

/-- The written form of items after the first. -/
def writeItems (depth : Nat) : List Value → List Char
  | [] => []
  | item :: rest => ',' :: (newline depth ++ item.write depth ++ writeItems depth rest)

/-- The written form of members after the first. -/
def writeMembers (depth : Nat) : List (String × Value) → List Char
  | [] => []
  | (key, value) :: rest =>
    ',' :: (newline depth ++ quote key ++ [':', ' '] ++ value.write depth ++
      writeMembers depth rest)

end

/-- The written form of a value. -/
def render (value : Value) : String := String.ofList (value.write 0)

end Value

end Json

/-! ## Reading JSON -/

namespace Json

/-- What is wrong with a text. -/
inductive ReadError
  /-- The text is not JSON, ends early or is nested too deeply. -/
  | malformed
  /-- The text is JSON of another shape. -/
  | mismatch
  deriving DecidableEq, Inhabited

/-- A reader takes a value from the front of the characters. -/
abbrev Reader (α : Type) : Type := StateT (List Char) (Except ReadError) α

namespace Reader

/-- The greatest depth at which arrays and objects may be opened. -/
def depthLimit : Nat := 127

/-- Refuses the text as no JSON. -/
def malformed {α : Type} : Reader α := throw .malformed

/-- Refuses the contents. -/
def mismatch {α : Type} : Reader α := throw .mismatch

/-- A number of steps that no loop over the rest of the text exceeds. -/
def budget : Reader Nat := do return (← get).length + 1

/-- Whether a character is blank. -/
def isBlank (c : Char) : Bool := c == ' ' || c == '\n' || c == '\t' || c == '\r'

/-- Leaves out blanks and gives the next character without consuming it. -/
def peek : Reader Char := do
  let rest := (← get).dropWhile isBlank
  set rest
  match rest with
  | c :: _ => return c
  | [] => malformed

/-- Leaves out the next character. -/
def skip : Reader Unit := modify (List.drop 1)

/-- The next character, blanks included. -/
def next : Reader Char := do
  match ← get with
  | c :: rest =>
    set rest
    return c
  | [] => malformed

/-- Requires a text. -/
def expect : List Char → Reader Unit
  | [] => return
  | c :: rest => do
    if (← next) = c then expect rest else malformed

/-! ## Strings -/

/-- The value of a hexadecimal digit. -/
def digitValue? (c : Char) : Option Nat :=
  if '0' ≤ c ∧ c ≤ '9' then some (c.toNat - 48)
  else if 'a' ≤ c ∧ c ≤ 'f' then some (c.toNat - 87)
  else if 'A' ≤ c ∧ c ≤ 'F' then some (c.toNat - 55)
  else none

/-- Hexadecimal digits after the value of those before them. -/
def hexDigits (value : Nat) : Nat → Reader Nat
  | 0 => return value
  | count + 1 => do
    match digitValue? (← next) with
    | some digit => hexDigits (value * 16 + digit) count
    | none => malformed

/-- A character written as one number of sixteen bits, or as two of them that belong together. -/
def unicodeEscape : Reader Char := do
  let high ← hexDigits 0 4
  if high < 0xD800 ∨ 0xDFFF < high then return Char.ofNat high
  else if 0xDC00 ≤ high then malformed
  else
    expect ['\\', 'u']
    let low ← hexDigits 0 4
    if low < 0xDC00 ∨ 0xDFFF < low then malformed
    else return Char.ofNat (0x10000 + (high - 0xD800) * 1024 + (low - 0xDC00))

/-- The character that a letter behind a backslash stands for. -/
def simpleEscape? (c : Char) : Option Char :=
  match c with
  | '"' => some '"'
  | '\\' => some '\\'
  | '/' => some '/'
  | 'b' => some '\x08'
  | 'f' => some '\x0C'
  | 'n' => some '\n'
  | 'r' => some '\r'
  | 't' => some '\t'
  | _ => none

/-- The characters of a string up to its closing mark, after those already read. -/
def stringRest (read : List Char) : Nat → Reader String
  | 0 => malformed
  | steps + 1 => do
    let c ← next
    if c = '"' then return String.ofList read.reverse
    else if c = '\\' then
      let letter ← next
      if letter = 'u' then stringRest ((← unicodeEscape) :: read) steps
      else
        match simpleEscape? letter with
        | some c => stringRest (c :: read) steps
        | none => malformed
    else if c.toNat < 32 then malformed
    else stringRest (c :: read) steps

/-- A string, after its opening mark. -/
def stringBody : Reader String := do stringRest [] (← budget)

/-- Leaves out a string; numbers of characters need not make sense. -/
def ignoreString : Nat → Reader Unit
  | 0 => malformed
  | steps + 1 => do
    let c ← next
    if c = '"' then return
    else if c = '\\' then
      let letter ← next
      if letter = 'u' then
        let _ ← hexDigits 0 4
        ignoreString steps
      else if (simpleEscape? letter).isSome then ignoreString steps
      else malformed
    else if c.toNat < 32 then malformed
    else ignoreString steps

/-! ## Numbers -/

/-- The decimal digits that come next. -/
def digits : Reader (List Char) := do
  let rest ← get
  let digits := rest.takeWhile Char.isDigit
  set (rest.drop digits.length)
  return digits

/-- Decimal digits, at least one. -/
def digits1 : Reader (List Char) := do
  match ← digits with
  | [] => malformed
  | digits => return digits

/-- The value of decimal digits. -/
def natOf (digits : List Char) : Nat :=
  digits.foldl (fun value c => value * 10 + (c.toNat - 48)) 0

/-- Leaves out a character if it comes next. -/
def skipIf (accepts : Char → Bool) : Reader (Option Char) := do
  match ← get with
  | c :: rest =>
    if accepts c then
      set rest
      return some c
    else return none
  | [] => return none

/-- The parts of a number: sign, digits before the point, digits after it and exponent. -/
structure Numeral where
  /-- Whether a minus sign stands in front. -/
  negative : Bool
  /-- Digits before the point. -/
  whole : List Char
  /-- Digits after the point, if there is one. -/
  decimals : Option (List Char)
  /-- The exponent, if there is one. -/
  exponent : Option Int

/-- The parts of a number. -/
def numeral : Reader Numeral := do
  let negative := (← skipIf (· == '-')).isSome
  let whole ← digits1
  if whole.head? = some '0' && 1 < whole.length then malformed
  let decimals ← if (← skipIf (· == '.')).isSome then some <$> digits1 else pure none
  let exponent ←
    if (← skipIf fun c => c == 'e' || c == 'E').isSome then
      let sign ← skipIf fun c => c == '+' || c == '-'
      let value := natOf (← digits1)
      pure (some (if sign = some '-' then -(value : Int) else (value : Int)))
    else pure none
  return ⟨negative, whole, decimals, exponent⟩

/-- Whether the number is too large for a floating-point number of 64 bits. -/
def Numeral.overflows (number : Numeral) : Bool :=
  let decimals := number.decimals.getD []
  let mantissa := natOf (number.whole ++ decimals)
  let exponent := number.exponent.getD 0 - decimals.length
  let magnitude := (Nat.toDigits 10 mantissa).length + exponent
  if mantissa = 0 || magnitude < 309 then false
  else if 310 < magnitude then true
  else
    let limit := Nat.pow 2 1024 - Nat.pow 2 970
    if 0 ≤ exponent then limit ≤ mantissa * Nat.pow 10 exponent.toNat
    else limit * Nat.pow 10 (-exponent).toNat ≤ mantissa

/-- The value of a number.  Integers of more than 64 bits and a negative zero are no integers
here. -/
def Numeral.value (number : Numeral) : Value :=
  let magnitude := natOf number.whole
  if number.decimals.isSome || number.exponent.isSome then .fraction
  else if number.negative then
    if magnitude = 0 || Nat.pow 2 63 < magnitude then .fraction else .int (-(magnitude : Int))
  else if Nat.pow 2 64 ≤ magnitude then .fraction
  else .int magnitude

/-- A number. -/
def number : Reader Value := do
  let number ← numeral
  if number.overflows then malformed
  return number.value

/-! ## Values -/

/-- What to do at the next place in a list of items or members: whether another one follows.  The
closing bracket is left, a comma between items is consumed. -/
def more (closing : Char) (isFirst : Bool) : Reader Bool := do
  let c ← peek
  if c = closing then return false
  else if isFirst then return true
  else if c = ',' then
    skip
    if (← peek) = closing then malformed else return true
  else malformed

/-- The key of a member with its colon. -/
def key : Reader String := do
  if (← peek) ≠ '"' then malformed
  skip
  stringBody

/-- The colon between a key and its value. -/
def colon : Reader Unit := do
  if (← peek) = ':' then skip else malformed

/-- A value that is neither array nor object, if one comes next. -/
def scalar? : Reader (Option Value) := do
  match ← peek with
  | 'n' => do expect "null".toList; return some .null
  | 't' => do expect "true".toList; return some (.bool true)
  | 'f' => do expect "false".toList; return some (.bool false)
  | '"' => do skip; return some (.string (← stringBody))
  | '[' => return none
  | '\x7b' => return none
  | c => if c = '-' || c.isDigit then return some (← number) else malformed

mutual

/-- A value below the given number of further levels of nesting. -/
def value (levels : Nat) : Nat → Reader Value
  | 0 => malformed
  | steps + 1 => do
    match ← scalar? with
    | some value => return value
    | none =>
      if levels = 0 then malformed
      let opening ← next
      if opening = '[' then
        let items ← items (levels - 1) true steps
        skip
        return .array items
      else
        let members ← members (levels - 1) true steps
        skip
        return .object members

/-- The items of an array up to its closing bracket, which is left. -/
def items (levels : Nat) (isFirst : Bool) : Nat → Reader (List Value)
  | 0 => malformed
  | steps + 1 => do
    if ← more ']' isFirst then
      let item ← value levels steps
      return item :: (← items levels false steps)
    else return []

/-- The members of an object up to its closing bracket, which is left. -/
def members (levels : Nat) (isFirst : Bool) : Nat → Reader (List (String × Value))
  | 0 => malformed
  | steps + 1 => do
    if ← more '\x7d' isFirst then
      let name ← key
      colon
      let content ← value levels steps
      return (name, content) :: (← members levels false steps)
    else return []

end

mutual

/-- Leaves out a value of any depth. -/
def ignore : Nat → Reader Unit
  | 0 => malformed
  | steps + 1 => do
    match ← peek with
    | 'n' => expect "null".toList
    | 't' => expect "true".toList
    | 'f' => expect "false".toList
    | '"' => do skip; ignoreString (← budget)
    | '[' => do
      skip
      ignoreItems ']' true steps
      skip
    | '\x7b' => do
      skip
      ignoreItems '\x7d' true steps
      skip
    | c => if c = '-' || c.isDigit then do let _ ← numeral else malformed

/-- Leaves out the items or members up to a closing bracket, which is left. -/
def ignoreItems (closing : Char) (isFirst : Bool) : Nat → Reader Unit
  | 0 => malformed
  | steps + 1 => do
    if ← more closing isFirst then
      if closing = '\x7d' then
        if (← peek) ≠ '"' then malformed
        skip
        ignoreString (← budget)
        colon
      ignore steps
      ignoreItems closing false steps

end

/-- Refuses the shape of the next value; a value that is neither array nor object is read first,
since the text may already end to be JSON inside it. -/
def refuse {α : Type} : Reader α := do
  let _ ← scalar?
  mismatch

/-- A string. -/
def string : Reader String := do
  if (← peek) = '"' then
    skip
    stringBody
  else refuse

/-- The items of an array, each read by a given reader. -/
def listItems {α : Type} (item : Reader α) (isFirst : Bool) : Nat → Reader (List α)
  | 0 => malformed
  | steps + 1 => do
    if ← more ']' isFirst then
      let value ← item
      return value :: (← listItems item false steps)
    else return []

/-- An array whose items are read by a given reader, below the given number of further levels of
nesting. -/
def list {α : Type} (levels : Nat) (item : Reader α) : Reader (List α) := do
  if (← peek) = '[' then
    if levels = 0 then malformed
    skip
    let items ← listItems item true (← budget)
    skip
    return items
  else refuse

/-- Nothing but blanks. -/
def finish : Reader Unit := do
  match (← get).dropWhile isBlank with
  | [] => set ([] : List Char)
  | _ :: _ => malformed

end Reader

end Json

end IncrementalGlr
