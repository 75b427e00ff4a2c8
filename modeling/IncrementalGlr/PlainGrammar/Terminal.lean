import IncrementalGlr.Description.Basic
import IncrementalGlr.Grammar.Data

/-!
# Tokens

The tokens of a description, and what is scanned for each of them.
-/

namespace IncrementalGlr

/-! ## Tokens in rules

A rule that describes a token is written as one regular expression; a plain text stays a text.  Its
precedence decides ties between tokens of equal length.
-/

namespace Rule

/-- The characters that have a meaning of their own in regular expressions. -/
def isSpecial (c : Char) : Bool := "\\.+*?()|[]\x7b\x7d^$#&-~".contains c

/-- A text as a regular expression that matches just this text. -/
def escapeText (text : String) : String :=
  String.ofList (text.toList.flatMap fun c => if isSpecial c then ['\\', c] else [c])

/-- The token inside a rule, without wrappers that do not change what text it matches. -/
def unwrapToken : Rule → Rule
  | precedence _ _ content => content.unwrapToken
  | field _ content => content.unwrapToken
  | token _ content => content.unwrapToken
  | aliased _ _ content => content.unwrapToken
  | rule => rule

mutual

/-- The regular expression of a token; tokens cannot refer to rules. -/
def regex? : Rule → Option String
  | blank => some ""
  | string value => some (escapeText value)
  | pattern value none => some ("(?:" ++ value ++ ")")
  | pattern value (some flags) =>
    some (if flags.isEmpty then "(?:" ++ value ++ ")" else "(?" ++ flags ++ ":" ++ value ++ ")")
  | symbol _ => none
  | seq members => (regexes? members).map String.join
  | choice members => (regexes? members).map fun parts => "(?:" ++ "|".intercalate parts ++ ")"
  | repetition atLeastOnce content =>
    content.regex?.map fun body => "(?:" ++ body ++ (if atLeastOnce then ")+" else ")*")
  | precedence _ _ content => content.regex?
  | token _ content => content.regex?
  | field _ content => content.regex?
  | aliased _ _ content => content.regex?

/-- The regular expressions of several tokens. -/
def regexes? : List Rule → Option (List String)
  | [] => some []
  | rule :: rest => do return (← rule.regex?) :: (← regexes? rest)

end

/-- The pattern of a token in the rule of the given name. -/
def tokenPattern (owner : String) (rule : Rule) : Except CompileError TokenPattern :=
  match rule.unwrapToken with
  | string value => .ok (.literal value)
  | inner =>
    match inner.regex? with
    | some source => .ok (.regex source)
    | none => .error (.invalidToken owner .refersToRule)

/-- The nearest integer of sixteen bits. -/
def clampInt16 (value : Int) : Int16 := Int16.ofInt (max (-32768) (min 32767 value))

/-- The outermost precedence of a token. -/
def tokenPrecedence : Rule → Int16
  | precedence (.static _) value _ => clampInt16 value
  | precedence .dynamic _ content => content.tokenPrecedence
  | token _ content => content.tokenPrecedence
  | aliased _ _ content => content.tokenPrecedence
  | field _ content => content.tokenPrecedence
  | _ => 0

end Rule

/-! ## The terminals of a description

External tokens come first, then the rules that describe tokens, then the tokens written inside
other rules and at last those of the extras.  Equal tokens are one terminal: tokens are told apart
by a key, which is a name or what the token looks like.
-/

/-- What tells terminals apart. -/
inductive TerminalKey
  /-- The name of a rule. -/
  | named (name : String)
  /-- A fixed text. -/
  | literal (value : String)
  /-- A regular expression. -/
  | pattern (source : String)
  /-- A token with a name of its own for trees. -/
  | aliased (value : String) (named : Bool) (pattern : String)
  deriving DecidableEq, Inhabited

/-- A terminal of a description. -/
structure Terminal where
  /-- What tells it apart from others. -/
  key : TerminalKey
  /-- How it appears in trees. -/
  info : SymbolInfo
  /-- How its text looks; external terminals have no pattern. -/
  pattern : Option TokenPattern
  /-- Precedence among matches of equal length. -/
  precedence : Int16
  deriving DecidableEq, Inhabited

/-- The terminals of a description. -/
structure Terminals where
  /-- The terminals, no two of them with the same key. -/
  list : List Terminal
  /-- Positions of the terminals that may stand anywhere. -/
  extras : List Nat
  deriving Inhabited

namespace Terminals

/-- No terminals. -/
def empty : Terminals := ⟨[], []⟩

/-- The position of the terminal of a key. -/
def find? (terminals : Terminals) (key : TerminalKey) : Option Nat :=
  terminals.list.findIdx? fun terminal => terminal.key = key

/-- Whether a rule of the given name is a terminal. -/
def isNamed (terminals : Terminals) (name : String) : Bool :=
  (terminals.find? (.named name)).isSome

/-- Adds a terminal unless there is one of its key; gives the position of the key's terminal. -/
def insert (terminals : Terminals) (terminal : Terminal) : Nat × Terminals :=
  match terminals.find? terminal.key with
  | some index => (index, terminals)
  | none =>
    (terminals.list.length, { terminals with list := terminals.list ++ [terminal] })

/-- A symbol that is shown unless its name begins with an underscore. -/
def namedInfo (name : String) (kind : SymbolKind) : SymbolInfo :=
  ⟨name, kind, !name.startsWith "_", true, false⟩

/-- A symbol that is shown but belongs to no rule. -/
def anonymousInfo (name : String) (kind : SymbolKind) : SymbolInfo :=
  ⟨name, kind, true, false, false⟩

/-- Adds an external token. -/
def addExternal (terminals : Terminals) (rule : Rule) : Except CompileError Terminals :=
  match rule with
  | .symbol name =>
    .ok (terminals.insert ⟨.named name, namedInfo name .external, none, 0⟩).2
  | .string value =>
    .ok (terminals.insert ⟨.literal value, anonymousInfo value .external, none, 0⟩).2
  | rule => .error (.unsupportedExternal rule)

/-- Adds the token that a rule describes. -/
def addNamed (terminals : Terminals) (name : String) (rule : Rule) :
    Except CompileError Terminals := do
  let pattern ← rule.tokenPattern name
  return (terminals.insert
    ⟨.named name, namedInfo name .terminal, some pattern, rule.tokenPrecedence⟩).2

/-- Key and appearance of a token that is written inside a rule. -/
def inlineKey (owner : String) (rule : Rule) : Except CompileError (TerminalKey × SymbolInfo) :=
  match rule with
  | .aliased value named content => do
    let pattern ← content.tokenPattern owner
    let source :=
      match pattern with
      | .literal text => Rule.escapeText text
      | .regex source => source
    return (.aliased value named source, ⟨value, .terminal, true, named, false⟩)
  | rule => do
    match ← rule.tokenPattern owner with
    | .literal value => return (.literal value, anonymousInfo value .terminal)
    | .regex source => return (.pattern source, ⟨source, .terminal, false, false, false⟩)

/-- Adds a token that is written inside a rule; gives its position. -/
def addInline (terminals : Terminals) (owner : String) (rule : Rule) :
    Except CompileError (Nat × Terminals) := do
  let (key, info) ← inlineKey owner rule
  let pattern ← rule.tokenPattern owner
  return terminals.insert ⟨key, info, some pattern, rule.tokenPrecedence⟩

mutual

/-- Adds all tokens that are written inside a rule. -/
def collect (owner : String) (terminals : Terminals) : Rule → Except CompileError Terminals
  | .blank => .ok terminals
  | .symbol _ => .ok terminals
  | .string value => do return (← terminals.addInline owner (.string value)).2
  | .pattern value flags => do return (← terminals.addInline owner (.pattern value flags)).2
  | .token immediate content => do
    return (← terminals.addInline owner (.token immediate content)).2
  | .aliased value named content =>
    if content.isToken then do
      return (← terminals.addInline owner (.aliased value named content)).2
    else collect owner terminals content
  | .seq members => collectAll owner terminals members
  | .choice members => collectAll owner terminals members
  | .repetition _ content => collect owner terminals content
  | .precedence _ _ content => collect owner terminals content
  | .field _ content => collect owner terminals content

/-- Adds all tokens that are written inside the rules of a list. -/
def collectAll (owner : String) (terminals : Terminals) :
    List Rule → Except CompileError Terminals
  | [] => .ok terminals
  | rule :: rest => do collectAll owner (← collect owner terminals rule) rest

end

/-- Marks a terminal as one that may stand anywhere. -/
def markExtra (terminals : Terminals) (index : Nat) : Terminals where
  list := terminals.list.modify index fun terminal =>
    { terminal with info := { terminal.info with extra := true } }
  extras := if terminals.extras.contains index then terminals.extras
    else terminals.extras ++ [index]

/-- Adds an extra, which is a token or the name of one. -/
def addExtra (terminals : Terminals) (rule : Rule) : Except CompileError Terminals := do
  match rule.unwrap with
  | .symbol name =>
    match terminals.find? (.named name) with
    | some index => return terminals.markExtra index
    | none => throw (.unsupportedExtra (.symbol name))
  | inner =>
    if inner.isToken then
      let (index, terminals) ← terminals.addInline "extras" inner
      return terminals.markExtra index
    else throw (.unsupportedExtra inner)

/-- The external tokens and the rules that describe tokens.  The first rule describes whole texts
and is never a token. -/
def ofRules (description : Description) : Except CompileError Terminals := do
  let externals ← description.externals.foldlM addExternal empty
  (description.rules.drop 1).foldlM
    (fun terminals (name, rule) =>
      if rule.isToken && !terminals.isNamed name then terminals.addNamed name rule
      else return terminals)
    externals

/-- The lexical rules of the terminals; the terminal at position `n` is symbol `n + 1`. -/
def lexRules (terminals : Terminals) : List LexRule :=
  terminals.list.zipIdx.filterMap fun (terminal, index) =>
    terminal.pattern.map fun pattern => ⟨.ofIndex (index + 1), pattern, terminal.precedence⟩

end Terminals

end IncrementalGlr
