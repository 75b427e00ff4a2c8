import IncrementalGlr.Grammar.Table
import IncrementalGlr.Token.Basic

/-!
# Finding tokens

The token at an offset is the best match of a valid terminal, or else the best match of any
terminal, or else an error that reaches up to the next place where some terminal matches.  Longer
matches are better; among equally long ones lexical precedence decides, then fixed texts win over
patterns, then earlier rules over later ones.
-/

namespace IncrementalGlr

/-- A grammar's lexical rules together with the scanner for its external terminals. -/
structure Lexer where
  /-- The grammar whose terminals are looked for. -/
  grammar : Grammar
  /-- The scanner that is asked first, where external terminals are valid. -/
  external : Option ExternalScanner

/-- A match of a lexical rule. -/
structure Candidate where
  /-- The terminal of the rule. -/
  symbol : Symbol
  /-- Where the match ends. -/
  stop : Nat
  /-- Lexical precedence of the rule. -/
  precedence : Int16
  /-- Whether the rule is a fixed text. -/
  literal : Bool
  /-- Position of the rule among all rules. -/
  rule : Nat
  deriving DecidableEq, Inhabited

namespace Candidate

/-- Whether the first match is better than the second. -/
def beats (left right : Candidate) : Bool :=
  if left.stop ≠ right.stop then right.stop < left.stop
  else if left.precedence ≠ right.precedence then right.precedence < left.precedence
  else if left.literal ≠ right.literal then left.literal
  else left.rule < right.rule

/-- The better of the best match so far and another one. -/
def improve (best : Option Candidate) (candidate : Candidate) : Option Candidate :=
  match best with
  | none => some candidate
  | some current => if candidate.beats current then some candidate else some current

/-- The best of several matches. -/
def best? (candidates : List Candidate) : Option Candidate := candidates.foldl improve none

end Candidate

namespace Lexer

/-- The match of a rule that ends at an offset. -/
def candidate (lexer : Lexer) (found : Nat × Nat) : Candidate :=
  let rule := (lexer.grammar.lexRules[found.1]?).getD default
  ⟨rule.symbol, found.2, rule.precedence, rule.pattern.isLiteral, found.1⟩

/-- The first character boundary after `offset` where some rule matches, or the end of the text,
together with the end of the bytes looked at.  At most `budget` offsets are tried. -/
def recoverFrom (lexer : Lexer) (text : Text) (offset examined : Nat) : Nat → Nat × Nat
  | 0 => (text.size, examined)
  | budget + 1 =>
    if text.size ≤ offset then (text.size, examined)
    else if !text.isBoundary offset then lexer.recoverFrom text (offset + 1) examined budget
    else
      let scan := lexer.grammar.lexicon.scan text offset
      if scan.matched.isEmpty then
        lexer.recoverFrom text (offset + 1) (max examined scan.examined) budget
      else (offset, max examined scan.examined)

/-- The unrecognised text at an offset at which no rule matches.  Inside a character there is
nothing to recognise up to the end of the text. -/
def errorToken (lexer : Lexer) (text : Text) (offset examined : Nat) : Token :=
  let (stop, examined) :=
    if text.isBoundary offset then
      lexer.recoverFrom text (offset + 1) examined (text.size - offset)
    else (text.size, examined)
  ⟨.error, ⟨offset, stop⟩, max examined (stop + 1) - stop, true⟩

/-- The token that lexical rules find at an offset before the end of the text. -/
def lexicalToken (lexer : Lexer) (text : Text) (offset : Nat) (valid : SymbolSet) : Token :=
  let scan := lexer.grammar.lexicon.scan text offset
  let candidates := scan.matched.map lexer.candidate
  let best := (Candidate.best? (candidates.filter fun c => valid.contains c.symbol)).or
    (Candidate.best? candidates)
  match best with
  | some best => ⟨best.symbol, ⟨offset, best.stop⟩, scan.examined - best.stop, false⟩
  | none => lexer.errorToken text offset scan.examined

/-- The token that the external scanner finds at an offset, if it is valid and not empty. -/
def externalToken? (text : Text) (offset : Nat) (valid : SymbolSet)
    (external : Option ExternalScanner) : Option Token := do
  let token ← (← external) text offset valid
  if valid.contains token.symbol && 0 < token.length then
    some ⟨token.symbol, ⟨offset, offset + token.length⟩, token.lookahead, false⟩
  else none

/-- The token at an offset where the given terminals are valid. -/
def tokenAt (lexer : Lexer) (text : Text) (offset : Nat) (valid : SymbolSet)
    (external : Option ExternalScanner) : Token :=
  if text.size ≤ offset then ⟨.endOfInput, ⟨text.size, text.size⟩, 1, false⟩
  else
    (externalToken? text offset valid external).getD (lexer.lexicalToken text offset valid)

/-- The token at an offset, preferably one of the given terminals. -/
def next (lexer : Lexer) (text : Text) (offset : Nat) (valid : SymbolSet) : Token :=
  lexer.tokenAt text offset valid
    (lexer.external.filter fun _ =>
      valid.toList.any (Grammar.isExternal lexer.grammar.symbols))

/-- The token at an offset, preferably one of the terminals of a lexical state. -/
def nextInState (lexer : Lexer) (text : Text) (offset : Nat) (lexState : LexStateId) : Token :=
  lexer.tokenAt text offset (lexer.grammar.validSymbols lexState)
    (lexer.external.filter fun _ => lexer.grammar.hasExternalSymbols lexState)

/-- The tokens from an offset on, at most as many as the budget says. -/
def tokensFrom (lexer : Lexer) (text : Text) (offset : Nat) : Nat → List Token
  | 0 => []
  | budget + 1 =>
    let token := lexer.nextInState text offset .errorMode
    if token.isEnd then [] else token :: lexer.tokensFrom text token.range.stop budget

/-- All tokens of a text, every terminal being valid everywhere.  Tokens are not empty, so there
are no more of them than bytes. -/
def tokens (lexer : Lexer) (text : Text) : List Token :=
  lexer.tokensFrom text 0 (text.size + 1)

end Lexer

/-! ## Walking over the tokens of a text

A walk hands out the tokens of a text one after the other, every terminal being valid everywhere.  It
is over when it finds the end of the input.
-/

/-- A walk over the tokens of a text. -/
structure TokenWalk where
  /-- What finds the tokens. -/
  lexer : Lexer
  /-- The text. -/
  text : Text
  /-- Where the next token begins. -/
  offset : Nat
  /-- Whether the end of the input has been found. -/
  done : Bool

/-- The walk over all tokens of a text. -/
def Lexer.walk (lexer : Lexer) (text : Text) : TokenWalk := ⟨lexer, text, 0, false⟩

/-- The next token of a walk, or none if it is over. -/
def TokenWalk.next (walk : TokenWalk) : Option Token × TokenWalk :=
  if walk.done then (none, walk)
  else
    let token := walk.lexer.nextInState walk.text walk.offset .errorMode
    if token.isEnd then (none, { walk with done := true })
    else (some token, { walk with offset := token.range.stop })

end IncrementalGlr
