import IncrementalGlr.Grammar.Table
import IncrementalGlr.Pattern.Search
import IncrementalGlr.Query.Basic
import IncrementalGlr.Query.Token

/-!
# Reading queries

The patterns of a query are read from its tokens.  Captures are numbered in the order in which
their names first appear.  Predicates may stand anywhere inside a pattern and are understood once
the pattern is complete.

Whatever is read leaves fewer tokens behind, so reading comes to an end.
-/

namespace IncrementalGlr

/-- A predicate as written. -/
structure WrittenPredicate where
  /-- Its name. -/
  name : String
  /-- The captures and texts after the name. -/
  arguments : List QueryToken
  /-- Where it begins. -/
  start : Nat

/-- What has been read of a query. -/
structure QueryDraft where
  /-- The steps. -/
  steps : Array FlatStep
  /-- The names of the captures by their numbers. -/
  captureNames : List String
  /-- The captures of the pattern being read. -/
  patternCaptures : List Nat
  /-- The predicates of the pattern being read. -/
  predicates : List WrittenPredicate

/-- What is read from tokens: a value, fewer tokens than there may be, and the draft with it. -/
structure QueryPart (limit : Nat) (α : Type) where
  /-- The value. -/
  value : α
  /-- The tokens that follow. -/
  rest : List QueryToken
  /-- What has been read up to there. -/
  draft : QueryDraft
  /-- There are fewer tokens than the limit. -/
  fewer : rest.length < limit

namespace QueryDraft

/-- The draft before anything has been read. -/
def empty : QueryDraft := ⟨#[], [], [], []⟩

/-- Adds a step. -/
def push (draft : QueryDraft) (step : FlatStep) : QueryDraft :=
  { draft with steps := draft.steps.push step }

/-- Adds a step, which is what was read. -/
def alloc {limit : Nat} (draft : QueryDraft) (step : FlatStep) (rest : List QueryToken)
    (fewer : rest.length < limit) : QueryPart limit Nat :=
  ⟨draft.steps.size, rest, draft.push step, fewer⟩

/-- Adds a capture to a step and to the pattern being read. -/
def capture (draft : QueryDraft) (step : Nat) (name : String) : QueryDraft :=
  let known := draft.captureNames.findIdx? (· == name)
  let number := known.getD draft.captureNames.length
  { draft with
    steps := FlatStep.addCapture number draft.steps step
    captureNames := if known.isSome then draft.captureNames else draft.captureNames ++ [name]
    patternCaptures := number :: draft.patternCaptures }

/-- Sets a predicate aside. -/
def setAside (draft : QueryDraft) (predicate : WrittenPredicate) : QueryDraft :=
  { draft with predicates := draft.predicates ++ [predicate] }

/-- The draft at the beginning of a pattern. -/
def fresh (draft : QueryDraft) : QueryDraft :=
  { draft with patternCaptures := [], predicates := [] }

/-! ## Predicates -/

/-- The number of a capture that the pattern has to have. -/
def patternCapture (draft : QueryDraft) (name : String) (start : Nat) : Except QueryError Nat :=
  match draft.captureNames.findIdx? (· == name) with
  | some number =>
    if draft.patternCaptures.contains number then .ok number
    else .error ⟨.undefinedCapture name, start⟩
  | none => .error ⟨.undefinedCapture name, start⟩

/-- The meaning of a predicate that compares texts. -/
def equality (draft : QueryDraft) (capture : Nat) (negated : Bool) (second : QueryToken) :
    Except QueryError Predicate :=
  match second.kind with
  | .capture name => do
    return .equal capture (.capture (← draft.patternCapture name second.start)) negated
  | .text value => .ok (.equal capture (.text value) negated)
  | _ => .error ⟨.missingPattern, second.start⟩

/-- The meaning of a predicate that looks for a pattern. -/
def search (written : WrittenPredicate) (capture : Nat) (negated : Bool) (second : QueryToken) :
    Except QueryError Predicate :=
  match second.kind with
  | .text source =>
    match Pattern.readSearch? source with
    | some pattern => .ok (.found capture pattern negated)
    | none => .error ⟨.malformedExpression source, written.start⟩
  | _ => .error ⟨.expressionExpected written.name, written.start⟩

/-- Whether a predicate looks for a pattern, and whether it is negated, by its name. -/
def predicateOfName? (name : String) : Option (Bool × Bool) :=
  match name with
  | "eq?" => some (false, false)
  | "not-eq?" => some (false, true)
  | "match?" => some (true, false)
  | "not-match?" => some (true, true)
  | _ => none

/-- The meaning of a predicate. -/
def meaning (draft : QueryDraft) (written : WrittenPredicate) : Except QueryError Predicate :=
  match predicateOfName? written.name with
  | none => .error ⟨.unknownPredicate written.name, written.start⟩
  | some (searches, negated) =>
    match written.arguments with
    | [first, second] =>
      match first.kind with
      | .capture name => do
        let capture ← draft.patternCapture name first.start
        if searches then search written capture negated second
        else draft.equality capture negated second
      | _ => .error ⟨.captureExpected written.name, written.start⟩
    | arguments => .error ⟨.argumentCount written.name arguments.length, written.start⟩

end QueryDraft

namespace QueryReader

/-- Where the next token begins. -/
def offset (stop : Nat) (tokens : List QueryToken) : Nat :=
  (tokens.head?.map QueryToken.start).getD stop

/-- Passes the closing mark of a kind, which has to come next. -/
def close (stop : Nat) (kind : QueryTokenKind) (fault : QueryFault) :
    (tokens : List QueryToken) → Except QueryError {rest : List QueryToken //
      rest.length < tokens.length}
  | [] => .error ⟨fault, stop⟩
  | token :: rest =>
    if token.kind = kind then .ok ⟨rest, Nat.lt_succ_self _⟩ else .error ⟨fault, token.start⟩

/-- Adds the captures that follow a step to it. -/
def captures {limit : Nat} (step : Nat) : (tokens : List QueryToken) → tokens.length < limit →
    QueryDraft → QueryPart limit Nat
  | ⟨.capture name, _⟩ :: rest, fewer, draft =>
    captures step rest (Nat.lt_of_succ_lt fewer) (draft.capture step name)
  | tokens, fewer, draft => ⟨step, tokens, draft, fewer⟩

/-- How often the step before a mark may match. -/
def quantifier? : QueryTokenKind → Option Quantifier
  | .question => some .optional
  | .star => some .many
  | .plus => some .atLeastOne
  | _ => none

/-- Repeats a step as the mark that follows it says. -/
def quantified {limit : Nat} (step : Nat) : (tokens : List QueryToken) → tokens.length < limit →
    QueryDraft → QueryPart limit Nat
  | [], fewer, draft => ⟨step, [], draft, fewer⟩
  | token :: rest, fewer, draft =>
    match quantifier? token.kind with
    | some quantifier =>
      draft.alloc (.repetition step quantifier) rest (Nat.lt_of_succ_lt fewer)
    | none => ⟨step, token :: rest, draft, fewer⟩

/-- Whether a token may be an argument of a predicate. -/
def isArgument (token : QueryToken) : Bool :=
  match token.kind with
  | .capture _ => true
  | .text _ => true
  | _ => false

/-- Sets a predicate aside, given the tokens after its name. -/
def predicate (stop : Nat) (name : String) (start : Nat) (tokens : List QueryToken)
    (draft : QueryDraft) : Except QueryError (QueryPart tokens.length Unit) := do
  let ⟨rest, closed⟩ ← close stop .closeParen .missingPredicateEnd (tokens.dropWhile isArgument)
  return ⟨(), rest, draft.setAside ⟨name, tokens.takeWhile isArgument, start⟩,
    Nat.lt_of_lt_of_le closed (List.dropWhile_suffix _).length_le⟩

/-- The symbol of a named node that is shown in trees. -/
def namedKind (grammar : Grammar) (name : String) (start : Nat) : Except QueryError Symbol :=
  match grammar.symbolForName? name true with
  | none => .error ⟨.unknownNode name, start⟩
  | some symbol =>
    if grammar.isVisible symbol then .ok symbol else .error ⟨.hiddenNode name, start⟩

/-- What the name after an opening parenthesis asks of a node. -/
def nodeTest (grammar : Grammar) (name : String) (start : Nat) : Except QueryError NodeTest :=
  if name == "_" then .ok .named
  else if name == "ERROR" then .ok (.kind .error)
  else (namedKind grammar name start).map .kind

/-- What comes next where steps may stand. -/
inductive Ahead
  /-- Nothing or a closing mark. -/
  | close
  /-- A predicate. -/
  | predicate (name : String) (start : Nat)
  /-- The name of a field. -/
  | field (start : Nat)
  /-- Anything else, which has to be a step. -/
  | step

/-- What comes next where steps may stand. -/
def ahead : List QueryToken → Ahead
  | [] => .close
  | ⟨.closeParen, _⟩ :: _ => .close
  | ⟨.closeBracket, _⟩ :: _ => .close
  | ⟨.openParen, start⟩ :: ⟨.predicate name, _⟩ :: _ => .predicate name start
  | ⟨.name _, start⟩ :: ⟨.colon, _⟩ :: _ => .field start
  | _ => .step

/-- Whether an opening mark comes next. -/
def opens : List QueryToken → Bool
  | ⟨.openParen, _⟩ :: _ => true
  | ⟨.openBracket, _⟩ :: _ => true
  | _ => false

mutual

/-- A single step without repetition and captures. -/
def atom (grammar : Grammar) (stop : Nat) (tokens : List QueryToken) (draft : QueryDraft) :
    Except QueryError (QueryPart tokens.length Nat) :=
  match tokens with
  | [] => .error ⟨.unexpectedEnd, stop⟩
  | ⟨.openParen, start⟩ :: rest => node grammar stop start rest draft
  | ⟨.openBracket, start⟩ :: rest => do
    let ⟨alternatives, rest, draft, fewer⟩ ← items grammar stop rest draft
    let ⟨rest, closed⟩ ← close stop .closeBracket (.missingClose ']') rest
    if alternatives.isEmpty then throw ⟨.emptyAlternation, start⟩
    return draft.alloc (.alternation alternatives) rest (Nat.lt_trans closed fewer)
  | ⟨.name name, start⟩ :: rest =>
    if name == "_" then .ok (draft.alloc (.node .any [] []) rest (Nat.lt_succ_self _))
    else .error ⟨.missingPattern, start⟩
  | ⟨.text value, start⟩ :: rest =>
    match grammar.symbolForName? value false with
    | some symbol => .ok (draft.alloc (.node (.kind symbol) [] []) rest (Nat.lt_succ_self _))
    | none => .error ⟨.unknownToken value, start⟩
  | ⟨_, start⟩ :: _ => .error ⟨.missingPattern, start⟩
termination_by 4 * tokens.length

/-- A node with its children or a group of siblings, after the opening parenthesis. -/
def node (grammar : Grammar) (stop start : Nat) (tokens : List QueryToken) (draft : QueryDraft) :
    Except QueryError (QueryPart (tokens.length + 1) Nat) :=
  match tokens with
  | ⟨.name name, inner⟩ :: rest => do
    let test ← nodeTest grammar name inner
    let ⟨children, rest, draft, fewer⟩ ← items grammar stop rest draft
    let ⟨rest, closed⟩ ← close stop .closeParen (.missingClose ')') rest
    return draft.alloc (.node test children []) rest
      (Nat.lt_succ_of_lt (Nat.lt_trans closed fewer))
  | ⟨.closeParen, _⟩ :: _ => .error ⟨.emptyPattern, start⟩
  | tokens =>
    if opens tokens then do
      let ⟨items, rest, draft, fewer⟩ ← items grammar stop tokens draft
      let ⟨rest, closed⟩ ← close stop .closeParen (.missingClose ')') rest
      return draft.alloc (.group items) rest (Nat.lt_trans closed fewer)
    else .error ⟨.missingKind, offset stop tokens⟩
termination_by 4 * tokens.length + 3

/-- A step with its repetition and its captures. -/
def item (grammar : Grammar) (stop : Nat) (tokens : List QueryToken) (draft : QueryDraft) :
    Except QueryError (QueryPart tokens.length Nat) := do
  let ⟨step, rest, draft, fewer⟩ ← atom grammar stop tokens draft
  let ⟨step, rest, draft, fewer⟩ := quantified step rest fewer draft
  return captures step rest fewer draft
termination_by 4 * tokens.length + 1

/-- The steps up to a closing mark, which is not passed.  Predicates among them are set aside. -/
def items (grammar : Grammar) (stop : Nat) (tokens : List QueryToken) (draft : QueryDraft) :
    Except QueryError (QueryPart (tokens.length + 1) (List Nat)) :=
  match ahead tokens with
  | .close => .ok ⟨[], tokens, draft, Nat.lt_succ_self _⟩
  | .predicate name start => do
    let ⟨_, rest, draft, fewer⟩ ← predicate stop name start (tokens.drop 2) draft
    have shorter := Nat.lt_of_lt_of_le fewer (List.drop_suffix 2 tokens).length_le
    let ⟨others, rest, draft, further⟩ ← items grammar stop rest draft
    return ⟨others, rest, draft, by omega⟩
  | .field start => .error ⟨.fieldName, start⟩
  | .step => do
    let ⟨step, rest, draft, fewer⟩ ← item grammar stop tokens draft
    let ⟨others, rest, draft, further⟩ ← items grammar stop rest draft
    return ⟨step :: others, rest, draft, by omega⟩
termination_by 4 * tokens.length + 2

end

/-- A single step as all steps of a pattern. -/
def single (grammar : Grammar) (stop : Nat) (tokens : List QueryToken) (draft : QueryDraft) :
    Except QueryError (QueryPart tokens.length (List Nat)) := do
  let ⟨step, rest, draft, fewer⟩ ← atom grammar stop tokens draft
  return ⟨[step], rest, draft, fewer⟩

/-- Several siblings as the steps of a pattern, after the opening parenthesis. -/
def siblings (grammar : Grammar) (stop start : Nat) (tokens : List QueryToken)
    (draft : QueryDraft) : Except QueryError (QueryPart (tokens.length + 1) (List Nat)) := do
  let ⟨items, rest, draft, fewer⟩ ← items grammar stop tokens draft
  let ⟨rest, closed⟩ ← close stop .closeParen (.missingClose ')') rest
  if items.isEmpty then throw ⟨.noNodes, start⟩
  return ⟨items, rest, draft, Nat.lt_trans closed fewer⟩

/-- The steps of a pattern: several siblings between parentheses, or a single step. -/
def roots (grammar : Grammar) (stop : Nat) (tokens : List QueryToken) (draft : QueryDraft) :
    Except QueryError (QueryPart tokens.length (List Nat)) :=
  match tokens with
  | ⟨.openParen, start⟩ :: rest =>
    if opens rest then siblings grammar stop start rest draft
    else single grammar stop (⟨.openParen, start⟩ :: rest) draft
  | tokens => single grammar stop tokens draft

/-- One pattern. -/
def pattern (grammar : Grammar) (stop : Nat) (tokens : List QueryToken) (draft : QueryDraft) :
    Except QueryError (QueryPart tokens.length CompiledPattern) := do
  let ⟨steps, rest, draft, before⟩ ← roots grammar stop tokens draft.fresh
  if (rest.head?.bind fun token => quantifier? token.kind).isSome then
    throw ⟨.quantifiedPattern, offset stop rest⟩
  let ⟨_, rest, draft, fewer⟩ := captures (steps.headD 0) rest before draft
  let predicates ← draft.predicates.mapM draft.meaning
  return ⟨⟨steps, predicates, offset stop tokens⟩, rest, draft, fewer⟩

/-- All patterns, and what has been read with them. -/
def patterns (grammar : Grammar) (stop : Nat) (tokens : List QueryToken) (draft : QueryDraft) :
    Except QueryError (List CompiledPattern × QueryDraft) :=
  if tokens.isEmpty then .ok ([], draft)
  else do
    let ⟨first, rest, draft, _⟩ ← pattern grammar stop tokens draft
    let (others, draft) ← patterns grammar stop rest draft
    return (first :: others, draft)
termination_by tokens.length

end QueryReader

/-- What the text of a query for trees of a grammar is compiled to. -/
def CompiledQuery.ofString (grammar : Grammar) (source : String) :
    Except QueryError CompiledQuery := do
  let tokens ← QueryToken.ofString source
  let (patterns, draft) ← QueryReader.patterns grammar source.utf8ByteSize tokens .empty
  return ⟨draft.steps, patterns, draft.captureNames⟩

/-- The query that a text writes for trees of a grammar. -/
def Query.compile (grammar : Grammar) (source : String) : Except QueryError Query := do
  return (← CompiledQuery.ofString grammar source).toQuery grammar.checksum

end IncrementalGlr
