/-!
# Faults of queries

Why the text of a query is refused.
-/

namespace IncrementalGlr

/-- The kinds of faults. -/
inductive QueryErrorKind
  /-- The text is not a query. -/
  | malformed
  /-- The grammar does not have a node or token. -/
  | nodeType
  /-- A predicate names a capture that its pattern does not have. -/
  | capture
  /-- A predicate is wrong. -/
  | predicate
  deriving DecidableEq, Inhabited

/-- What is wrong with the text of a query. -/
inductive QueryFault
  /-- A text has no end. -/
  | unterminatedString
  /-- No name follows a mark. -/
  | missingName (mark : Char)
  /-- No token begins with a character. -/
  | unexpectedCharacter (character : Char)
  /-- A closing mark is missing. -/
  | missingClose (mark : Char)
  /-- A closing parenthesis is missing after a predicate. -/
  | missingPredicateEnd
  /-- A pattern holds only predicates. -/
  | noNodes
  /-- A whole pattern is to be repeated. -/
  | quantifiedPattern
  /-- A child is to be found by the name of a field. -/
  | fieldName
  /-- An alternation has no alternatives. -/
  | emptyAlternation
  /-- The query ends too early. -/
  | unexpectedEnd
  /-- Something else stands where a pattern should. -/
  | missingPattern
  /-- There is nothing between two parentheses. -/
  | emptyPattern
  /-- Something else stands where the kind of a node should. -/
  | missingKind
  /-- The grammar has no such token. -/
  | unknownToken (text : String)
  /-- The grammar has no such node. -/
  | unknownNode (name : String)
  /-- The node is not shown in trees. -/
  | hiddenNode (name : String)
  /-- The pattern has no such capture. -/
  | undefinedCapture (name : String)
  /-- There is no such predicate. -/
  | unknownPredicate (name : String)
  /-- A predicate has not got two arguments. -/
  | argumentCount (name : String) (count : Nat)
  /-- The first argument of a predicate is a text. -/
  | captureExpected (name : String)
  /-- The second argument of a predicate is a capture. -/
  | expressionExpected (name : String)
  /-- A regular expression is malformed. -/
  | malformedExpression (source : String)
  deriving DecidableEq, Inhabited

namespace QueryFault

/-- The kind of a fault. -/
def kind : QueryFault → QueryErrorKind
  | unknownToken _ | unknownNode _ | hiddenNode _ => .nodeType
  | undefinedCapture _ => .capture
  | unknownPredicate _ | argumentCount .. | captureExpected _ | expressionExpected _ |
    malformedExpression _ => .predicate
  | _ => .malformed

/-- A name between backquotes. -/
def quoted (name : String) : String := "`" ++ name ++ "`"

/-- The fault in words. -/
def message : QueryFault → String
  | unterminatedString => "unterminated string"
  | missingName mark => "expected a name after " ++ quoted (String.singleton mark)
  | unexpectedCharacter character =>
    "unexpected character " ++ quoted (String.singleton character)
  | missingClose mark => "expected " ++ quoted (String.singleton mark)
  | missingPredicateEnd => "expected `)` after predicate arguments"
  | noNodes => "pattern has no nodes"
  | quantifiedPattern => "top-level patterns cannot be quantified"
  | fieldName => "field names are not supported"
  | emptyAlternation => "empty alternation"
  | unexpectedEnd => "unexpected end"
  | missingPattern => "expected a pattern"
  | emptyPattern => "empty pattern"
  | missingKind => "expected a node kind"
  | unknownToken text => "unknown token \"" ++ text ++ "\""
  | unknownNode name => "unknown node " ++ quoted name
  | hiddenNode name => "node " ++ quoted name ++ " is hidden"
  | undefinedCapture name => "undefined capture " ++ quoted ("@" ++ name)
  | unknownPredicate name => "unknown predicate " ++ quoted ("#" ++ name)
  | argumentCount name count =>
    quoted ("#" ++ name) ++ " takes 2 arguments, got " ++ toString count
  | captureExpected name =>
    "first argument of " ++ quoted ("#" ++ name) ++ " must be a capture"
  | expressionExpected name =>
    quoted ("#" ++ name) ++ " expects a regular expression string"
  | malformedExpression source => "malformed regular expression " ++ quoted source

end QueryFault

/-- A fault at an offset of the query. -/
structure QueryError where
  /-- What is wrong. -/
  fault : QueryFault
  /-- Where it is. -/
  offset : Nat
  deriving DecidableEq, Inhabited

namespace QueryErrorKind

/-- The kind in words. -/
def describe : QueryErrorKind → String
  | malformed => "syntax error"
  | nodeType => "invalid node type"
  | capture => "invalid capture"
  | predicate => "invalid predicate"

end QueryErrorKind

namespace QueryError

/-- The error in words. -/
def message (error : QueryError) : String :=
  error.fault.kind.describe ++ " at offset " ++ toString error.offset ++ ": " ++
    error.fault.message

end QueryError

end IncrementalGlr
