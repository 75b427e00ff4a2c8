import IncrementalGlr.Pattern.Basic
import IncrementalGlr.Symbol

/-!
# Queries

A query is a list of patterns for nodes of a syntax tree.  The children of a node are matched as an
ordered subsequence, so that siblings that are not mentioned may stand between them.
-/

namespace IncrementalGlr

/-- What is asked of a single node. -/
inductive NodeTest
  /-- A node of the given symbol. -/
  | kind (symbol : Symbol)
  /-- A named node. -/
  | named
  /-- A node of any kind. -/
  | any
  deriving DecidableEq, Inhabited

/-- How often a step may match. -/
inductive Quantifier
  /-- Once or not at all. -/
  | optional
  /-- Any number of times. -/
  | many
  /-- At least once. -/
  | atLeastOne
  deriving DecidableEq, Inhabited

/-- A part of a pattern. -/
inductive QueryStep
  /-- Exactly one node, and then its children as an ordered subsequence.  The node is recorded
  under the given captures. -/
  | node (test : NodeTest) (children : List QueryStep) (captures : List Nat)
  /-- Any of several steps. -/
  | alternation (alternatives : List QueryStep)
  /-- Several steps one after the other among siblings. -/
  | group (items : List QueryStep)
  /-- A step repeated among siblings. -/
  | repetition (inner : QueryStep) (quantifier : Quantifier)
  deriving Inhabited

/-- What a captured text is compared with. -/
inductive Operand
  /-- The text of another capture. -/
  | capture (capture : Nat)
  /-- A fixed text. -/
  | text (value : String)
  deriving DecidableEq, Inhabited

/-- A condition on the texts of captured nodes. -/
inductive Predicate
  /-- The texts are equal, or differ if negated. -/
  | equal (capture : Nat) (other : Operand) (negated : Bool)
  /-- A pattern is found in the text, or is not if negated. -/
  | found (capture : Nat) (pattern : Pattern) (negated : Bool)
  deriving Inhabited

/-- A pattern for a node and the siblings after it. -/
structure QueryPattern where
  /-- What the node itself has to match. -/
  first : QueryStep
  /-- What the siblings after it have to match. -/
  rest : List QueryStep
  /-- Conditions on the captured nodes. -/
  predicates : List Predicate
  /-- Where the pattern begins in the text of the query. -/
  start : Nat
  deriving Inhabited

/-- A query for trees of one grammar. -/
structure Query where
  /-- The patterns. -/
  patterns : List QueryPattern
  /-- The names of the captures by their numbers. -/
  captureNames : List String
  /-- The checksum of the grammar. -/
  checksum : UInt32

namespace Query

/-- The number of the capture with a name. -/
def captureIndex? (query : Query) (name : String) : Option Nat :=
  query.captureNames.findIdx? (· == name)

/-- Where a pattern begins in the text of the query. -/
def patternStart? (query : Query) (index : Nat) : Option Nat :=
  query.patterns[index]?.map QueryPattern.start

end Query

/-! ## Compiled queries

While a query is read, its steps are kept in a row, and a step refers to others by their numbers.  A
step is only made when all steps that it refers to are there, so the numbers go down and the row can
be read as trees from its front. -/

/-- A step in a row, with the numbers of the steps that it is made of. -/
inductive FlatStep
  /-- Exactly one node, and then its children as an ordered subsequence.  The node is recorded
  under the given captures. -/
  | node (test : NodeTest) (children : List Nat) (captures : List Nat)
  /-- Any of several steps. -/
  | alternation (alternatives : List Nat)
  /-- Several steps one after the other among siblings. -/
  | group (items : List Nat)
  /-- A step repeated among siblings. -/
  | repetition (inner : Nat) (quantifier : Quantifier)
  deriving DecidableEq, Inhabited

namespace FlatStep

/-- The numbers of the steps that the step is made of. -/
def references : FlatStep → List Nat
  | node _ children _ => children
  | alternation alternatives => alternatives
  | group items => items
  | repetition inner _ => [inner]

/-- The captures under which the step records a node. -/
def captures : FlatStep → List Nat
  | node _ _ captures => captures
  | _ => []

/-- The test of the node that the step asks for, if it asks for a node itself. -/
def test? : FlatStep → Option NodeTest
  | node test _ _ => some test
  | _ => none

/-- The step as a tree, if those of the steps before it are known. -/
def tree (trees : Array QueryStep) : FlatStep → QueryStep
  | node test children captures => .node test (children.map (trees.getD · default)) captures
  | alternation alternatives => .alternation (alternatives.map (trees.getD · default))
  | group items => .group (items.map (trees.getD · default))
  | repetition inner quantifier => .repetition (trees.getD inner default) quantifier

/-- The trees of steps in a row, from the front. -/
def trees (steps : Array FlatStep) : Array QueryStep :=
  steps.foldl (fun trees step => trees.push (step.tree trees)) #[]

/-- Adds a capture to every node that a step can match first. -/
def addCapture (capture : Nat) (steps : Array FlatStep) (step : Nat) : Array FlatStep :=
  match steps[step]? with
  | some (.node test children captures) =>
    steps.setIfInBounds step (.node test children (captures ++ [capture]))
  | some (.alternation alternatives) =>
    alternatives.foldl
      (fun steps earlier => if earlier < step then addCapture capture steps earlier else steps)
      steps
  | some (.group (first :: _)) => if first < step then addCapture capture steps first else steps
  | some (.repetition inner _) => if inner < step then addCapture capture steps inner else steps
  | _ => steps
termination_by step

end FlatStep

/-- A pattern whose steps are in the row of its query. -/
structure CompiledPattern where
  /-- What the node itself has to match, and then what the siblings after it have to match. -/
  steps : List Nat
  /-- Conditions on the captured nodes. -/
  predicates : List Predicate
  /-- Where the pattern begins in the text of the query. -/
  start : Nat

/-- What a query is compiled to. -/
structure CompiledQuery where
  /-- The steps of all patterns. -/
  steps : Array FlatStep
  /-- The patterns. -/
  patterns : List CompiledPattern
  /-- The names of the captures by their numbers. -/
  captureNames : List String

namespace CompiledPattern

/-- The pattern with its steps as trees. -/
def toPattern (trees : Array QueryStep) (pattern : CompiledPattern) : QueryPattern where
  first := trees.getD (pattern.steps.headD 0) default
  rest := pattern.steps.tail.map (trees.getD · default)
  predicates := pattern.predicates
  start := pattern.start

end CompiledPattern

namespace CompiledQuery

/-- The query with the steps of its patterns as trees. -/
def toQuery (query : CompiledQuery) (checksum : UInt32) : Query where
  patterns := query.patterns.map (CompiledPattern.toPattern (FlatStep.trees query.steps))
  captureNames := query.captureNames
  checksum := checksum

end CompiledQuery

end IncrementalGlr
