import IncrementalGlr.Description.Json
import IncrementalGlr.Grammar.Table
import IncrementalGlr.Lalr.Table
import IncrementalGlr.PlainGrammar.Expansion

/-!
# Compilation of descriptions

A description becomes a plain grammar, the plain grammar a parse table, and both together a compiled
grammar, which is loaded once to make sure that it can be.
-/

namespace IncrementalGlr

/-- The result of compiling a description. -/
structure Compiled where
  /-- The grammar, ready for use. -/
  grammar : Grammar
  /-- The conflicts left to the parser. -/
  conflicts : List Lalr.Conflict
  deriving Inhabited

namespace Compiled

/-- The binary form of the grammar. -/
def bytes (compiled : Compiled) : List UInt8 := compiled.grammar.toBytes

/-- The conflicts that the description does not declare. -/
def unexpectedConflicts (compiled : Compiled) : List Lalr.Conflict :=
  compiled.conflicts.filter fun conflict => !conflict.expected

end Compiled

namespace PlainProduction

/-- The production as compiled grammars store it.  Dynamic precedences of more than sixteen bits
become the nearest ones that fit. -/
def compile (production : PlainProduction) : Except CompileError Production :=
  if 65535 < production.rhs.length then .error (.tooLarge .children production.rhs.length)
  else
    .ok ⟨production.lhs, UInt16.ofNat production.rhs.length,
      Rule.clampInt16 production.dynamicPrecedence⟩

end PlainProduction

namespace Description

/-- Why a text gives no compiled grammar. -/
inductive Failure
  /-- The text holds no description. -/
  | read (error : Json.ReadError)
  /-- The description cannot be compiled. -/
  | compile (error : CompileError)
  deriving BEq, Inhabited

/-- Compiles a description. -/
def compile (description : Description) : Except CompileError Compiled := do
  let plain ← description.toPlain
  let table ← Lalr.Table.ofGrammar plain
  let productions ← plain.productions.mapM PlainProduction.compile
  if 65535 ≤ productions.length then throw (.tooLarge .productions productions.length)
  let data : GrammarData :=
    { name := plain.name
      symbols := plain.symbols
      terminalCount := UInt16.ofNat plain.terminalCount
      startSymbol := plain.start
      lexRules := plain.lexRules
      productions
      lexStates := table.lexStates
      states := table.states }
  match Grammar.ofData data with
  | .ok grammar => return ⟨grammar, table.conflicts⟩
  | .error error => throw (.load error)

/-- Compiles the description that a text holds. -/
def compileText (text : String) : Except Failure Compiled :=
  match read text with
  | .error error => .error (.read error)
  | .ok description => description.compile.mapError .compile

end Description

end IncrementalGlr
