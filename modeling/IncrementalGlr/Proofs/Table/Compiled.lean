import IncrementalGlr.Description.Compiled
import IncrementalGlr.Proofs.Plain.Expansion
import IncrementalGlr.Proofs.Table.Loaded

/-!
# Compiled descriptions

A compiled grammar is loaded from the plain grammar of its description and the parse table of that.
-/

namespace IncrementalGlr

/-- A precedence is stored as the nearest one that fits. -/
theorem Rule.toInt_clampInt16 (value : Int) :
    (clampInt16 value).toInt = max (-32768) (min 32767 value) :=
  Int16.toInt_ofInt_of_le (by omega) (by omega)

theorem PlainProduction.compile_eq_ok {source : PlainProduction} {stored : Production}
    (made : source.compile = .ok stored) :
    stored.lhs = source.lhs ∧ stored.length.toNat = source.rhs.length ∧
      stored.dynamicPrecedence.toInt = max (-32768) (min 32767 source.dynamicPrecedence) := by
  unfold compile at made
  split at made
  · cases made
  · next fits =>
      cases made
      exact ⟨rfl, Nat.mod_eq_of_lt (by omega), Rule.toInt_clampInt16 _⟩

/-- Whether a grammar is loaded from a plain grammar and a table for it. -/
structure Grammar.ComesFrom (grammar : Grammar) (plain : PlainGrammar) (table : Lalr.Table) :
    Prop where
  /-- The grammar is loaded. -/
  loaded : grammar.IsLoaded
  /-- The plain grammar is sound. -/
  sound : plain.Sound
  /-- The table is that of the plain grammar. -/
  built : Lalr.Table.ofGrammar plain = .ok table
  /-- The symbols. -/
  symbols : grammar.data.symbols = plain.symbols
  /-- Number of terminals. -/
  terminalCount : grammar.terminalCount = plain.terminalCount
  /-- The start symbol. -/
  start : grammar.startSymbol = plain.start
  /-- The productions. -/
  productions : List.Forall₂ (fun production stored => production.compile = .ok stored)
    plain.productions grammar.data.productions
  /-- There are fewer productions than ids. -/
  productionCount : plain.productions.length < 65535
  /-- The terminals of the lexical states. -/
  lexStates : grammar.data.lexStates = table.lexStates
  /-- The states. -/
  states : grammar.data.states = table.states

/-- The contents of the compiled grammar that has the symbols of a plain grammar, the states of a
table and given productions. -/
def PlainGrammar.contents (plain : PlainGrammar) (table : Lalr.Table)
    (productions : List Production) : GrammarData where
  name := plain.name
  symbols := plain.symbols
  terminalCount := UInt16.ofNat plain.terminalCount
  startSymbol := plain.start
  lexRules := plain.lexRules
  productions := productions
  lexStates := table.lexStates
  states := table.states

theorem PlainGrammar.Sound.terminalCount_contents {plain : PlainGrammar} (sound : plain.Sound)
    {table : Lalr.Table} {productions : List Production} :
    (plain.contents table productions).terminalCount.toNat = plain.terminalCount := by
  have symbols := sound.symbolCount
  have terminals := sound.terminalCount
  exact Nat.mod_eq_of_lt (by omega)

/-- Every stage of a successful compilation succeeds. -/
theorem Description.compile_eq_ok {description : Description} {compiled : Compiled}
    (made : description.compile = .ok compiled) :
    ∃ plain table productions, description.toPlain = .ok plain ∧
      Lalr.Table.ofGrammar plain = .ok table ∧
      plain.productions.mapM PlainProduction.compile = .ok productions ∧
      productions.length < 65535 ∧
      Grammar.ofData (plain.contents table productions) = .ok compiled.grammar := by
  obtain ⟨plain, plainMade, rest⟩ := Except.bind_eq_ok.1 made
  obtain ⟨table, tableMade, rest⟩ := Except.bind_eq_ok.1 rest
  obtain ⟨productions, stored, rest⟩ := Except.bind_eq_ok.1 rest
  refine ⟨plain, table, productions, plainMade, tableMade, stored, ?_⟩
  dsimp only at rest
  split at rest
  · cases rest
  · next fits =>
      split at rest
      · next grammar loaded =>
          cases rest
          exact ⟨Nat.lt_of_not_le fits, loaded⟩
      · cases rest

/-- The conflicts that a compilation reports are those of the table. -/
theorem Description.conflicts_of_compile {description : Description} {compiled : Compiled}
    (made : description.compile = .ok compiled) {plain : PlainGrammar} {table : Lalr.Table}
    (lowered : description.toPlain = .ok plain) (built : Lalr.Table.ofGrammar plain = .ok table) :
    compiled.conflicts = table.conflicts := by
  obtain ⟨source, sourceLowered, rest⟩ := Except.bind_eq_ok.1 made
  obtain rfl := Except.ok.inj (lowered.symm.trans sourceLowered)
  obtain ⟨other, otherBuilt, rest⟩ := Except.bind_eq_ok.1 rest
  obtain rfl := Except.ok.inj (built.symm.trans otherBuilt)
  obtain ⟨productions, -, rest⟩ := Except.bind_eq_ok.1 rest
  dsimp only at rest
  split at rest
  · cases rest
  · split at rest
    · cases rest
      rfl
    · cases rest

/-- A compiled description comes from its plain grammar. -/
theorem Description.compile_comesFrom {description : Description} {compiled : Compiled}
    (made : description.compile = .ok compiled) :
    ∃ plain table, description.toPlain = .ok plain ∧ compiled.grammar.ComesFrom plain table := by
  obtain ⟨plain, table, productions, plainMade, built, stored, ids, loadedMade⟩ := compile_eq_ok made
  obtain ⟨contents, loaded⟩ := Grammar.isLoaded_of_ofData loadedMade
  have sound := toPlain_sound plainMade
  have parts := Except.forall₂_of_mapM stored
  refine ⟨plain, table, plainMade, ?_⟩
  constructor
  case loaded => exact loaded
  case sound => exact sound
  case built => exact built
  case symbols => exact congrArg GrammarData.symbols contents
  case terminalCount =>
    exact (congrArg (UInt16.toNat ∘ GrammarData.terminalCount) contents).trans
      sound.terminalCount_contents
  case start => exact congrArg GrammarData.startSymbol contents
  case productions =>
    rw [contents]
    exact parts
  case productionCount => exact parts.length_eq ▸ ids
  case lexStates => exact congrArg GrammarData.lexStates contents
  case states => exact congrArg GrammarData.states contents

end IncrementalGlr
