import IncrementalGlr.Proofs.Blob.Compiled
import IncrementalGlr.Proofs.Confinement.Lookups
import IncrementalGlr.Proofs.Errors.Recovery
import IncrementalGlr.Proofs.Table.Packed

/-!
# Reserved ids

The largest symbol, production and lexical state stand for errors, for nodes that no production built
and for the search for any terminal.  The check of a grammar's contents counts the symbols, so none
of them is the error symbol.  It does not count the productions and the lexical states: with more of
them than there are other ids, the reserved one stands for two things.  Compiled descriptions have
fewer.
-/

namespace IncrementalGlr

namespace Grammar

/-- Whether the id of nodes that no production built is that of no production that is reduced.  Then
the root of a text has the precedence of its own production. -/
structure ReservesProduction (grammar : Grammar) : Prop where
  /-- No reduction refers to the id. -/
  reduce : ∀ source ∈ grammar.data.states, ∀ entry ∈ source.actions, ∀ production,
    .reduce production ∈ entry.2 → production ≠ .none
  /-- The precedence that a node of the production has by itself is found. -/
  precedence : ∀ state symbol production, .reduce production ∈ grammar.actions state symbol →
    ParseRun.ownPrecedence grammar production =
      (grammar.production production).dynamicPrecedence.toInt

/-- Whether the id of the search for any terminal is not that of a state's lexical state.  Then each
state looks for the terminals that are listed for it. -/
structure ReservesLexState (grammar : Grammar) : Prop where
  /-- No state uses the id. -/
  used : ∀ source ∈ grammar.data.states, source.lexState ≠ .errorMode
  /-- The terminals that are listed for a state are those that are looked for. -/
  valid : ∀ (state : StateId) source, grammar.data.states[state.index]? = some source →
    ∃ listed, grammar.data.lexStates[source.lexState.index]? = some listed ∧
      ∀ symbol, (grammar.validSymbols (grammar.lexState state)).contains symbol = true ↔
        symbol ∈ listed

/-- Whether all reserved ids are kept for what they stand for. -/
structure KeepsReserved (grammar : Grammar) : Prop where
  /-- No symbol is the error symbol. -/
  symbol : ∀ index < grammar.symbolCount, Symbol.ofIndex index ≠ .error
  /-- Productions are told from no production. -/
  production : grammar.ReservesProduction
  /-- Lexical states are told from the search for any terminal. -/
  lexState : grammar.ReservesLexState

section Loaded

variable {grammar : Grammar}

theorem IsLoaded.ofIndex_ne_error (loaded : grammar.IsLoaded) {index : Nat}
    (inside : index < grammar.symbolCount) : Symbol.ofIndex index ≠ .error := by
  have count := loaded.sound.symbolCount
  rw [symbolCount, loaded.symbols, List.size_toArray] at inside
  intro same
  have place := congrArg Symbol.index same
  rw [Symbol.index_ofIndex (by omega), Symbol.index_error] at place
  omega

/-- With as many productions as there are other ids, or fewer, no reduction is by the reserved
one. -/
theorem IsLoaded.reduce_ne_none (loaded : grammar.IsLoaded)
    (few : grammar.data.productions.length < 65536) : ∀ source ∈ grammar.data.states,
      ∀ entry ∈ source.actions, ∀ production, .reduce production ∈ entry.2 →
        production ≠ .none := by
  rintro source member entry listed production reduces rfl
  have inside := loaded.sound.reduce source member entry listed _ reduces
  have place : ProductionId.none.index = 65535 := rfl
  omega

theorem IsLoaded.reservesProduction (loaded : grammar.IsLoaded)
    (reduce : ∀ source ∈ grammar.data.states, ∀ entry ∈ source.actions, ∀ production,
      .reduce production ∈ entry.2 → production ≠ .none) : grammar.ReservesProduction := by
  refine ⟨reduce, fun state symbol production member => ?_⟩
  obtain ⟨source, found, entry, listed, -, reduces⟩ := loaded.actions_listed member
  exact if_neg (reduce source (List.mem_of_getElem? found) entry listed production reduces)

theorem IsFilled.lexState_eq (filled : grammar.IsFilled) {state : StateId} {source : StateData}
    (found : grammar.data.states[state.index]? = some source) :
    grammar.lexState state = source.lexState := by
  rw [Grammar.lexState, filled.lexStateTable, List.getElem?_toArray, List.getElem?_map, found]
  rfl

/-- In any other lexical state than the search for all terminals, those that are listed are looked
for. -/
theorem IsLoaded.validSymbols_eq (loaded : grammar.IsLoaded) {lexState : LexStateId}
    (other : lexState ≠ .errorMode) {listed : List Symbol}
    (found : grammar.data.lexStates[lexState.index]? = some listed) :
    grammar.validSymbols lexState = .ofList listed := by
  rw [validSymbols, if_neg other, loaded.validTable, List.getElem?_toArray, List.getElem?_map,
    found]
  rfl

/-- With as many lexical states as there are other ids, or fewer, no state uses the reserved
one. -/
theorem IsLoaded.lexState_ne_errorMode (loaded : grammar.IsLoaded)
    (few : grammar.data.lexStates.length < 65536) :
    ∀ source ∈ grammar.data.states, source.lexState ≠ .errorMode := by
  intro source member same
  have inside := loaded.sound.lexState source member
  have place : LexStateId.errorMode.index = 65535 := rfl
  rw [same] at inside
  omega

theorem IsFilled.reservesLexState (filled : grammar.IsFilled)
    (used : ∀ source ∈ grammar.data.states, source.lexState ≠ .errorMode) :
    grammar.ReservesLexState := by
  refine ⟨used, fun state source found => ?_⟩
  have member := List.mem_of_getElem? found
  have listed := List.getElem?_eq_getElem (filled.sound.lexState source member)
  refine ⟨_, listed, fun symbol => ?_⟩
  rw [filled.lexState_eq found, filled.validSymbols_eq (used source member) listed,
    SymbolSet.contains_ofList]

theorem IsFilled.keepsReserved (filled : grammar.IsFilled)
    (productions : grammar.data.productions.length < 65536)
    (lexStates : grammar.data.lexStates.length < 65536) : grammar.KeepsReserved where
  symbol _ := filled.ofIndex_ne_error
  production := filled.reservesProduction (filled.reduce_ne_none productions)
  lexState := filled.reservesLexState (filled.lexState_ne_errorMode lexStates)

/-- Whether the reserved ids are kept shows in the states. -/
theorem IsFilled.keepsReserved_iff (filled : grammar.IsFilled) : grammar.KeepsReserved ↔
    (∀ source ∈ grammar.data.states, source.lexState ≠ .errorMode) ∧
      ∀ source ∈ grammar.data.states, ∀ entry ∈ source.actions, ∀ production,
        .reduce production ∈ entry.2 → production ≠ .none := by
  constructor
  · exact fun kept => ⟨kept.lexState.used, kept.production.reduce⟩
  · exact fun ⟨used, reduce⟩ => ⟨fun _ => filled.ofIndex_ne_error,
      filled.reservesProduction reduce, filled.reservesLexState used⟩

end Loaded

/-- Every compiled description keeps the reserved ids for what they stand for. -/
theorem keepsReserved_of_compile {description : Description} {compiled : Compiled}
    (made : description.compile = .ok compiled) : compiled.grammar.KeepsReserved := by
  obtain ⟨plain, table, productions, plainMade, tableMade, stored, ids, loaded⟩ :=
    Description.compile_eq_ok made
  obtain ⟨contents, filled⟩ := isFilled_of_ofData loaded
  obtain ⟨automaton, comes⟩ :=
    Lalr.Table.madeFrom_of_ofGrammar (Description.toPlain_sound plainMade) tableMade
  have states : table.states.length < 65535 := comes.size ▸ comes.small
  have lexStates := comes.lexical.count
  refine filled.keepsReserved ?_ ?_
  · rw [contents]
    exact Nat.lt_succ_of_lt ids
  · rw [contents]
    exact Nat.lt_succ_of_lt (Nat.lt_of_le_of_lt lexStates states)

/-- A grammar keeps the reserved ids for what they stand for if and only if none of its states uses
them.  So it does if its contents have as many productions and lexical states as there are other
ids, or fewer, and if it was compiled from a description. -/
theorem reserved_kept {data : GrammarData} {grammar : Grammar} (made : ofData data = .ok grammar) :
    (grammar.KeepsReserved ↔
      (∀ source ∈ data.states, source.lexState ≠ .errorMode) ∧
        ∀ source ∈ data.states, ∀ entry ∈ source.actions, ∀ production,
          .reduce production ∈ entry.2 → production ≠ .none) ∧
    (data.productions.length < 65536 → data.lexStates.length < 65536 → grammar.KeepsReserved) ∧
    ∀ description compiled, Description.compile description = .ok compiled →
      compiled.grammar.KeepsReserved := by
  obtain ⟨rfl, filled⟩ := isFilled_of_ofData made
  exact ⟨filled.keepsReserved_iff, filled.keepsReserved, fun _ _ => keepsReserved_of_compile⟩

/-- Contents with two entries for the same terminal have few productions and lexical states, and
texts in brackets are compiled. -/
theorem reserved_kept_twice :
    (∃ grammar, ofData .twice = .ok grammar ∧ grammar.KeepsReserved) ∧
    ∃ compiled, Description.nested.compile = .ok compiled ∧ compiled.grammar.KeepsReserved := by
  constructor
  · have valid : (ofData GrammarData.twice).isOk = true := by decide +kernel
    obtain ⟨grammar, loaded⟩ := Except.exists_of_isOk valid
    exact ⟨grammar, loaded, (reserved_kept loaded).2.1 (by decide) (by decide)⟩
  · have valid : Description.nested.compile.isOk = true := by decide +kernel
    obtain ⟨compiled, made⟩ := Except.exists_of_isOk valid
    obtain ⟨plain, table, productions, -, -, -, -, loaded⟩ := Description.compile_eq_ok made
    exact ⟨compiled, made, (reserved_kept loaded).2.2 _ _ made⟩

end Grammar

/-- Contents with a lexical state for each id, the last of which looks for the first of two
terminals, and a state that is in it. -/
def GrammarData.crowded : GrammarData where
  name := "reserved"
  symbols := [⟨"end", .endOfInput, false, false, false⟩, ⟨"a", .terminal, true, false, false⟩,
    ⟨"b", .terminal, true, false, false⟩, ⟨"s", .nonterminal, true, true, false⟩]
  terminalCount := 3
  startSymbol := ⟨3⟩
  lexRules := [⟨⟨1⟩, .literal "a", 0⟩, ⟨⟨2⟩, .literal "b", 0⟩]
  productions := []
  lexStates := List.replicate 65535 [] ++ [[⟨1⟩]]
  states := [⟨.errorMode, [(⟨1⟩, [.accept])], []⟩]

theorem GrammarData.sound_crowded : crowded.Sound where
  symbolCount := by decide
  terminalCount := by decide
  terminals := by decide
  stateCount := by decide
  kinds index info found := by
    have each : ∀ entry ∈ crowded.symbols.zipIdx,
        crowded.kindFits entry.2 entry.1.kind = true := by decide
    exact each (info, index) (List.mem_zipIdx_iff_getElem?.2 found)
  start := by decide
  lexRules := by decide
  productions := by decide
  lexStates valid member symbol listed := by
    rw [crowded, List.mem_append, List.mem_replicate, List.mem_singleton] at member
    obtain ⟨-, rfl⟩ | rfl := member
    · cases listed
    · cases List.mem_singleton.1 listed
      decide
  lexState state member := by
    cases List.mem_singleton.1 member
    rw [crowded, List.length_append, List.length_replicate]
    decide
  actions := by decide
  shift state member entry listed target shifts := by
    cases List.mem_singleton.1 member
    cases List.mem_singleton.1 listed
    cases List.mem_singleton.1 shifts
  reduce state member entry listed production reduces := by
    cases List.mem_singleton.1 member
    cases List.mem_singleton.1 listed
    cases List.mem_singleton.1 reduces
  gotos := by decide
  targets := by decide

namespace Grammar

/-- Sound contents are loaded if their lexical rules are well formed. -/
theorem exists_ofData {data : GrammarData} (sound : data.Sound)
    (lexical : (Lexicon.compile (fun symbol =>
      ((data.symbols.toArray[symbol.index]?).map SymbolInfo.name).getD "") data.lexRules).isOk =
        true) : ∃ grammar, ofData data = .ok grammar := by
  obtain ⟨lexicon, compiled⟩ := Except.exists_of_isOk lexical
  unfold ofData withChecksum
  rw [GrammarData.defect?_eq_none.2 sound]
  exact ⟨_, Except.bind_eq_ok.2 ⟨lexicon, compiled, rfl⟩⟩

/-- With a lexical state for each id, the state that is in the last one looks for all terminals and
not only for the one that is listed. -/
theorem reserved_lexState_crowded : ∃ grammar, ofData .crowded = .ok grammar ∧
    grammar.lexState ⟨0⟩ = .errorMode ∧
    grammar.data.lexStates[(grammar.lexState ⟨0⟩).index]? = some [⟨1⟩] ∧
    (grammar.validSymbols (grammar.lexState ⟨0⟩)).contains ⟨2⟩ = true ∧
    ¬ grammar.KeepsReserved := by
  obtain ⟨grammar, made⟩ := exists_ofData GrammarData.sound_crowded (by decide +kernel)
  obtain ⟨contents, filled⟩ := isFilled_of_ofData made
  have found : grammar.data.states[(⟨0⟩ : StateId).index]? =
      some ⟨.errorMode, [(⟨1⟩, [.accept])], []⟩ := contents ▸ rfl
  have mode : grammar.lexState ⟨0⟩ = .errorMode := filled.lexState_eq found
  refine ⟨grammar, made, mode, ?_, ?_, fun kept => ?_⟩
  · rw [mode, contents]
    change (List.replicate 65535 [] ++ [[(⟨1⟩ : Symbol)]])[65535]? = some [⟨1⟩]
    rw [List.getElem?_append_right (Nat.le_of_eq List.length_replicate), List.length_replicate]
    rfl
  · rw [mode, validSymbols, if_pos rfl, filled.allTerminals, contents]
    decide +kernel
  · exact kept.lexState.used _ (List.mem_of_getElem? found) rfl

end Grammar

end IncrementalGlr
