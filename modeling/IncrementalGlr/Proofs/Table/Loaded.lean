import IncrementalGlr.Proofs.Outcome
import IncrementalGlr.Proofs.Table.Lookup

/-!
# Loaded grammars

What a grammar that passed the check of its contents can rely on: actions stand for terminals only,
gotos for nonterminals only, and whatever they refer to exists.
-/

namespace IncrementalGlr

namespace GrammarData

variable {data : GrammarData}

/-- What the check of the contents of a grammar makes sure of. -/
structure Sound (data : GrammarData) : Prop where
  /-- There are fewer symbols than ids. -/
  symbolCount : data.symbols.length < 65535
  /-- The end of the input is a terminal. -/
  terminalCount : 0 < data.terminalCount.toNat
  /-- The terminals are symbols. -/
  terminals : data.terminalCount.toNat ≤ data.symbols.length
  /-- There is a state, and there are fewer states than ids. -/
  stateCount : 0 < data.states.length ∧ data.states.length < 65535
  /-- Every symbol is of a kind that belongs in its place. -/
  kinds : ∀ (index : Nat) info, data.symbols[index]? = some info →
    data.kindFits index info.kind = true
  /-- The start symbol is a nonterminal. -/
  start : data.isNonterminal data.startSymbol = true
  /-- The lexical rules stand for terminals that they recognise. -/
  lexRules : ∀ rule ∈ data.lexRules,
    (data.symbols[rule.symbol.index]?).map SymbolInfo.kind = some .terminal
  /-- The productions define nonterminals. -/
  productions : ∀ production ∈ data.productions, data.isNonterminal production.lhs = true
  /-- The states look for terminals only. -/
  lexStates : ∀ valid ∈ data.lexStates, ∀ symbol ∈ valid, data.isTerminal symbol = true
  /-- Every state has a lexical state. -/
  lexState : ∀ state ∈ data.states, state.lexState.index < data.lexStates.length
  /-- There are actions on terminals only. -/
  actions : ∀ state ∈ data.states, ∀ entry ∈ state.actions, data.isTerminal entry.1 = true
  /-- The shifts lead to states of the grammar. -/
  shift : ∀ state ∈ data.states, ∀ entry ∈ state.actions, ∀ target,
    .shift target ∈ entry.2 → target.index < data.states.length
  /-- The reductions are by productions of the grammar. -/
  reduce : ∀ state ∈ data.states, ∀ entry ∈ state.actions, ∀ production,
    .reduce production ∈ entry.2 → production.index < data.productions.length
  /-- There are gotos on nonterminals only. -/
  gotos : ∀ state ∈ data.states, ∀ entry ∈ state.gotos, data.isNonterminal entry.1 = true
  /-- The gotos lead to states of the grammar. -/
  targets : ∀ state ∈ data.states, ∀ entry ∈ state.gotos, entry.2.index < data.states.length

/-- A check passes if and only if its condition holds. -/
theorem ite_none_iff {α : Type} {holds : Prop} [Decidable holds] {defect : α} :
    (if holds then none else some defect) = none ↔ holds := by
  split <;> simp_all

theorem countDefect?_eq_none : data.countDefect? = none ↔
    data.symbols.length < 65535 ∧ 0 < data.terminalCount.toNat ∧
      data.terminalCount.toNat ≤ data.symbols.length ∧
        0 < data.states.length ∧ data.states.length < 65535 := by
  unfold countDefect?
  dsimp only
  split
  · simp only [reduceCtorEq, false_iff]
    omega
  · split
    · simp only [reduceCtorEq, false_iff]
      omega
    · rw [← ite_not, ite_none_iff]
      omega

theorem actionDefect?_eq_none {source : Nat} {actions : List Action} :
    actions.findSome? (data.actionDefect? source) = none ↔
      (∀ target, .shift target ∈ actions → target.index < data.states.length) ∧
        ∀ production, .reduce production ∈ actions →
          production.index < data.productions.length := by
  rw [List.findSome?_eq_none_iff]
  constructor
  · exact fun passed => ⟨fun target member => ite_none_iff.1 (passed _ member),
      fun production member => ite_none_iff.1 (passed _ member)⟩
  · rintro ⟨shifts, reductions⟩ action member
    cases action with
    | shift target => exact ite_none_iff.2 (shifts target member)
    | reduce production => exact ite_none_iff.2 (reductions production member)
    | accept => rfl

theorem cellDefect?_eq_none {source : Nat} {entry : Symbol × List Action} :
    data.cellDefect? source entry = none ↔ data.isTerminal entry.1 = true ∧
      (∀ target, .shift target ∈ entry.2 → target.index < data.states.length) ∧
        ∀ production, .reduce production ∈ entry.2 →
          production.index < data.productions.length := by
  rw [← @actionDefect?_eq_none data source]
  unfold cellDefect?
  split
  · next terminal => exact (and_iff_right terminal).symm
  · next nonterminal => exact iff_of_false nofun fun passed => nonterminal passed.1

theorem gotoDefect?_eq_none {source : Nat} {entry : Symbol × StateId} :
    data.gotoDefect? source entry = none ↔
      data.isNonterminal entry.1 = true ∧ entry.2.index < data.states.length := by
  unfold gotoDefect?
  split
  · next terminal =>
      exact iff_of_false nofun fun passed => by simp [passed.1] at terminal
  · next nonterminal =>
      rw [ite_none_iff]
      exact (and_iff_right (by simpa using nonterminal)).symm

theorem stateDefect?_eq_none {entry : StateData × Nat} :
    data.stateDefect? entry = none ↔ entry.1.lexState.index < data.lexStates.length ∧
      (∀ cell ∈ entry.1.actions, data.cellDefect? entry.2 cell = none) ∧
        ∀ goto ∈ entry.1.gotos, data.gotoDefect? entry.2 goto = none := by
  rw [← List.findSome?_eq_none_iff, ← List.findSome?_eq_none_iff, ← Option.or_eq_none_iff]
  unfold stateDefect?
  split
  · next missing => exact iff_of_false nofun fun passed => absurd passed.1 (Nat.not_lt.2 missing)
  · next known => exact (and_iff_right (Nat.lt_of_not_le known)).symm

theorem lexStateDefect?_eq_none {symbols : List Symbol} :
    data.lexStateDefect? symbols = none ↔ ∀ symbol ∈ symbols, data.isTerminal symbol = true := by
  simp [lexStateDefect?]

/-- The check passes if and only if it has made sure of everything. -/
theorem defect?_eq_none : data.defect? = none ↔ data.Sound := by
  simp only [defect?, Option.or_eq_none_iff, countDefect?_eq_none, List.findSome?_eq_none_iff,
    Prod.forall, List.mem_zipIdx_iff_getElem?, symbolDefect?, startDefect?, lexRuleDefect?,
    productionDefect?, ite_none_iff, lexStateDefect?_eq_none, stateDefect?_eq_none,
    cellDefect?_eq_none, gotoDefect?_eq_none]
  constructor
  · rintro ⟨⟨⟨⟨⟨⟨counts, kinds⟩, start⟩, lexRules⟩, productions⟩, lexStates⟩, states⟩
    obtain ⟨symbolCount, terminalCount, terminals, stateCount⟩ := counts
    have state : ∀ state ∈ data.states, _ := fun state member =>
      have ⟨index, found⟩ := List.mem_iff_getElem?.1 member
      states state index found
    exact {
      symbolCount, terminalCount, terminals, stateCount, start, lexRules, productions, lexStates
      kinds := fun index info found => kinds info index found
      lexState := fun data member => (state data member).1
      actions := fun data member entry listed => ((state data member).2.1 entry.1 entry.2 listed).1
      shift := fun data member entry listed => ((state data member).2.1 entry.1 entry.2 listed).2.1
      reduce := fun data member entry listed => ((state data member).2.1 entry.1 entry.2 listed).2.2
      gotos := fun data member entry listed => ((state data member).2.2 entry.1 entry.2 listed).1
      targets := fun data member entry listed => ((state data member).2.2 entry.1 entry.2 listed).2 }
  · intro sound
    refine ⟨⟨⟨⟨⟨⟨⟨sound.symbolCount, sound.terminalCount, sound.terminals, sound.stateCount⟩,
      fun info index found => sound.kinds index info found⟩, sound.start⟩, sound.lexRules⟩,
      sound.productions⟩, sound.lexStates⟩, fun state index found => ?_⟩
    have member := List.mem_of_getElem? found
    exact ⟨sound.lexState state member,
      fun symbol actions listed => ⟨sound.actions state member (symbol, actions) listed,
        sound.shift state member (symbol, actions) listed,
        sound.reduce state member (symbol, actions) listed⟩,
      fun symbol target listed => ⟨sound.gotos state member (symbol, target) listed,
        sound.targets state member (symbol, target) listed⟩⟩

theorem Sound.lexRule_ne (sound : data.Sound) {rule : LexRule} (member : rule ∈ data.lexRules) :
    rule.symbol ≠ .endOfInput := by
  intro isEnd
  obtain ⟨info, first, kind⟩ := Option.map_eq_some_iff.1 (sound.lexRules rule member)
  have fits := sound.kinds _ info first
  rw [isEnd, kind] at fits
  cases fits

theorem Sound.nonterminal_ne (sound : data.Sound) {symbol : Symbol}
    (nonterminal : data.isNonterminal symbol = true) : symbol ≠ .endOfInput := by
  rintro rfl
  have terminals := sound.terminalCount
  simp only [isNonterminal, Bool.and_eq_true, decide_eq_true_eq] at nonterminal
  have zero : Symbol.endOfInput.index = 0 := rfl
  omega

end GrammarData

/-- Whether the tables of a grammar are those of its contents, and these passed the check. -/
structure Grammar.IsLoaded (grammar : Grammar) : Prop where
  /-- The contents passed the check. -/
  sound : grammar.data.Sound
  /-- The symbols. -/
  symbols : grammar.symbols = grammar.data.symbols.toArray
  /-- The actions. -/
  actionTable : grammar.actionTable =
    .ofStates grammar.data.terminalCount.toNat grammar.data.states
  /-- The gotos. -/
  gotoTable : grammar.gotoTable = GotoTable.ofStates grammar.data.terminalCount.toNat
    (grammar.data.symbols.length - grammar.data.terminalCount.toNat) grammar.data.states
  /-- The productions. -/
  productions : grammar.productions = grammar.data.productions.toArray
  /-- The lexical rules. -/
  lexRules : grammar.lexRules = grammar.data.lexRules.toArray
  /-- There is a pattern for each lexical rule. -/
  patterns : grammar.lexicon.patterns.length = grammar.data.lexRules.length
  /-- The terminals of the lexical states. -/
  validTable : grammar.validTable = (grammar.data.lexStates.map SymbolSet.ofList).toArray
  /-- All terminals. -/
  allTerminals : grammar.allTerminals =
    .ofList ((List.range grammar.data.terminalCount.toNat).tail.map Symbol.ofIndex)

/-- The patterns of a lexicon are what the patterns of its rules mean. -/
theorem Lexicon.forall₂_patterns {nameOf : Symbol → String} {rules : List LexRule}
    {lexicon : Lexicon} (compiled : Lexicon.compile nameOf rules = .ok lexicon) :
    List.Forall₂ (fun rule pattern => rule.pattern.compile? = some pattern) rules
      lexicon.patterns := by
  obtain ⟨patterns, each, rest⟩ := Except.bind_eq_ok.1 compiled
  dsimp only at rest
  split at rest
  · cases rest
  · cases rest
    refine (Except.forall₂_of_mapM each).imp fun rule pattern meant => ?_
    split at meant
    · next known =>
      cases meant
      exact known
    · cases meant

theorem Lexicon.length_patterns {nameOf : Symbol → String} {rules : List LexRule}
    {lexicon : Lexicon} (compiled : Lexicon.compile nameOf rules = .ok lexicon) :
    lexicon.patterns.length = rules.length :=
  (Lexicon.forall₂_patterns compiled).length_eq.symm

namespace Grammar

theorem isLoaded_of_withChecksum {data : GrammarData} {checksum : UInt32} {grammar : Grammar}
    (loaded : withChecksum data checksum = .ok grammar) :
    grammar.data = data ∧ grammar.IsLoaded := by
  unfold withChecksum at loaded
  cases passed : data.defect? with
  | some defect =>
      rw [passed] at loaded
      cases loaded
  | none =>
      rw [passed] at loaded
      obtain ⟨lexicon, compiled, only⟩ := Except.bind_eq_ok.1 loaded
      cases only
      exact ⟨rfl, GrammarData.defect?_eq_none.1 passed, rfl, rfl, rfl, rfl, rfl,
        Lexicon.length_patterns compiled, rfl, rfl⟩

theorem isLoaded_of_ofData {data : GrammarData} {grammar : Grammar}
    (loaded : ofData data = .ok grammar) : grammar.data = data ∧ grammar.IsLoaded :=
  isLoaded_of_withChecksum loaded

namespace IsLoaded

variable {grammar : Grammar} (loaded : grammar.IsLoaded) {state : StateId} {symbol : Symbol}

include loaded

/-- No lexical rule stands for the end of the input. -/
theorem lexRule_ne : ∀ rule ∈ grammar.lexRules, rule.symbol ≠ .endOfInput := by
  intro rule member
  rw [loaded.lexRules] at member
  exact loaded.sound.lexRule_ne (by simpa using member)

theorem length_patterns : grammar.lexicon.patterns.length = grammar.lexRules.size := by
  rw [loaded.patterns, loaded.lexRules, List.size_toArray]

/-- The actions of a state on a symbol are listed for it. -/
theorem actions_listed {action : Action} (member : action ∈ grammar.actions state symbol) :
    ∃ stateData, grammar.data.states[state.index]? = some stateData ∧
      ∃ entry ∈ stateData.actions, entry.1 = symbol ∧ action ∈ entry.2 := by
  unfold actions at member
  split at member
  · cases member
  · next terminal =>
      rw [loaded.actionTable] at member
      obtain ⟨entry, entryMember, place, inside⟩ := ActionTable.mem_read_ofStates member
      obtain ⟨⟨stateData, index⟩, stateMember, listed⟩ := List.mem_flatMap.1 entryMember
      obtain ⟨source, sourceMember, rfl⟩ := List.mem_map.1 listed
      have found := List.mem_zipIdx_iff_getElem?.1 stateMember
      have small := loaded.sound.actions stateData (List.mem_of_getElem? found) source sourceMember
      simp only [GrammarData.isTerminal, decide_eq_true_eq] at small
      obtain ⟨rfl, same⟩ := row_column_inj small (Nat.lt_of_not_le terminal) place
      exact ⟨stateData, found, source, sourceMember, Symbol.index_inj same, inside⟩

/-- A production that is reduced belongs to the grammar. -/
theorem reduce_listed {production : ProductionId}
    (member : .reduce production ∈ grammar.actions state symbol) :
    grammar.data.productions[production.index]? = some (grammar.production production) := by
  obtain ⟨stateData, found, entry, entryMember, -, inside⟩ := loaded.actions_listed member
  have bound := loaded.sound.reduce stateData (List.mem_of_getElem? found) entry entryMember
    production inside
  rw [Grammar.production, loaded.productions, List.getElem?_toArray,
    List.getElem?_eq_getElem bound, Option.getD_some]

theorem nonterminalCount : grammar.symbolCount - grammar.terminalCount =
    grammar.data.symbols.length - grammar.data.terminalCount.toNat :=
  congrArg (·.size - grammar.terminalCount) loaded.symbols

theorem nonterminal_of_goto {index : Nat} {stateData : StateData}
    (found : grammar.data.states[index]? = some stateData) {entry : Symbol × StateId}
    (listed : entry ∈ stateData.gotos) :
    grammar.data.terminalCount.toNat ≤ entry.1.index ∧
      entry.1.index < grammar.data.symbols.length := by
  have nonterminal := loaded.sound.gotos stateData (List.mem_of_getElem? found) entry listed
  simpa [GrammarData.isNonterminal] using nonterminal

/-- A goto of a state is listed for it. -/
theorem goto_listed {next : StateId} (found : grammar.goto? state symbol = some next) :
    ∃ stateData, grammar.data.states[state.index]? = some stateData ∧
      (symbol, next) ∈ stateData.gotos := by
  unfold goto? at found
  dsimp only at found
  split at found
  · cases found
  · split at found
    · cases found
    · next terminal inside =>
        have stored := Option.join_eq_some_iff.1 found
        rw [loaded.gotoTable] at stored
        obtain ⟨⟨stateData, index⟩, stateMember, listed⟩ :=
          List.mem_flatMap.1 (GotoTable.mem_entries_of_ofStates stored)
        obtain ⟨⟨source, target⟩, sourceMember, same⟩ := List.mem_map.1 listed
        obtain ⟨place, rfl⟩ := Prod.mk.inj same
        have stateFound := List.mem_zipIdx_iff_getElem?.1 stateMember
        obtain ⟨lower, upper⟩ := loaded.nonterminal_of_goto stateFound sourceMember
        dsimp only at place lower upper
        rw [loaded.nonterminalCount] at place inside
        have terminals : grammar.terminalCount = grammar.data.terminalCount.toNat := rfl
        obtain ⟨rfl, column⟩ := row_column_inj (by omega) (by omega) place
        obtain rfl : source = symbol := Symbol.index_inj (by omega)
        exact ⟨stateData, stateFound, sourceMember⟩

/-- A goto that is listed for a state is found. -/
theorem goto_found {stateData : StateData}
    (found : grammar.data.states[state.index]? = some stateData) {next : StateId}
    (listed : (symbol, next) ∈ stateData.gotos) :
    ∃ target, grammar.goto? state symbol = some target := by
  obtain ⟨lower, upper⟩ := loaded.nonterminal_of_goto found listed
  dsimp only at lower upper
  have terminals : grammar.terminalCount = grammar.data.terminalCount.toNat := rfl
  have stateBound : state.index < grammar.data.states.length :=
    (List.getElem?_eq_some_iff.1 found).1
  have entered : (state.index *
      (grammar.data.symbols.length - grammar.data.terminalCount.toNat) +
        (symbol.index - grammar.data.terminalCount.toNat), next) ∈
      GotoTable.entries grammar.data.terminalCount.toNat
        (grammar.data.symbols.length - grammar.data.terminalCount.toNat) grammar.data.states :=
    List.mem_flatMap.2 ⟨(stateData, state.index), List.mem_zipIdx_iff_getElem?.2 found,
      List.mem_map.2 ⟨(symbol, next), listed, rfl⟩⟩
  have column : symbol.index - grammar.data.terminalCount.toNat <
      grammar.data.symbols.length - grammar.data.terminalCount.toNat := by omega
  have inside := row_column_lt stateBound column
  obtain ⟨target, stored⟩ := GotoTable.ofStates_isSome inside entered
  unfold goto?
  dsimp only
  rw [if_neg (by omega), loaded.nonterminalCount, if_neg (by omega), loaded.gotoTable]
  exact ⟨target, Option.join_eq_some_iff.2 stored⟩

end IsLoaded

end Grammar

end IncrementalGlr
