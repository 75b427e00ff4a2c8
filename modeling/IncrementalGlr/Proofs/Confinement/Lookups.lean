import IncrementalGlr.Proofs.Table.Loaded
import IncrementalGlr.Token.Lexer

/-!
# Lookups in the tables of a grammar

What a parse looks up in the tables of a grammar is named by ids.  Ids that the contents of the
grammar have lead to entries inside the tables, and what is read there stays the same whatever
stands behind the ends of the tables.
-/

namespace IncrementalGlr

namespace GrammarData

/-- The actions of all states, one after the other. -/
def allActions (data : GrammarData) : List Action :=
  data.states.flatMap fun state => state.actions.flatMap Prod.snd

/-- Whether the place of each cell in the list of all actions fits the words that hold it: sixteen
bits for the number of its actions and thirty-two for where they start. -/
structure FitsWords (data : GrammarData) : Prop where
  /-- No terminal has too many actions in a state. -/
  cell : ∀ state ∈ data.states, ∀ entry ∈ state.actions, entry.2.length < 65536
  /-- All states together do not have too many either. -/
  total : data.allActions.length < 4294967296

end GrammarData

namespace ActionTable

/-- Whether the cells of a table fit the words that hold them. -/
def FitsWords (table : ActionTable) : Prop :=
  ∀ cell ∈ table.cells, cell.start < 4294967296 ∧ cell.size < 65536

theorem size_putAll (entries : List (Nat × List Action)) (table : ActionTable) :
    (entries.foldl put table).cells.size = table.cells.size := by
  induction entries generalizing table with
  | nil => rfl
  | cons entry rest induction =>
      rw [List.foldl_cons, induction, put, Array.size_setIfInBounds]

/-- There is a cell for each state and terminal. -/
theorem size_cells_ofStates (terminals : Nat) (states : List StateData) :
    (ofStates terminals states).cells.size = states.length * terminals := by
  rw [ofStates_eq, size_putAll, Array.size_replicate]

theorem actions_putAll (entries : List (Nat × List Action)) (table : ActionTable) :
    (entries.foldl put table).actions = table.actions ++ (entries.flatMap Prod.snd).toArray := by
  induction entries generalizing table with
  | nil => simp
  | cons entry rest induction => simp [induction]

/-- The actions of all cells are those of all states. -/
theorem actions_ofStates (terminals : Nat) (data : GrammarData) :
    (ofStates terminals data.states).actions = data.allActions.toArray := by
  have states := List.zipIdx_map_fst 0 data.states
  have all : (entries terminals data.states).flatMap Prod.snd = data.allActions :=
    calc
      _ = (data.states.zipIdx.map Prod.fst).flatMap
          fun state => state.actions.flatMap Prod.snd := by
        simp only [entries, List.flatMap_assoc, List.flatMap_map]
      _ = _ := by rw [states, GrammarData.allActions]
  rw [ofStates_eq, actions_putAll, all, Array.empty_append]

/-- A cell that is not empty is as large as what was entered last. -/
theorem source_of_putAll {entries : List (Nat × List Action)} {table : ActionTable} {cell : Cell}
    (member : cell ∈ (entries.foldl put table).cells) :
    cell ∈ table.cells ∨ ∃ entry ∈ entries, cell.size = entry.2.length := by
  induction entries generalizing table with
  | nil => exact .inl member
  | cons entry rest induction =>
      rcases induction member with before | ⟨source, sourceMember, size⟩
      · rcases Array.mem_or_eq_of_mem_setIfInBounds before with old | rfl
        · exact .inl old
        · exact .inr ⟨entry, List.mem_cons_self, rfl⟩
      · exact .inr ⟨source, List.mem_cons_of_mem entry sourceMember, size⟩

/-- If the contents of a grammar fit the words of a table, so do all its cells. -/
theorem fitsWords_ofStates {data : GrammarData} (fits : data.FitsWords) (terminals : Nat) :
    (ofStates terminals data.states).FitsWords := by
  intro cell member
  obtain ⟨position, found⟩ := Array.mem_iff_getElem?.1 member
  have bound := (holds_ofStates terminals data.states position cell found).1
  rw [actions_ofStates, List.size_toArray] at bound
  refine ⟨Nat.lt_of_le_of_lt (Nat.le_of_add_right_le bound) fits.total, ?_⟩
  rw [ofStates_eq] at member
  rcases source_of_putAll member with empty | ⟨entry, entryMember, size⟩
  · obtain ⟨-, rfl⟩ := Array.mem_replicate.1 empty
    exact Nat.zero_lt_succ _
  · obtain ⟨⟨state, index⟩, stateMember, listed⟩ := List.mem_flatMap.1 entryMember
    obtain ⟨source, sourceMember, rfl⟩ := List.mem_map.1 listed
    rw [size]
    exact fits.cell state (List.fst_mem_of_mem_zipIdx stateMember) source sourceMember

end ActionTable

theorem GotoTable.size_enter (entries : List (Nat × StateId)) (table : Array (Option StateId)) :
    (entries.foldl (fun table entry => table.setIfInBounds entry.1 (some entry.2)) table).size =
      table.size := by
  induction entries generalizing table with
  | nil => rfl
  | cons entry rest induction => rw [List.foldl_cons, induction, Array.size_setIfInBounds]

/-- There is an entry for each state and nonterminal. -/
theorem GotoTable.size_ofStates (terminals nonterminals : Nat) (states : List StateData) :
    (ofStates terminals nonterminals states).size = states.length * nonterminals := by
  rw [ofStates_eq, size_enter, Array.size_replicate]

namespace Grammar

/-- What is looked up in the tables of a grammar. -/
inductive Lookup
  /-- The actions of a state on a symbol. -/
  | actions (state : StateId) (symbol : Symbol)
  /-- The state entered from a state after a reduction to a symbol. -/
  | goto (state : StateId) (symbol : Symbol)
  /-- A production. -/
  | production (id : ProductionId)
  /-- The lexical state of a state. -/
  | lexState (state : StateId)
  /-- The terminals of a lexical state and whether some of them are for an external scanner. -/
  | validSymbols (mode : LexStateId)
  /-- A lexical rule. -/
  | lexRule (rule : Nat)

namespace Lookup

/-- Whether the contents of a grammar have what the ids of a lookup name. -/
def InRange (data : GrammarData) : Lookup → Prop
  | actions state _ => state.index < data.states.length
  | goto state _ => state.index < data.states.length
  | production id => id.index < data.productions.length
  | lexState state => state.index < data.states.length
  | validSymbols mode => mode = .errorMode ∨ mode.index < data.lexStates.length
  | lexRule rule => rule < data.lexRules.length

/-- Whether a lookup reads inside the tables of a grammar only.  There are no actions on
nonterminals and no gotos on terminals to be read. -/
def Inside (grammar : Grammar) : Lookup → Prop
  | actions state symbol => symbol.index < grammar.terminalCount →
      ∃ cell, grammar.actionTable.cells[state.index * grammar.terminalCount + symbol.index]? =
          some cell ∧ cell.start + cell.size ≤ grammar.actionTable.actions.size
  | goto state symbol => grammar.terminalCount ≤ symbol.index →
      symbol.index < grammar.symbolCount →
        state.index * (grammar.symbolCount - grammar.terminalCount) +
          (symbol.index - grammar.terminalCount) < grammar.gotoTable.size
  | production id => id.index < grammar.productions.size
  | lexState state => state.index < grammar.lexStateTable.size
  | validSymbols mode => mode = .errorMode ∨
      mode.index < grammar.validTable.size ∧ mode.index < grammar.externalTable.size
  | lexRule rule => rule < grammar.lexRules.size

end Lookup

/-- Whether all tables of a grammar are those of its contents. -/
structure IsFilled (grammar : Grammar) : Prop extends IsLoaded grammar where
  /-- The lexical states of all states. -/
  lexStateTable : grammar.lexStateTable = (grammar.data.states.map StateData.lexState).toArray
  /-- The lexical states that have terminals for an external scanner or not. -/
  externalTable : grammar.externalTable =
    (grammar.data.lexStates.map fun list => list.any (isExternal grammar.symbols)).toArray

theorem isFilled_of_ofData {data : GrammarData} {grammar : Grammar}
    (made : ofData data = .ok grammar) : grammar.data = data ∧ grammar.IsFilled := by
  obtain ⟨contents, loaded⟩ := isLoaded_of_ofData made
  unfold ofData withChecksum at made
  cases passed : data.defect? with
  | some defect =>
      rw [passed] at made
      cases made
  | none =>
      rw [passed] at made
      obtain ⟨lexicon, -, only⟩ := Except.bind_eq_ok.1 made
      cases only
      exact ⟨contents, loaded, rfl, rfl⟩

namespace IsFilled

variable {grammar : Grammar} (filled : grammar.IsFilled)

include filled

/-- The lexical state of a state is one of the grammar. -/
theorem lexState_lt {state : StateId} (known : state.index < grammar.data.states.length) :
    (grammar.lexState state).index < grammar.data.lexStates.length := by
  have found : grammar.lexState state = grammar.data.states[state.index].lexState := by
    rw [Grammar.lexState, filled.lexStateTable, List.getElem?_toArray, List.getElem?_map,
      List.getElem?_eq_getElem known]
    rfl
  rw [found]
  exact filled.sound.lexState _ (List.getElem_mem known)

/-- What is in range is inside the tables. -/
theorem inside {lookup : Lookup} (inRange : lookup.InRange grammar.data) :
    lookup.Inside grammar := by
  cases lookup with
  | actions state symbol =>
      intro terminal
      have bound := row_column_lt inRange terminal
      have size := ActionTable.size_cells_ofStates grammar.data.terminalCount.toNat
        grammar.data.states
      rw [← filled.actionTable] at size
      have found := Array.getElem?_eq_getElem (Nat.lt_of_lt_of_eq bound size.symm)
      have holds := ActionTable.holds_ofStates grammar.data.terminalCount.toNat grammar.data.states
      rw [← filled.actionTable] at holds
      exact ⟨_, found, (holds _ _ found).1⟩
  | goto state symbol =>
      intro lower upper
      have size := GotoTable.size_ofStates grammar.data.terminalCount.toNat
        (grammar.data.symbols.length - grammar.data.terminalCount.toNat) grammar.data.states
      rw [← filled.gotoTable, ← filled.nonterminalCount] at size
      rw [size]
      exact row_column_lt inRange (by omega)
  | production id =>
      rw [Lookup.Inside, filled.productions, List.size_toArray]
      exact inRange
  | lexState state =>
      rw [Lookup.Inside, filled.lexStateTable, List.size_toArray, List.length_map]
      exact inRange
  | validSymbols mode =>
      rw [Lookup.Inside, filled.validTable, List.size_toArray, List.length_map,
        filled.externalTable, List.size_toArray, List.length_map]
      exact inRange.imp_right fun known => ⟨known, known⟩
  | lexRule rule =>
      rw [Lookup.Inside, filled.lexRules, List.size_toArray]
      exact inRange

end IsFilled

/-- What may stand behind the ends of the tables of a grammar. -/
structure Padding where
  /-- Behind the cells. -/
  cells : Array Cell
  /-- Behind the actions. -/
  actions : Array Action
  /-- Behind the gotos. -/
  gotos : Array (Option StateId)
  /-- Behind the productions. -/
  productions : Array Production
  /-- Behind the lexical states of all states. -/
  lexStates : Array LexStateId
  /-- Behind the lexical rules. -/
  lexRules : Array LexRule
  /-- Behind the terminals of all lexical states. -/
  valid : Array SymbolSet
  /-- Behind the lexical states that have terminals for an external scanner or not. -/
  external : Array Bool

/-- The grammar with something behind the ends of its tables. -/
def padded (grammar : Grammar) (padding : Padding) : Grammar :=
  { grammar with
    actionTable.cells := grammar.actionTable.cells ++ padding.cells
    actionTable.actions := grammar.actionTable.actions ++ padding.actions
    gotoTable := grammar.gotoTable ++ padding.gotos
    productions := grammar.productions ++ padding.productions
    lexStateTable := grammar.lexStateTable ++ padding.lexStates
    lexRules := grammar.lexRules ++ padding.lexRules
    validTable := grammar.validTable ++ padding.valid
    externalTable := grammar.externalTable ++ padding.external }

section Padded

variable {grammar : Grammar} (padding : Padding) {state : StateId} {symbol : Symbol}

theorem actions_padded (inside : (Lookup.actions state symbol).Inside grammar) :
    (grammar.padded padding).actions state symbol = grammar.actions state symbol := by
  have terminals : (grammar.padded padding).terminalCount = grammar.terminalCount := rfl
  unfold actions
  rw [terminals]
  split
  · rfl
  · next terminal =>
      obtain ⟨cell, found, bound⟩ := inside (Nat.lt_of_not_le terminal)
      have kept : (grammar.padded padding).actionTable.cells[
          state.index * grammar.terminalCount + symbol.index]? = some cell := by
        rw [← found]
        exact Array.getElem?_append_left (Array.getElem?_eq_some_iff.1 found).1
      rw [ActionTable.read, ActionTable.read, kept, found]
      simp [padded, Array.extract_append, Nat.sub_eq_zero_of_le bound]

theorem goto?_padded (inside : (Lookup.goto state symbol).Inside grammar) :
    (grammar.padded padding).goto? state symbol = grammar.goto? state symbol := by
  have terminals : (grammar.padded padding).terminalCount = grammar.terminalCount := rfl
  have symbols : (grammar.padded padding).symbolCount = grammar.symbolCount := rfl
  unfold goto?
  rw [terminals, symbols]
  dsimp only
  split
  · rfl
  · split
    · rfl
    · next nonterminal known =>
        have bound := inside (by omega) (by omega)
        exact congrArg Option.join (Array.getElem?_append_left bound)

theorem production_padded {id : ProductionId} (inside : (Lookup.production id).Inside grammar) :
    (grammar.padded padding).production id = grammar.production id :=
  congrArg (·.getD default) (Array.getElem?_append_left inside)

theorem lexState_padded (inside : (Lookup.lexState state).Inside grammar) :
    (grammar.padded padding).lexState state = grammar.lexState state :=
  congrArg (·.getD default) (Array.getElem?_append_left inside)

theorem validSymbols_padded {mode : LexStateId}
    (inside : (Lookup.validSymbols mode).Inside grammar) :
    (grammar.padded padding).validSymbols mode = grammar.validSymbols mode ∧
      (grammar.padded padding).hasExternalSymbols mode = grammar.hasExternalSymbols mode := by
  by_cases errorMode : mode = .errorMode
  · subst errorMode
    exact ⟨rfl, rfl⟩
  · obtain ⟨valid, external⟩ := inside.resolve_left errorMode
    unfold validSymbols hasExternalSymbols
    rw [if_neg errorMode, if_neg errorMode, if_neg errorMode, if_neg errorMode]
    exact ⟨congrArg (·.getD .empty) (Array.getElem?_append_left valid),
      congrArg (·.getD false) (Array.getElem?_append_left external)⟩

end Padded

end Grammar

namespace Lexer

variable {lexer : Lexer} (padding : Grammar.Padding)

/-- The finder of tokens of the grammar with something behind the ends of its tables. -/
def padded (lexer : Lexer) (padding : Grammar.Padding) : Lexer :=
  { lexer with grammar := lexer.grammar.padded padding }

theorem candidate_padded {found : Nat × Nat}
    (inside : (Grammar.Lookup.lexRule found.1).Inside lexer.grammar) :
    (lexer.padded padding).candidate found = lexer.candidate found := by
  have rule : (lexer.grammar.padded padding).lexRules[found.1]? = lexer.grammar.lexRules[found.1]? :=
    Array.getElem?_append_left inside
  unfold candidate padded
  rw [rule]

/-- The place where some rule matches again is looked for without any table. -/
theorem recoverFrom_padded (text : Text) (offset examined budget : Nat) :
    (lexer.padded padding).recoverFrom text offset examined budget =
      lexer.recoverFrom text offset examined budget := by
  induction budget generalizing offset examined with
  | zero => rfl
  | succ budget induction =>
      simp only [recoverFrom, induction]
      rfl

theorem errorToken_padded (text : Text) (offset examined : Nat) :
    (lexer.padded padding).errorToken text offset examined =
      lexer.errorToken text offset examined := by
  unfold errorToken
  rw [recoverFrom_padded]

variable {text : Text} {offset : Nat}

theorem lexicalToken_padded (rules : ∀ found ∈ (lexer.grammar.lexicon.scan text offset).matched,
    (Grammar.Lookup.lexRule found.1).Inside lexer.grammar) (valid : SymbolSet) :
    (lexer.padded padding).lexicalToken text offset valid =
      lexer.lexicalToken text offset valid := by
  have scan : (lexer.padded padding).grammar.lexicon.scan text offset =
      lexer.grammar.lexicon.scan text offset := rfl
  have candidates : (lexer.grammar.lexicon.scan text offset).matched.map
      (lexer.padded padding).candidate =
        (lexer.grammar.lexicon.scan text offset).matched.map lexer.candidate :=
    List.map_congr_left fun found matched => candidate_padded padding (rules found matched)
  unfold lexicalToken
  dsimp only
  rw [scan, candidates, errorToken_padded]

/-- A token does not depend on what stands behind the ends of the tables if its lexical state and
the rules that match are inside. -/
theorem nextInState_padded {mode : LexStateId}
    (valid : (Grammar.Lookup.validSymbols mode).Inside lexer.grammar)
    (rules : offset < text.size → ∀ found ∈ (lexer.grammar.lexicon.scan text offset).matched,
      (Grammar.Lookup.lexRule found.1).Inside lexer.grammar) :
    (lexer.padded padding).nextInState text offset mode = lexer.nextInState text offset mode := by
  obtain ⟨symbols, external⟩ := Grammar.validSymbols_padded padding valid
  unfold nextInState padded
  rw [symbols, external]
  unfold tokenAt
  split
  · rfl
  · next before =>
      rw [← lexicalToken_padded padding (rules (Nat.lt_of_not_le before))]
      rfl

end Lexer

end IncrementalGlr
