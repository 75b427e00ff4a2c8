import IncrementalGlr.Proofs.Lalr.Table
import IncrementalGlr.Proofs.Table.Compiled

/-!
# What the states of compiled grammars recognise

Each state of a compiled grammar has items.  A state is entered over a symbol only from states that
have its items before that symbol, so a path of states from the start spells what the items of its
last state have recognised.
-/

namespace IncrementalGlr

open Lalr (Context Item)

/-- Whether a state whose items have come past a symbol is entered over that symbol from a state with
the items before it. -/
structure Enters (plain : PlainGrammar) (items : StateId → Item → Prop) (state : StateId)
    (symbol : Symbol) (next : StateId) : Prop where
  /-- Some item has come past the symbol. -/
  advanced : ∃ production dot, items next ⟨production, dot + 1⟩
  /-- Items that have come past a symbol have come past this one. -/
  origin : ∀ {production dot : Nat}, items next ⟨production, dot + 1⟩ →
    items state ⟨production, dot⟩ ∧
      ((Context.ofGrammar plain).rhs production)[dot]? = some symbol

/-- Whether the actions and gotos of a grammar are those that the items of its states call for. -/
structure Recognizes (grammar : Grammar) (plain : PlainGrammar)
    (items : StateId → Item → Prop) : Prop where
  /-- At the start nothing is recognised. -/
  start {item : Item} : items .start item → item.dot = 0
  /-- What is shifted is called for. -/
  shift {state next : StateId} {symbol : Symbol} :
    .shift next ∈ grammar.actions state symbol → Enters plain items state symbol next
  /-- What is gone to is called for. -/
  goto {state next : StateId} {symbol : Symbol} :
    grammar.goto? state symbol = some next → Enters plain items state symbol next
  /-- What is reduced is recognised. -/
  reduce {state : StateId} {symbol : Symbol} {production : ProductionId} :
    .reduce production ∈ grammar.actions state symbol →
      ∃ source : PlainProduction, plain.productions[production.index]? = some source ∧
        items state ⟨production.index, source.rhs.length⟩
  /-- Reductions are for terminals that may follow what they define. -/
  follows {state : StateId} {symbol : Symbol} {production : ProductionId} :
    .reduce production ∈ grammar.actions state symbol → plain.Follows symbol
  /-- Texts are accepted when they are recognised and end. -/
  accept {state : StateId} {symbol : Symbol} :
    .accept ∈ grammar.actions state symbol →
      symbol = .endOfInput ∧ items state ⟨plain.productions.length, 1⟩
  /-- Where a production may begin, there is a goto for its symbol. -/
  expects {state : StateId} {production : Nat} {source : PlainProduction} :
    items state ⟨production, 0⟩ → plain.productions[production]? = some source →
      ∃ next, grammar.goto? state source.lhs = some next

namespace Grammar.ComesFrom

variable {grammar : Grammar} {plain : PlainGrammar} {table : Lalr.Table}
  {automaton : Lalr.Automaton}

/-- The items of the states of an automaton. -/
def ItemsOf (plain : PlainGrammar) (automaton : Lalr.Automaton) (state : StateId) (item : Item) :
    Prop :=
  ∃ kernel, automaton.kernels[state.index]? = some kernel ∧
    item ∈ (Context.ofGrammar plain).items kernel

/-- The left-hand side of a production is stored as it is. -/
theorem production_stored (comes : grammar.ComesFrom plain table) {production : Nat}
    {source : PlainProduction} (found : plain.productions[production]? = some source) :
    ∃ stored, grammar.data.productions[production]? = some stored ∧ stored.lhs = source.lhs ∧
      stored.length.toNat = source.rhs.length := by
  obtain ⟨inside, rfl⟩ := List.getElem?_eq_some_iff.1 found
  have storedInside : production < grammar.data.productions.length := by
    rwa [← comes.productions.length_eq]
  have made := comes.productions.get inside storedInside
  obtain ⟨lhs, length, -⟩ := PlainProduction.compile_eq_ok made
  exact ⟨_, List.getElem?_eq_getElem storedInside, lhs, length⟩

theorem lhs_nonterminal (comes : grammar.ComesFrom plain table) {production : Nat}
    {source : PlainProduction} (found : plain.productions[production]? = some source) :
    plain.isTerminal source.lhs = false := by
  obtain ⟨stored, storedFound, lhs, -⟩ := comes.production_stored found
  have nonterminal := comes.loaded.sound.productions stored (List.mem_of_getElem? storedFound)
  rw [lhs] at nonterminal
  have terminals : grammar.data.terminalCount.toNat = plain.terminalCount := comes.terminalCount
  simp only [GrammarData.isNonterminal, terminals, Bool.and_eq_true, decide_eq_true_eq]
    at nonterminal
  simpa [PlainGrammar.isTerminal] using nonterminal.1

section Complete

variable (complete : Lalr.Automaton.Complete (Context.ofGrammar plain) automaton)

include complete

/-- The items of a kernel that have recognised something advance items that call for a symbol. -/
theorem origin_of_kernel {index : Nat} {kernel : List Item}
    (found : automaton.kernels[index]? = some kernel) {item : Item} (member : item ∈ kernel) :
    item = ⟨(Context.ofGrammar plain).wholeText, 0⟩ ∨ ∃ origin symbol,
      (Context.ofGrammar plain).next? origin = some symbol ∧ item = origin.advance := by
  cases index with
  | zero =>
      rw [complete.start] at found
      obtain rfl := Option.some.inj found
      exact .inl (List.mem_singleton.1 member)
  | succ index =>
      obtain ⟨before, symbol, advances⟩ := complete.origin index kernel found
      obtain ⟨origin, -, next, same⟩ := advances.source item member
      exact .inr ⟨origin, symbol, next, same⟩

theorem dot_le {state : StateId} {item : Item} (member : ItemsOf plain automaton state item) :
    item.dot ≤ ((Context.ofGrammar plain).rhs item.production).length := by
  obtain ⟨kernel, found, inside⟩ := member
  rcases Context.mem_items inside with old | ⟨dot, -⟩
  · rcases origin_of_kernel complete found old with rfl | ⟨origin, symbol, next, rfl⟩
    · exact Nat.zero_le _
    · exact (List.getElem?_eq_some_iff.1 next).1
  · rw [dot]
    exact Nat.zero_le _

/-- The items are those of productions and of whole texts. -/
theorem production_of_item {state : StateId} {item : Item}
    (member : ItemsOf plain automaton state item) :
    item.production = (Context.ofGrammar plain).wholeText ∨
      ∃ source : PlainProduction, plain.productions[item.production]? = some source := by
  obtain ⟨kernel, found, inside⟩ := member
  have known : ∀ {production dot : Nat} {symbol : Symbol},
      ((Context.ofGrammar plain).rhs production)[dot]? = some symbol →
        production = (Context.ofGrammar plain).wholeText ∨
          ∃ source : PlainProduction, plain.productions[production]? = some source := by
    intro production dot symbol spelled
    rcases Nat.lt_trichotomy production (Context.ofGrammar plain).wholeText with
      before | same | beyond
    · exact .inr ⟨_, List.getElem?_eq_getElem before⟩
    · exact .inl same
    · rw [Context.rhs_beyond beyond] at spelled
      cases spelled
  rcases Context.mem_items inside with old | ⟨-, source, sourceFound, -⟩
  · rcases origin_of_kernel complete found old with rfl | ⟨origin, symbol, next, rfl⟩
    · exact .inl rfl
    · exact known next
  · exact .inr ⟨source, sourceFound⟩

end Complete

section Made

variable (comes : grammar.ComesFrom plain table) (made : table.MadeFrom plain automaton)

include comes made

omit comes in
/-- Every state of the table stands for a kernel, and its edges lead to kernels that advance it. -/
theorem stands_listed {index : Nat} {stateData : StateData}
    (found : table.states[index]? = some stateData) :
    ∃ kernel edges, automaton.kernels[index]? = some kernel ∧
      Lalr.StandsFor (Context.ofGrammar plain) kernel edges stateData ∧
      Lalr.Automaton.Links (Context.ofGrammar plain) automaton.kernels kernel edges := by
  have inside := (List.getElem?_eq_some_iff.1 found).1
  rw [made.size] at inside
  have kernelFound := Array.getElem?_eq_getElem inside
  obtain ⟨edges, edgesFound, links⟩ := made.complete.exists_links kernelFound
  exact ⟨_, edges, kernelFound, made.stands _ _ _ _ found kernelFound edgesFound, links⟩

/-- Every state of the grammar stands for a kernel, and its edges lead to kernels that advance it. -/
theorem stands_state {state : StateId} {stateData : StateData}
    (found : grammar.data.states[state.index]? = some stateData) :
    ∃ kernel edges, automaton.kernels[state.index]? = some kernel ∧
      Lalr.StandsFor (Context.ofGrammar plain) kernel edges stateData ∧
      Lalr.Automaton.Links (Context.ofGrammar plain) automaton.kernels kernel edges := by
  rw [comes.states] at found
  exact stands_listed made found

omit comes in
/-- The state that an edge leads to is entered over its symbol. -/
theorem enters_of_edge {state : StateId} {kernel : List Item} {edges : List (Symbol × Nat)}
    (found : automaton.kernels[state.index]? = some kernel)
    (links : Lalr.Automaton.Links (Context.ofGrammar plain) automaton.kernels kernel edges)
    {symbol : Symbol} {target : Nat} (edge : (symbol, target) ∈ edges) :
    Enters plain (ItemsOf plain automaton) state symbol (.ofIndex target) := by
  obtain ⟨next, nextFound, nonempty, source, -⟩ := links.sound _ edge
  have inside : target < 65536 := by
    have bound := (Array.getElem?_eq_some_iff.1 nextFound).1
    have small := made.small
    have limit : Lalr.Automaton.maxStates = 65535 := rfl
    omega
  have place : (StateId.ofIndex target).index = target := StateId.index_ofIndex inside
  constructor
  · obtain ⟨item, member⟩ := List.exists_mem_of_ne_nil next nonempty
    obtain ⟨origin, -, -, rfl⟩ := source item member
    refine ⟨origin.production, origin.dot, next, ?_, Context.mem_items_of_kernel member⟩
    rw [place]
    exact nextFound
  · rintro production dot ⟨other, otherFound, member⟩
    rw [place, nextFound] at otherFound
    obtain rfl := Option.some.inj otherFound
    rcases Context.mem_items member with old | ⟨fresh, -⟩
    · obtain ⟨origin, originMember, called, same⟩ := source _ old
      obtain ⟨originProduction, originDot⟩ := origin
      cases same
      exact ⟨⟨kernel, found, originMember⟩, called⟩
    · cases fresh

omit comes in
/-- Nothing is recognised in the first state. -/
theorem dot_of_start {item : Item} (member : ItemsOf plain automaton .start item) : item.dot = 0 := by
  obtain ⟨kernel, found, inside⟩ := member
  rw [show StateId.start.index = 0 from rfl, made.complete.start] at found
  obtain rfl := Option.some.inj found
  rcases Context.mem_items inside with old | ⟨dot, -⟩
  · rw [List.mem_singleton.1 old]
  · exact dot

omit comes in
/-- Only in the first state the whole text is still to be recognised. -/
theorem start_of_whole {state : StateId}
    (member : ItemsOf plain automaton state ⟨plain.productions.length, 0⟩) : state = .start := by
  obtain ⟨kernel, found, inside⟩ := member
  rcases Context.mem_items inside with old | ⟨-, source, sourceFound, -⟩
  · cases place : state.index with
    | zero => exact congrArg StateId.mk (UInt16.toNat_inj.1 place)
    | succ index =>
        rw [place] at found
        obtain ⟨before, symbol, advances⟩ := made.complete.origin index kernel found
        obtain ⟨origin, -, -, same⟩ := advances.source _ old
        cases congrArg Item.dot same
  · exact absurd (List.getElem?_eq_some_iff.1 sourceFound).1 (Nat.lt_irrefl _)

omit comes in
/-- What is reduced is recognised, if all productions have ids. -/
theorem reduced_item (ids : plain.productions.length ≤ 65536) {state : StateId} {kernel : List Item}
    (found : automaton.kernels[state.index]? = some kernel) {edges : List (Symbol × Nat)}
    {symbol : Symbol} {production : ProductionId}
    (calls : Lalr.Calls (Context.ofGrammar plain) kernel edges symbol (.reduce production)) :
    ∃ source : PlainProduction, plain.productions[production.index]? = some source ∧
      ItemsOf plain automaton state ⟨production.index, source.rhs.length⟩ := by
  generalize called : Action.reduce production = action at calls
  cases calls with
  | shift => cases called
  | accept => cases called
  | @reduce item itemMember complete inner follows =>
      obtain rfl := Action.reduce.inj called
      have listed : ItemsOf plain automaton state item := ⟨kernel, found, itemMember⟩
      obtain ⟨source, sourceFound⟩ :=
        (production_of_item made.complete listed).resolve_left inner
      have place : (ProductionId.ofIndex item.production).index = item.production := by
        have bound := (List.getElem?_eq_some_iff.1 sourceFound).1
        exact ProductionId.index_ofIndex (by omega)
      have bound := dot_le made.complete listed
      rw [Context.rhs_ofGrammar sourceFound] at bound complete
      rw [place]
      refine ⟨source, sourceFound, ?_⟩
      rw [← Nat.le_antisymm bound complete]
      exact listed

omit comes in
/-- What is accepted is the whole text. -/
theorem accepted_item {state : StateId} {kernel : List Item}
    (found : automaton.kernels[state.index]? = some kernel) {edges : List (Symbol × Nat)}
    {symbol : Symbol} (calls : Lalr.Calls (Context.ofGrammar plain) kernel edges symbol .accept) :
    symbol = .endOfInput ∧ ItemsOf plain automaton state ⟨plain.productions.length, 1⟩ := by
  cases calls with
  | @accept item itemMember complete whole isEnd =>
      refine ⟨isEnd, ?_⟩
      have known : ItemsOf plain automaton state item := ⟨kernel, found, itemMember⟩
      have bound := dot_le made.complete known
      obtain ⟨production, dot⟩ := item
      obtain rfl : production = plain.productions.length := whole
      have whole : (Context.ofGrammar plain).rhs plain.productions.length = [plain.start] :=
        Context.rhs_wholeText
      rw [whole] at bound complete
      obtain rfl : dot = 1 := Nat.le_antisymm bound complete
      exact known

/-- The actions and gotos of a compiled grammar are those that its items call for. -/
theorem recognizes : Recognizes grammar plain (ItemsOf plain automaton) := by
  constructor
  case start =>
    exact fun member => dot_of_start made member
  case shift =>
    intro state next symbol member
    obtain ⟨stateData, stateFound, entry, entryMember, rfl, inside⟩ :=
      comes.loaded.actions_listed member
    obtain ⟨kernel, edges, found, stands, links⟩ := comes.stands_state made stateFound
    cases stands.actions entry entryMember _ inside with
    | shift edge => exact enters_of_edge made found links edge
  case goto =>
    intro state next symbol member
    obtain ⟨stateData, stateFound, listed⟩ := comes.loaded.goto_listed member
    obtain ⟨kernel, edges, found, stands, links⟩ := comes.stands_state made stateFound
    obtain ⟨target, edge, same⟩ := stands.gotos _ listed
    dsimp only at same edge
    rw [same]
    exact enters_of_edge made found links edge
  case reduce =>
    intro state symbol production member
    obtain ⟨stateData, stateFound, entry, entryMember, rfl, inside⟩ :=
      comes.loaded.actions_listed member
    obtain ⟨kernel, edges, found, stands, -⟩ := comes.stands_state made stateFound
    have small := comes.productionCount
    exact reduced_item made (by omega) found (stands.actions entry entryMember _ inside)
  case follows =>
    intro state symbol production member
    obtain ⟨stateData, stateFound, entry, entryMember, rfl, inside⟩ :=
      comes.loaded.actions_listed member
    obtain ⟨kernel, edges, found, stands, links⟩ := comes.stands_state made stateFound
    have calls := stands.actions entry entryMember _ inside
    generalize called : Action.reduce production = action at calls
    cases calls with
    | shift => cases called
    | accept => cases called
    | reduce itemMember complete inner follows => exact follows
  case accept =>
    intro state symbol member
    obtain ⟨stateData, stateFound, entry, entryMember, rfl, inside⟩ :=
      comes.loaded.actions_listed member
    obtain ⟨kernel, edges, found, stands, -⟩ := comes.stands_state made stateFound
    exact accepted_item made found (stands.actions entry entryMember _ inside)
  case expects =>
    rintro state production source ⟨kernel, found, member⟩ sourceFound
    have inside : production < plain.productions.length :=
      (List.getElem?_eq_some_iff.1 sourceFound).1
    rcases Context.mem_items member with old | ⟨-, other, otherFound, caller, callerMember, called⟩
    · rcases origin_of_kernel made.complete found old with whole | ⟨origin, symbol, -, advanced⟩
      · have same : production = plain.productions.length := congrArg Item.production whole
        omega
      · cases congrArg Item.dot advanced
    · rw [sourceFound] at otherFound
      obtain rfl := Option.some.inj otherFound
      have stateInside : state.index < grammar.data.states.length := by
        rw [comes.states, made.size]
        exact (Array.getElem?_eq_some_iff.1 found).1
      obtain ⟨kernel', edges, found', stands, links⟩ :=
        comes.stands_state made (List.getElem?_eq_getElem stateInside)
      rw [found] at found'
      obtain rfl := Option.some.inj found'
      obtain ⟨target, edge⟩ := links.complete caller callerMember _ called
      have listed := stands.complete _ target edge (comes.lhs_nonterminal sourceFound)
      exact comes.loaded.goto_found (List.getElem?_eq_getElem stateInside) listed

end Made

end Grammar.ComesFrom

end IncrementalGlr
