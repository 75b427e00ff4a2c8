import IncrementalGlr.Proofs.Lalr.Recognition

/-!
# The sizes of parse tables

A state has at most one edge for each symbol, and its edges lead to states.  So a cell holds at most
one action that is not a reduction, and at most one reduction by each production.
-/

namespace IncrementalGlr

open Lalr (Context Item)

/-- What an item of a sound grammar calls for is a symbol other than the end of the input. -/
theorem PlainGrammar.Sound.called_inner {plain : PlainGrammar} (sound : plain.Sound)
    {production dot : Nat} {symbol : Symbol}
    (called : ((Context.ofGrammar plain).rhs production)[dot]? = some symbol) :
    symbol.Inner plain.symbols.length := by
  rcases Nat.lt_trichotomy production (Context.ofGrammar plain).wholeText with
    before | whole | beyond
  · have found : plain.productions[production]? = some _ := List.getElem?_eq_getElem before
    rw [Context.rhs_ofGrammar found] at called
    exact sound.rhs _ (List.mem_of_getElem? found) symbol (List.mem_of_getElem? called)
  · rw [whole, Context.rhs_wholeText] at called
    obtain rfl := List.mem_singleton.1 (List.mem_of_getElem? called)
    refine ⟨fun isEnd => ?_, sound.start.2⟩
    have last := sound.start.1
    rw [isEnd] at last
    exact Nat.not_lt_zero _ (Nat.lt_of_lt_of_le sound.positive last)
  · rw [Context.rhs_beyond beyond] at called
    cases called

namespace Lalr

namespace Context

/-- The place of an action in its cell: first the one that is not a reduction, then the reductions by
their productions. -/
def rank : Action → Nat
  | .reduce production => production.index + 1
  | _ => 0

theorem rank_le_of_actionLe (left right : Action) (less : actionLe left right = true) :
    rank left ≤ rank right := by
  cases left <;> cases right <;> simp_all [actionLe, rank]

theorem rank_le_of_not_actionLe (left right : Action) (more : actionLe left right = false) :
    rank right ≤ rank left := by
  cases left <;> cases right <;> simp_all [actionLe, rank, Nat.le_of_lt]

/-- Arranged actions are at most one more than the productions if at most one of them is no
reduction. -/
theorem length_arrange_le {actions : List Action} {productions : Nat}
    (below : ∀ production, .reduce production ∈ actions → production.index < productions)
    (single : ∀ left ∈ actions, ∀ right ∈ actions, rank left = 0 → rank right = 0 → left = right) :
    (arrange actions).length ≤ productions + 1 := by
  refine length_le_of_ascending rank ?_ fun action member => ?_
  · refine pairwise_eraseReps (pairwise_sortBy rank_le_of_actionLe rank_le_of_not_actionLe _)
      fun left leftMember right rightMember same => ?_
    rw [mem_sortBy] at leftMember rightMember
    cases left with
    | reduce first =>
        cases right with
        | reduce second =>
            exact congrArg Action.reduce (ProductionId.index_inj (Nat.succ.inj same))
        | shift target => cases same
        | accept => cases same
    | shift target => exact single _ leftMember _ rightMember rfl same.symm
    | accept => exact single _ leftMember _ rightMember rfl same.symm
  · rw [mem_arrange] at member
    cases action with
    | reduce production => exact Nat.succ_lt_succ (below production member)
    | shift target => exact Nat.succ_pos productions
    | accept => exact Nat.succ_pos productions

end Context

namespace Automaton.Links

variable {plain : PlainGrammar} {kernels : Array (List Item)} {kernel : List Item}
  {edges : List (Symbol × Nat)} (links : Links (Context.ofGrammar plain) kernels kernel edges)

include links

/-- An edge is for a symbol other than the end of the input, and it leads to a state. -/
theorem edge_inner (sound : plain.Sound) {edge : Symbol × Nat} (member : edge ∈ edges) :
    edge.1.Inner plain.symbols.length ∧ edge.2 < kernels.size := by
  obtain ⟨target, found, advances⟩ := links.sound edge member
  obtain ⟨item, itemMember⟩ := List.exists_mem_of_ne_nil target advances.nonempty
  obtain ⟨origin, -, next, -⟩ := advances.source item itemMember
  exact ⟨sound.called_inner next, (Array.getElem?_eq_some_iff.1 found).1⟩

/-- There is one edge for each symbol. -/
theorem target_inj {symbol : Symbol} {first second : Nat} (firstEdge : (symbol, first) ∈ edges)
    (secondEdge : (symbol, second) ∈ edges) : first = second := by
  by_contra different
  have apart : edges.Pairwise fun left right => left.1.index ≠ right.1.index :=
    links.ascending.imp Nat.ne_of_lt
  have symmetric : Std.Symm fun left right : Symbol × Nat => left.1.index ≠ right.1.index :=
    ⟨fun _ _ => Ne.symm⟩
  exact apart.forall firstEdge secondEdge (fun same => different (congrArg Prod.snd same)) rfl

theorem length_le : edges.length ≤ 65536 :=
  length_le_of_ascending _ links.ascending fun edge _ => edge.1.index_lt

/-- A cell holds at most one action that is not a reduction: there is no shift of the end of the
input. -/
theorem eq_of_rank_zero (sound : plain.Sound) {terminal : Symbol} {left right : Action}
    (leftCalled : Calls (Context.ofGrammar plain) kernel edges terminal left)
    (rightCalled : Calls (Context.ofGrammar plain) kernel edges terminal right)
    (leftFirst : Context.rank left = 0) (rightFirst : Context.rank right = 0) : left = right := by
  cases leftCalled with
  | reduce => cases leftFirst
  | shift edge =>
      cases rightCalled with
      | reduce => cases rightFirst
      | shift other => rw [links.target_inj edge other]
      | accept _ _ _ isEnd => exact absurd isEnd (links.edge_inner sound edge).1.1
  | accept _ _ _ isEnd =>
      cases rightCalled with
      | reduce => cases rightFirst
      | shift other => exact absurd isEnd (links.edge_inner sound other).1.1
      | accept => rfl

end Automaton.Links

/-- Whether a state of a table for a plain grammar refers only to what there is, and how much it may
hold. -/
structure Table.Fits (plain : PlainGrammar) (table : Table) (state : StateData) : Prop where
  /-- There is a lexical state. -/
  lexState : state.lexState.index < table.lexStates.length
  /-- There is at most one cell for each terminal. -/
  cellCount : state.actions.length ≤ plain.terminalCount
  /-- The cells are those of terminals. -/
  terminals : ∀ entry ∈ state.actions, entry.1.index < plain.terminalCount
  /-- A cell holds at most one action for each production and another one. -/
  alternatives : ∀ entry ∈ state.actions, entry.2.length ≤ plain.productions.length + 1
  /-- The shifts lead to states. -/
  shift : ∀ entry ∈ state.actions, ∀ target, .shift target ∈ entry.2 →
    target.index < table.states.length
  /-- The reductions are by productions. -/
  reduce : ∀ entry ∈ state.actions, ∀ production, .reduce production ∈ entry.2 →
    production.index < plain.productions.length
  /-- There is at most one goto for each symbol. -/
  gotoCount : state.gotos.length ≤ 65536
  /-- The gotos are those of nonterminals. -/
  gotos : ∀ entry ∈ state.gotos, plain.terminalCount ≤ entry.1.index ∧
    entry.1.index < plain.symbols.length
  /-- The gotos lead to states. -/
  targets : ∀ entry ∈ state.gotos, entry.2.index < table.states.length

theorem Table.MadeFrom.fits {plain : PlainGrammar} {table : Table} {automaton : Automaton}
    (made : table.MadeFrom plain automaton) (sound : plain.Sound)
    (ids : plain.productions.length < 65535) {state : StateData} (member : state ∈ table.states) :
    table.Fits plain state := by
  obtain ⟨index, stateFound⟩ := List.mem_iff_getElem?.1 member
  obtain ⟨kernel, edges, found, stands, links⟩ := Grammar.ComesFrom.stands_listed made stateFound
  have states : table.states.length < 65535 := made.size ▸ made.small
  have place : (StateId.ofIndex index).index = index := by
    have inside := (List.getElem?_eq_some_iff.1 stateFound).1
    exact StateId.index_ofIndex (by omega)
  have led : ∀ edge ∈ edges, (StateId.ofIndex edge.2).index < table.states.length := by
    intro edge listed
    have inside := (links.edge_inner sound listed).2
    rw [← made.size] at inside
    rwa [StateId.index_ofIndex (by omega)]
  have reduced : ∀ {terminal : Symbol} {production : ProductionId},
      Calls (Context.ofGrammar plain) kernel edges terminal (.reduce production) →
        production.index < plain.productions.length := by
    intro terminal production called
    obtain ⟨source, sourceFound, -⟩ := Grammar.ComesFrom.reduced_item made
      (Nat.le_succ_of_le ids.le) (place.symm ▸ found) called
    exact (List.getElem?_eq_some_iff.1 sourceFound).1
  constructor
  case lexState =>
    obtain ⟨number, inside, same⟩ := made.lexical.found state member
    have count := made.lexical.count
    rw [same, LexStateId.index_ofIndex (by omega)]
    exact inside
  case cellCount => exact stands.cellCount
  case terminals =>
    intro entry listed
    obtain ⟨number, inside, same⟩ := stands.terminals entry listed
    have terminalCount := sound.terminalCount
    have symbolCount := sound.symbolCount
    change number < plain.terminalCount at inside
    rw [same, Symbol.index_ofIndex (by omega)]
    exact inside
  case alternatives =>
    intro entry listed
    obtain ⟨actions, called, fewer⟩ := stands.alternatives entry listed
    refine fewer.trans (Context.length_arrange_le (fun production reduces =>
      reduced (called _ reduces)) fun left leftMember right rightMember => ?_)
    exact links.eq_of_rank_zero sound (called left leftMember) (called right rightMember)
  case shift =>
    intro entry listed target inside
    cases stands.actions entry listed _ inside with
    | shift edge => exact led _ edge
  case reduce =>
    intro entry listed production inside
    exact reduced (stands.actions entry listed _ inside)
  case gotoCount => exact stands.gotoCount.trans links.length_le
  case gotos =>
    intro entry listed
    obtain ⟨target, edge, -⟩ := stands.gotos entry listed
    refine ⟨?_, (links.edge_inner sound edge).1.2⟩
    have nonterminal := stands.nonterminals entry listed
    exact Nat.le_of_not_lt (of_decide_eq_false nonterminal)
  case targets =>
    intro entry listed
    obtain ⟨target, edge, same⟩ := stands.gotos entry listed
    exact same ▸ led _ edge

end Lalr

end IncrementalGlr
