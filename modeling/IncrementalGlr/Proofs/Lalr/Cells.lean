import IncrementalGlr.Proofs.Lalr.Propagation

/-!
# The cells of a table

In a grammar without precedences resolution drops nothing, so every action that the items of a state
call for is in the state's cell.
-/

namespace IncrementalGlr

/-- Whether no production has a precedence or an associativity. -/
def PlainGrammar.Neutral (plain : PlainGrammar) : Prop :=
  ∀ production ∈ plain.productions, production.precedence = 0 ∧ production.associativity = none

instance (plain : PlainGrammar) : Decidable plain.Neutral :=
  inferInstanceAs (Decidable (∀ production ∈ plain.productions, _))

namespace Lalr

namespace Context

variable {plain : PlainGrammar}

theorem precedence_of_neutral (neutral : plain.Neutral) (production : Nat) :
    (ofGrammar plain).precedence production = (0, none) := by
  unfold precedence
  split
  · next source found =>
      obtain ⟨precedence, associativity⟩ := neutral source (List.mem_of_getElem? found)
      rw [precedence, associativity]
  · rfl

/-- The highest of precedences that are all zero. -/
theorem max?_map_zero {α : Type} {precedence : α → Int} {values : List α}
    (zero : ∀ value, precedence value = 0) {value : α} (member : value ∈ values) :
    (values.map precedence).max? = some 0 := by
  rw [List.max?_eq_some_iff]
  constructor
  · exact List.mem_map.2 ⟨value, member, zero value⟩
  · intro other listed
    obtain ⟨source, -, rfl⟩ := List.mem_map.1 listed
    exact (zero source).le

/-- Without precedences every action is kept, if some item shifts the terminal whenever a shift is
called for. -/
theorem mem_resolve_of_neutral (neutral : plain.Neutral) {items : List Item} {terminal : Symbol}
    {actions : List Action}
    (shifts : ∀ target, .shift target ∈ actions →
      ∃ item ∈ items, (ofGrammar plain).next? item = some terminal)
    {action : Action} (member : action ∈ actions) :
    action ∈ (ofGrammar plain).resolve items terminal actions := by
  have zero : ∀ number, ((ofGrammar plain).precedence number).1 = 0 := fun number =>
    congrArg Prod.fst (precedence_of_neutral neutral number)
  have arranged := mem_arrange.2 member
  unfold resolve
  dsimp only
  split
  · exact arranged
  · have ties : ∀ production,
        (ofGrammar plain).contest? ((ofGrammar plain).shiftPrecedence? items terminal) production =
          .tie := by
      intro production
      unfold contest?
      split
      · next shift found =>
          obtain ⟨item, -, same⟩ := List.mem_map.1 (List.max?_mem found)
          rw [precedence_of_neutral neutral, ← same, zero]
          rfl
      · rfl
    cases action with
    | shift target =>
        obtain ⟨item, itemMember, next⟩ := shifts target member
        have some_ : (ofGrammar plain).shiftPrecedence? items terminal = some 0 :=
          max?_map_zero (fun item => zero item.production)
            (List.mem_filter.2 ⟨itemMember, beq_iff_eq.2 next⟩)
        refine List.mem_append_left _ (List.mem_append_left _ ?_)
        rw [if_pos]
        · exact List.mem_filter.2 ⟨arranged, rfl⟩
        · rw [Bool.and_eq_true, List.all_eq_true]
          refine ⟨by rw [some_]; rfl, fun production _ => ?_⟩
          rw [ties]
          rfl
    | accept =>
        exact List.mem_append_left _ (List.mem_append_right _
          (List.mem_filter.2 ⟨arranged, beq_self_eq_true _⟩))
    | reduce production =>
        have kept : production ∈ ((arrange actions).filterMap reduction?).filter fun production =>
            (ofGrammar plain).contest? ((ofGrammar plain).shiftPrecedence? items terminal)
              production != .shiftWins := by
          refine List.mem_filter.2 ⟨List.mem_filterMap.2 ⟨_, arranged, rfl⟩, ?_⟩
          rw [ties]
          rfl
        refine List.mem_append_right _ (List.mem_map_of_mem (List.mem_filter.2 ⟨kept, ?_⟩))
        rw [max?_map_zero (fun production : ProductionId => zero production.index) kept, zero]
        rfl

end Context

namespace Table

/-- Whether a state of a table has an action on a terminal. -/
def Acts (table : Table) (state : StateId) (terminal : Symbol) (action : Action) : Prop :=
  ∃ data, table.states[state.index]? = some data ∧
    ∃ cell ∈ data.actions, cell.1 = terminal ∧ action ∈ cell.2

/-- Whether a table goes from a state to another one after a reduction to a symbol. -/
def Goes (table : Table) (state : StateId) (symbol : Symbol) (next : StateId) : Prop :=
  ∃ data, table.states[state.index]? = some data ∧ (symbol, next) ∈ data.gotos

variable {context : Context}

/-- The cells of a state with the given closure and transitions. -/
def cells (context : Context) (items : List (Item × Lookahead)) (transitions : List (Symbol × Nat)) :
    List (Symbol × List Action) :=
  (List.range context.grammar.terminalCount).filterMap fun terminal =>
    let terminal := Symbol.ofIndex terminal
    match actionsOn context items transitions terminal with
    | [] => none
    | actions => some (terminal, context.resolve (items.map Prod.fst) terminal actions)

/-- The cells and gotos of the states are those of the kernels. -/
theorem states_ofAutomaton (context : Context) (automaton : Automaton)
    (lookaheads : KernelLookaheads) :
    (ofAutomaton context automaton lookaheads).states.map (fun state => (state.actions, state.gotos)) =
      automaton.kernels.toList.zipIdx.map fun entry =>
        (cells context (context.closureItems (seeds lookaheads entry))
          ((automaton.transitions[entry.2]?).getD []),
            gotos context ((automaton.transitions[entry.2]?).getD [])) := by
  have all : ∀ (entries : List (List Item × Nat)) (table : Table),
      (entries.foldl (fun (table : Table) (entry : List Item × Nat) =>
        addState context table entry.2 (context.closureItems (seeds lookaheads entry))
          ((automaton.transitions[entry.2]?).getD [])) table).states.reverse.map
            (fun state => (state.actions, state.gotos)) =
        table.states.reverse.map (fun state => (state.actions, state.gotos)) ++
          entries.map fun entry => (cells context (context.closureItems (seeds lookaheads entry))
            ((automaton.transitions[entry.2]?).getD []),
              gotos context ((automaton.transitions[entry.2]?).getD [])) := by
    intro entries
    induction entries with
    | nil => exact fun table => (List.append_nil _).symm
    | cons entry rest induction =>
        intro table
        rw [List.foldl_cons, induction, addState]
        simp only [List.reverse_cons, List.map_append, List.map_cons, List.map_nil,
          List.append_assoc, List.singleton_append]
        rfl
  exact all _ ⟨[], [], []⟩

/-- What a state calls for on a terminal is in its cell. -/
theorem mem_cells {plain : PlainGrammar} (neutral : plain.Neutral)
    {items : List (Item × Lookahead)} {transitions : List (Symbol × Nat)} {terminal : Symbol}
    (inside : plain.isTerminal terminal = true)
    (shifts : ∀ edge ∈ transitions, ∃ item ∈ items.map Prod.fst,
      (Context.ofGrammar plain).next? item = some edge.1)
    {action : Action} (member : action ∈ actionsOn (Context.ofGrammar plain) items transitions
      terminal) :
    ∃ cell ∈ cells (Context.ofGrammar plain) items transitions, cell.1 = terminal ∧
      action ∈ cell.2 := by
  have same : Symbol.ofIndex terminal.index = terminal :=
    Symbol.index_inj (Symbol.index_ofIndex terminal.index_lt)
  have bound : terminal.index < plain.terminalCount := by
    simpa [PlainGrammar.isTerminal] using inside
  refine ⟨(terminal, (Context.ofGrammar plain).resolve (items.map Prod.fst) terminal
    (actionsOn (Context.ofGrammar plain) items transitions terminal)),
    List.mem_filterMap.2 ⟨terminal.index, List.mem_range.2 bound, ?_⟩, rfl,
    Context.mem_resolve_of_neutral neutral (fun target shift => ?_) member⟩
  · dsimp only
    rw [same]
    split
    · next none =>
        rw [none] at member
        cases member
    · rfl
  · rcases List.mem_append.1 shift with edge | reduction
    · obtain ⟨⟨symbol, number⟩, listed, made⟩ := List.mem_filterMap.1 edge
      dsimp only at made
      split at made
      · next equal => exact equal ▸ shifts _ listed
      · cases made
    · obtain ⟨⟨item, lookahead⟩, -, made⟩ := List.mem_filterMap.1 reduction
      dsimp only at made
      split at made
      · split at made <;> cases made
      · split at made <;> cases made

end Table

end Lalr

end IncrementalGlr
