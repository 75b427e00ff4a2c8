import IncrementalGlr.Lalr.Table
import IncrementalGlr.Proofs.Lalr.Kernels
import IncrementalGlr.Proofs.Lalr.Lookaheads
import IncrementalGlr.Proofs.Plain.Expansion

/-!
# Parse tables and items

The actions and gotos of a state are those that its items and transitions call for.
-/

namespace IncrementalGlr

namespace Lalr

namespace Context

variable {context : Context}

/-- Arranging actions neither adds nor loses any. -/
theorem mem_arrange {action : Action} {actions : List Action} :
    action ∈ arrange actions ↔ action ∈ actions :=
  mem_eraseReps.trans mem_sortBy

/-- Resolution only drops actions. -/
theorem mem_of_mem_resolve {items : List Item} {terminal : Symbol} {action : Action}
    {actions : List Action} (member : action ∈ context.resolve items terminal actions) :
    action ∈ actions := by
  unfold resolve at member
  dsimp only at member
  split at member
  · exact mem_arrange.1 member
  · rcases List.mem_append.1 member with (before | reduction)
    · rcases List.mem_append.1 before with shift | accept
      · split at shift
        · exact mem_arrange.1 (List.mem_of_mem_filter shift)
        · cases shift
      · exact mem_arrange.1 (List.mem_of_mem_filter accept)
    · obtain ⟨production, kept, rfl⟩ := List.mem_map.1 reduction
      obtain ⟨source, sourceMember, found⟩ := List.mem_filterMap.1
        (List.mem_of_mem_filter (List.mem_of_mem_filter kept))
      cases source with
      | shift next => cases found
      | accept => cases found
      | reduce other =>
          obtain rfl := Option.some.inj found
          exact mem_arrange.1 sourceMember

/-- Every action is a shift, an acceptance or a reduction. -/
theorem length_by_kind (actions : List Action) :
    (actions.filter isShift).length + (actions.filter fun action => action == .accept).length +
      (actions.filterMap reduction?).length = actions.length := by
  induction actions with
  | nil => rfl
  | cons action rest induction =>
      rw [List.length_cons, ← induction]
      cases action with
      | shift target =>
          rw [List.filter_cons_of_pos rfl, List.filter_cons_of_neg Bool.false_ne_true,
            List.filterMap_cons_none rfl, List.length_cons]
          omega
      | accept =>
          rw [List.filter_cons_of_neg Bool.false_ne_true, List.filter_cons_of_pos rfl,
            List.filterMap_cons_none rfl, List.length_cons]
          omega
      | reduce production =>
          rw [List.filter_cons_of_neg Bool.false_ne_true,
            List.filter_cons_of_neg Bool.false_ne_true, List.filterMap_cons_some (f := reduction?) rfl,
            List.length_cons]
          omega

/-- Resolution keeps at most as many actions as there are different ones. -/
theorem length_resolve_le (items : List Item) (terminal : Symbol) (actions : List Action) :
    (context.resolve items terminal actions).length ≤ (arrange actions).length := by
  unfold resolve
  dsimp only
  split
  · exact Nat.le_refl _
  · rw [← length_by_kind (arrange actions)]
    simp only [List.length_append, List.length_map]
    refine Nat.add_le_add (Nat.add_le_add ?_ (Nat.le_refl _)) ?_
    · split
      · exact Nat.le_refl _
      · exact Nat.zero_le _
    · exact (List.length_filter_le _ _).trans (List.length_filter_le _ _)

end Context

/-- Whether a state with a kernel and edges has reason for an action on a terminal. -/
inductive Calls (context : Context) (kernel : List Item) (edges : List (Symbol × Nat))
    (terminal : Symbol) : Action → Prop
  /-- There is an edge for the terminal. -/
  | shift {target : Nat} (edge : (terminal, target) ∈ edges) :
    Calls context kernel edges terminal (.shift (.ofIndex target))
  /-- An item has recognised its production, which the terminal may follow. -/
  | reduce {item : Item} (member : item ∈ context.items kernel)
    (complete : (context.rhs item.production).length ≤ item.dot)
    (partial_ : item.production ≠ context.wholeText)
    (follows : context.grammar.Follows terminal) :
    Calls context kernel edges terminal (.reduce (.ofIndex item.production))
  /-- The whole text is recognised. -/
  | accept {item : Item} (member : item ∈ context.items kernel)
    (complete : (context.rhs item.production).length ≤ item.dot)
    (whole : item.production = context.wholeText) (isEnd : terminal = .endOfInput) :
    Calls context kernel edges terminal .accept

/-- Whether a state of a table stands for a kernel and its edges. -/
structure StandsFor (context : Context) (kernel : List Item) (edges : List (Symbol × Nat))
    (state : StateData) : Prop where
  /-- There is a reason for each action. -/
  actions : ∀ entry ∈ state.actions, ∀ action ∈ entry.2,
    Calls context kernel edges entry.1 action
  /-- The gotos are edges. -/
  gotos : ∀ entry ∈ state.gotos, ∃ target, (entry.1, target) ∈ edges ∧ entry.2 = .ofIndex target
  /-- Edges for nonterminals are gotos. -/
  complete : ∀ symbol target, (symbol, target) ∈ edges →
    context.grammar.isTerminal symbol = false → (symbol, .ofIndex target) ∈ state.gotos
  /-- There is at most one cell for each terminal. -/
  cellCount : state.actions.length ≤ context.grammar.terminalCount
  /-- The cells are those of terminals. -/
  terminals : ∀ entry ∈ state.actions, ∃ index < context.grammar.terminalCount,
    entry.1 = .ofIndex index
  /-- No cell has more actions than there are reasons for. -/
  alternatives : ∀ entry ∈ state.actions, ∃ actions : List Action,
    (∀ action ∈ actions, Calls context kernel edges entry.1 action) ∧
      entry.2.length ≤ (Context.arrange actions).length
  /-- There is at most one goto for each edge. -/
  gotoCount : state.gotos.length ≤ edges.length
  /-- The gotos are those of nonterminals. -/
  nonterminals : ∀ entry ∈ state.gotos, context.grammar.isTerminal entry.1 = false

namespace Table

variable {context : Context}

/-- Whether what follows the items of the closure of a kernel may follow an item. -/
def FollowedWithin (context : Context) (kernel : List (Item × Lookahead)) : Prop :=
  ∀ entry ∈ context.closureItems kernel, entry.2.symbols.Within context.grammar.Follows

theorem calls_of_mem_actionsOn {kernel : List (Item × Lookahead)} {edges : List (Symbol × Nat)}
    {terminal : Symbol} {action : Action} (followed : FollowedWithin context kernel)
    (member : action ∈ actionsOn context (context.closureItems kernel) edges terminal) :
    Calls context (kernel.map Prod.fst) edges terminal action := by
  unfold actionsOn at member
  rcases List.mem_append.1 member with shift | reduction
  · obtain ⟨⟨symbol, target⟩, edge, found⟩ := List.mem_filterMap.1 shift
    dsimp only at found
    split at found
    · next same =>
        subst same
        obtain rfl := Option.some.inj found
        exact .shift edge
    · cases found
  · obtain ⟨⟨item, lookahead⟩, completed, found⟩ := List.mem_filterMap.1 reduction
    obtain ⟨listed, complete⟩ := List.mem_filter.1 completed
    have itemMember : item ∈ context.items (kernel.map Prod.fst) :=
      Context.mem_items_of_closureItems.1 (List.mem_map_of_mem listed)
    simp only [Context.isComplete, decide_eq_true_eq] at complete
    dsimp only at found
    split at found
    · next whole =>
        split at found
        · next isEnd =>
            obtain rfl := Option.some.inj found
            exact .accept itemMember complete whole isEnd
        · cases found
    · next partial_ =>
        split at found
        · next follows =>
            obtain rfl := Option.some.inj found
            exact .reduce itemMember complete partial_ (followed _ listed terminal follows)
        · cases found

/-- The state that is added stands for its kernel and edges. -/
theorem standsFor_addState (table : Table) (index : Nat) (kernel : List (Item × Lookahead))
    (edges : List (Symbol × Nat)) (followed : FollowedWithin context kernel) :
    ∃ state, (addState context table index (context.closureItems kernel) edges).states =
        state :: table.states ∧
      StandsFor context (kernel.map Prod.fst) edges state := by
  refine ⟨_, rfl, ?_⟩
  generalize listed :
    (List.range context.grammar.terminalCount).filterMap _ = cells
  have cell : ∀ {cell : Symbol × List Action}, cell ∈ cells →
      ∃ index < context.grammar.terminalCount, cell = (.ofIndex index,
        context.resolve ((context.closureItems kernel).map Prod.fst) (.ofIndex index)
          (actionsOn context (context.closureItems kernel) edges (.ofIndex index))) := by
    intro cell member
    rw [← listed] at member
    obtain ⟨terminal, inside, found⟩ := List.mem_filterMap.1 member
    refine ⟨terminal, List.mem_range.1 inside, ?_⟩
    dsimp only at found
    split at found
    · cases found
    · exact (Option.some.inj found).symm
  constructor
  case actions =>
    intro entry member action actionMember
    obtain ⟨index, -, rfl⟩ := cell member
    exact calls_of_mem_actionsOn followed (Context.mem_of_mem_resolve actionMember)
  case gotos =>
    intro entry member
    obtain ⟨⟨symbol, target⟩, kept, rfl⟩ := List.mem_map.1 member
    exact ⟨target, List.mem_of_mem_filter kept, rfl⟩
  case complete =>
    intro symbol target edge nonterminal
    exact List.mem_map.2 ⟨(symbol, target), List.mem_filter.2 ⟨edge, by simp [nonterminal]⟩, rfl⟩
  case cellCount =>
    rw [← listed]
    refine (List.length_filterMap_le _ _).trans ?_
    rw [List.length_range]
  case terminals =>
    intro entry member
    obtain ⟨index, inside, rfl⟩ := cell member
    exact ⟨index, inside, rfl⟩
  case alternatives =>
    intro entry member
    obtain ⟨index, -, rfl⟩ := cell member
    exact ⟨_, fun action => calls_of_mem_actionsOn followed, Context.length_resolve_le _ _ _⟩
  case gotoCount =>
    rw [gotos, List.length_map]
    exact List.length_filter_le _ _
  case nonterminals =>
    intro entry member
    obtain ⟨⟨symbol, target⟩, kept, rfl⟩ := List.mem_map.1 member
    exact Bool.not_eq_eq_eq_not.1 (List.mem_filter.1 kept).2

/-- Whether the lexical states of a table hold terminals but never the end of the input, and each
state has one of them. -/
structure Lexical (context : Context) (table : Table) : Prop where
  /-- The terminals to look for. -/
  terminals : ∀ valid ∈ table.lexStates, ∀ symbol ∈ valid,
    symbol.Inner context.grammar.terminalCount
  /-- No state looks for more terminals than there are ids. -/
  sizes : ∀ valid ∈ table.lexStates, valid.length ≤ 65536
  /-- There are not more lexical states than states. -/
  count : table.lexStates.length ≤ table.states.length
  /-- Each state has a lexical state. -/
  found : ∀ state ∈ table.states, ∃ index < table.lexStates.length, state.lexState = .ofIndex index

/-- The terminals that a state looks for are those of its cells and the extras. -/
theorem inner_validTerminals (small : context.grammar.terminalCount < 65536)
    (extras : ∀ symbol ∈ context.grammar.extras, symbol.Inner context.grammar.terminalCount)
    {cells : List (Symbol × List Action)}
    (terminals : ∀ entry ∈ cells, ∃ index < context.grammar.terminalCount,
      entry.1 = .ofIndex index) :
    ∀ symbol ∈ validTerminals context cells, symbol.Inner context.grammar.terminalCount := by
  intro symbol member
  rcases List.mem_append.1 (SymbolSet.mem_of_mem_toList_ofList member) with acted | extra
  · obtain ⟨listed, notEnd⟩ := List.mem_filter.1 acted
    obtain ⟨entry, entryMember, rfl⟩ := List.mem_map.1 listed
    obtain ⟨index, inside, place⟩ := terminals entry entryMember
    refine ⟨of_decide_eq_true notEnd, ?_⟩
    rwa [place, Symbol.index_ofIndex (by omega)]
  · exact extras symbol extra

/-- A state that is added has a lexical state that is known or a new one. -/
theorem lexState_addState (table : Table) (index : Nat) (items : List (Item × Lookahead))
    (edges : List (Symbol × Nat)) :
    ∃ state, (addState context table index items edges).states = state :: table.states ∧
      ((∃ place < table.lexStates.length, state.lexState = .ofIndex place ∧
        (addState context table index items edges).lexStates = table.lexStates) ∨
      state.lexState = .ofIndex table.lexStates.length ∧
        (addState context table index items edges).lexStates =
          table.lexStates ++ [validTerminals context state.actions]) := by
  refine ⟨_, rfl, ?_⟩
  unfold addState
  dsimp only
  split
  · next place known =>
      exact .inl ⟨place, (List.findIdx?_eq_some_iff_getElem.1 known).1, rfl, rfl⟩
  · exact .inr ⟨rfl, rfl⟩

theorem Lexical.added {table : Table} (lexical : Lexical context table)
    (small : context.grammar.terminalCount < 65536)
    (extras : ∀ symbol ∈ context.grammar.extras, symbol.Inner context.grammar.terminalCount)
    (index : Nat) {kernel : List (Item × Lookahead)} {edges : List (Symbol × Nat)}
    (followed : FollowedWithin context kernel) :
    Lexical context (addState context table index (context.closureItems kernel) edges) := by
  obtain ⟨state, states, stands⟩ := standsFor_addState table index kernel edges followed
  obtain ⟨_, same, known | new⟩ :=
    @lexState_addState context table index (context.closureItems kernel) edges
  · obtain ⟨place, inside, lexState, lexStates⟩ := known
    refine ⟨lexStates ▸ lexical.terminals, lexStates ▸ lexical.sizes, ?_, ?_⟩
    · rw [lexStates, same, List.length_cons]
      exact Nat.le_succ_of_le lexical.count
    · rw [lexStates, same]
      exact List.forall_mem_cons.2 ⟨⟨place, inside, lexState⟩, lexical.found⟩
  · obtain ⟨lexState, lexStates⟩ := new
    obtain rfl := (List.cons.inj (states.symm.trans same)).1
    refine ⟨?_, ?_, ?_, ?_⟩
    · rw [lexStates]
      exact List.forall_mem_append.2 ⟨lexical.terminals, List.forall_mem_singleton.2
        (inner_validTerminals small extras stands.terminals)⟩
    · rw [lexStates]
      exact List.forall_mem_append.2 ⟨lexical.sizes, List.forall_mem_singleton.2
        (SymbolSet.length_toList_ofList_le _)⟩
    · rw [lexStates, same, List.length_append, List.length_singleton, List.length_cons]
      exact Nat.succ_le_succ lexical.count
    · rw [lexStates, same, List.length_append, List.length_singleton]
      refine List.forall_mem_cons.2 ⟨⟨_, Nat.lt_succ_self _, lexState⟩, fun other member => ?_⟩
      obtain ⟨place, inside, found⟩ := lexical.found other member
      exact ⟨place, Nat.lt_succ_of_lt inside, found⟩

theorem map_fst_seeds (lookaheads : KernelLookaheads) (entry : List Item × Nat) :
    (seeds lookaheads entry).map Prod.fst = entry.1 := by
  rw [seeds, List.map_map]
  exact List.zipIdx_map_fst 0 entry.1

/-- The states stand for the kernels of the automaton, one by one. -/
theorem standsFor_ofAutomaton (automaton : Automaton) (lookaheads : KernelLookaheads)
    (followed : ∀ entry, FollowedWithin context (seeds lookaheads entry)) :
    List.Forall₂
      (fun (entry : List Item × Nat) state =>
        StandsFor context entry.1 ((automaton.transitions[entry.2]?).getD []) state)
      automaton.kernels.toList.zipIdx (ofAutomaton context automaton lookaheads).states := by
  have all : ∀ (done later : List (List Item × Nat)) (table : Table),
      List.Forall₂ (fun (entry : List Item × Nat) state =>
        StandsFor context entry.1 ((automaton.transitions[entry.2]?).getD []) state)
        done table.states.reverse →
      List.Forall₂ (fun (entry : List Item × Nat) state =>
        StandsFor context entry.1 ((automaton.transitions[entry.2]?).getD []) state)
        (done ++ later) (later.foldl (fun (table : Table) (entry : List Item × Nat) =>
          addState context table entry.2 (context.closureItems (seeds lookaheads entry))
            ((automaton.transitions[entry.2]?).getD [])) table).states.reverse := by
    intro done later
    induction later generalizing done with
    | nil =>
        intro table stands
        rwa [List.append_nil]
    | cons entry rest induction =>
        intro table stands
        obtain ⟨state, added, standsFor⟩ := @standsFor_addState context table entry.2
          (seeds lookaheads entry) ((automaton.transitions[entry.2]?).getD []) (followed entry)
        rw [map_fst_seeds] at standsFor
        have next := induction (done ++ [entry]) (addState context table entry.2
          (context.closureItems (seeds lookaheads entry))
          ((automaton.transitions[entry.2]?).getD [])) (by
            rw [added, List.reverse_cons]
            exact List.rel_append stands (.cons standsFor .nil))
        rwa [List.append_assoc] at next
  exact all [] _ ⟨[], [], []⟩ .nil

theorem lexical_ofAutomaton (automaton : Automaton) (lookaheads : KernelLookaheads)
    (small : context.grammar.terminalCount < 65536)
    (extras : ∀ symbol ∈ context.grammar.extras, symbol.Inner context.grammar.terminalCount)
    (followed : ∀ entry, FollowedWithin context (seeds lookaheads entry)) :
    Lexical context (ofAutomaton context automaton lookaheads) := by
  have start : Lexical context ⟨[], [], []⟩ := by
    constructor <;> simp
  have all := List.foldlRecOn automaton.kernels.toList.zipIdx
    (fun (table : Table) (entry : List Item × Nat) =>
      addState context table entry.2 (context.closureItems (seeds lookaheads entry))
        ((automaton.transitions[entry.2]?).getD [])) start
    fun table lexical entry _ => lexical.added small extras entry.2 (followed entry)
  refine ⟨all.terminals, all.sizes, ?_, fun state member => all.found state ?_⟩
  · exact all.count.trans (List.length_reverse ..).ge
  · exact List.mem_reverse.1 member

end Table

/-- Whether a table has been made from an automaton that knows all transitions. -/
structure Table.MadeFrom (table : Table) (plain : PlainGrammar) (automaton : Automaton) : Prop where
  /-- The automaton is complete. -/
  complete : Automaton.Complete (Context.ofGrammar plain) automaton
  /-- It is small enough for its states to have ids. -/
  small : automaton.kernels.size < Automaton.maxStates
  /-- There are as many states as kernels. -/
  size : table.states.length = automaton.kernels.size
  /-- Each state stands for its kernel. -/
  stands : ∀ (index : Nat) state kernel edges, table.states[index]? = some state →
    automaton.kernels[index]? = some kernel → automaton.transitions[index]? = some edges →
    StandsFor (Context.ofGrammar plain) kernel edges state
  /-- The states look for terminals. -/
  lexical : table.Lexical (Context.ofGrammar plain)

/-- The table of a grammar is made from its automaton and the lookaheads in it. -/
theorem Table.ofGrammar_eq_ok {plain : PlainGrammar} {table : Table}
    (made : ofGrammar plain = .ok table) :
    (Automaton.ofContext (Context.ofGrammar plain)).kernels.size < Automaton.maxStates ∧
      table = ofAutomaton (Context.ofGrammar plain)
        (Automaton.ofContext (Context.ofGrammar plain))
        (.ofAutomaton (Context.ofGrammar plain)
          (Automaton.ofContext (Context.ofGrammar plain))) := by
  unfold ofGrammar at made
  dsimp only at made
  split at made
  · cases made
  · next fits => exact ⟨Nat.lt_of_not_le fits, (Except.ok.inj made).symm⟩

/-- There is a table unless there are too many states. -/
theorem Table.ofGrammar_of_small {plain : PlainGrammar}
    (small : (Automaton.ofContext (Context.ofGrammar plain)).kernels.size < Automaton.maxStates) :
    ofGrammar plain = .ok (ofAutomaton (Context.ofGrammar plain)
      (Automaton.ofContext (Context.ofGrammar plain))
      (.ofAutomaton (Context.ofGrammar plain)
        (Automaton.ofContext (Context.ofGrammar plain)))) := by
  unfold ofGrammar
  dsimp only
  rw [if_neg (Nat.not_le.2 small)]
  rfl

theorem Table.madeFrom_of_ofGrammar {plain : PlainGrammar} {table : Table} (sound : plain.Sound)
    (made : ofGrammar plain = .ok table) : ∃ automaton, table.MadeFrom plain automaton := by
  obtain ⟨small, rfl⟩ := ofGrammar_eq_ok made
  have complete := Automaton.complete_ofGrammar plain
  generalize Automaton.ofContext (Context.ofGrammar plain) = automaton at small complete
  have bounded := KernelLookaheads.bounded_ofAutomaton plain automaton
  have terminalCount : plain.terminalCount < 65536 := by
    have symbols := sound.symbolCount
    have terminals := sound.terminalCount
    omega
  generalize KernelLookaheads.ofAutomaton (Context.ofGrammar plain) automaton = lookaheads
    at bounded
  have followed : ∀ entry, FollowedWithin (Context.ofGrammar plain) (seeds lookaheads entry) := by
    refine fun entry => Context.within_closureItems fun seed member => ?_
    obtain ⟨⟨item, position⟩, -, rfl⟩ := List.mem_map.1 member
    exact bounded ⟨entry.2, position⟩
  have parts := standsFor_ofAutomaton automaton lookaheads followed
  refine ⟨automaton, complete, small, ?_, ?_,
    lexical_ofAutomaton automaton lookaheads terminalCount sound.extras followed⟩
  · simpa using parts.length_eq.symm
  · intro index state kernel edges stateFound kernelFound edgesFound
    obtain ⟨stateInside, rfl⟩ := List.getElem?_eq_some_iff.1 stateFound
    obtain ⟨kernelInside, rfl⟩ := Array.getElem?_eq_some_iff.1 kernelFound
    have stands := parts.get (i := index) (by simpa using kernelInside) stateInside
    simpa [edgesFound] using stands

end Lalr

end IncrementalGlr
