import IncrementalGlr.Proofs.Lalr.Recognition
import IncrementalGlr.Proofs.Moves
import IncrementalGlr.Proofs.StackContents

/-!
# Stacks that spell what is recognised

The states on a stack form a path from the start state: an extra keeps the state below it and every
other subtree enters its state over its symbol.  So the right-hand side of a production that the top
state has recognised is on the stack, and the state below has a goto for the left-hand side.
-/

namespace IncrementalGlr

open Lalr (Context)

variable {grammar : Grammar} {plain : PlainGrammar} {items : StateId → Lalr.Item → Prop}

/-- Whether a grammar works on the states and productions of a plain grammar. -/
structure Grammar.WorksOn (grammar : Grammar) (plain : PlainGrammar)
    (items : StateId → Lalr.Item → Prop) : Prop where
  /-- Its actions and gotos are those that the items call for. -/
  recognizes : Recognizes grammar plain items
  /-- Its productions are those of the plain grammar. -/
  production {production : ProductionId} {source : PlainProduction} :
    plain.productions[production.index]? = some source →
      (grammar.production production).lhs = source.lhs ∧
        (grammar.production production).length.toNat = source.rhs.length
  /-- So is its start symbol. -/
  start : grammar.startSymbol = plain.start

/-- A compiled grammar works on the items of its automaton. -/
theorem Grammar.ComesFrom.worksOn {table : Lalr.Table} {automaton : Lalr.Automaton}
    (comes : grammar.ComesFrom plain table) (made : table.MadeFrom plain automaton) :
    grammar.WorksOn plain (ItemsOf plain automaton) where
  recognizes := comes.recognizes made
  production {production source} found := by
    obtain ⟨stored, storedFound, lhs, length⟩ := comes.production_stored found
    have same : grammar.production production = stored := by
      rw [Grammar.production, comes.loaded.productions, List.getElem?_toArray, storedFound]
      rfl
    rw [same]
    exact ⟨lhs, length⟩
  start := comes.start

/-- The symbols of the subtrees that are not extras. -/
def Subtree.plainSymbols (subtrees : List Subtree) : List Symbol :=
  (subtrees.filter fun subtree => !subtree.isExtra).map Subtree.symbol

namespace Subtree

theorem plainSymbols_append (left right : List Subtree) :
    plainSymbols (left ++ right) = plainSymbols left ++ plainSymbols right := by
  simp [plainSymbols]

theorem plainSymbols_singleton (subtree : Subtree) :
    plainSymbols [subtree] = if subtree.isExtra then [] else [subtree.symbol] := by
  cases isExtra : subtree.isExtra <;> simp [plainSymbols, isExtra]

theorem plainSymbols_extras {subtrees : List Subtree}
    (extras : ∀ subtree ∈ subtrees, subtree.isExtra = true) : plainSymbols subtrees = [] := by
  rw [plainSymbols, List.map_eq_nil_iff, List.filter_eq_nil_iff]
  exact fun subtree member => by simp [extras subtree member]

/-- Nothing but extras follows the only subtree that is not one. -/
theorem plainSymbols_after {subtrees : List Subtree} {root : Subtree}
    (only : subtrees.filter (fun subtree => !subtree.isExtra) = [root]) :
    plainSymbols (subtrees.dropWhile isExtra).tail = [] := by
  have member : root ∈ subtrees.filter fun subtree => !subtree.isExtra := by
    rw [only]
    exact List.mem_singleton_self root
  have notExtra := (List.mem_filter.1 member).2
  have total := congrArg List.length only
  rw [ParseStack.split_of_filter only, List.filter_append,
    @List.filter_cons_of_pos _ (fun subtree => !subtree.isExtra) root _ notExtra,
    List.length_append, List.length_cons, List.length_singleton] at total
  have none : ((subtrees.dropWhile isExtra).tail.filter
      fun subtree => !subtree.isExtra).length = 0 := by omega
  rw [plainSymbols, List.length_eq_zero_iff.1 none, List.map_nil]

/-- Whether every node that records a production is made by it: its symbol is that on the left, and
the symbols of its children without the extras are those on the right. -/
inductive Derived (plain : PlainGrammar) : Subtree → Prop
  /-- A subtree that is made by the production that it records, if it is a node and records one, and
  whose children are derived. -/
  | mk {subtree : Subtree}
    (own : subtree.isLeaf = false → subtree.production ≠ .none →
      ∃ production : PlainProduction,
        plain.productions[subtree.production.index]? = some production ∧
          subtree.symbol = production.lhs ∧ plainSymbols subtree.children = production.rhs)
    (under : ∀ child ∈ subtree.children, Derived plain child) : Derived plain subtree

theorem Derived.own {subtree : Subtree} (derived : subtree.Derived plain) :
    subtree.isLeaf = false → subtree.production ≠ .none →
      ∃ production : PlainProduction,
        plain.productions[subtree.production.index]? = some production ∧
          subtree.symbol = production.lhs ∧ plainSymbols subtree.children = production.rhs := by
  cases derived
  assumption

theorem Derived.child {subtree : Subtree} (derived : subtree.Derived plain) :
    ∀ child ∈ subtree.children, child.Derived plain := by
  cases derived
  assumption

theorem plainSymbols_map_erase (subtrees : List Subtree) :
    plainSymbols (subtrees.map erase) = plainSymbols subtrees := by
  simp [plainSymbols, List.filter_map, Function.comp_def]

/-- Ids do not matter for what a subtree is derived by. -/
theorem Derived.of_erase {subtree : Subtree} (derived : subtree.erase.Derived plain) :
    subtree.Derived plain := by
  generalize same : subtree.erase = erased at derived
  induction derived generalizing subtree with
  | @mk erased own under induction =>
      subst same
      refine .mk (fun node recorded => ?_) fun child member => ?_
      · rw [erase_isLeaf, erase_production, erase_symbol, erase_children,
          plainSymbols_map_erase] at own
        exact own node recorded
      · rw [erase_children] at induction
        exact induction child.erase (List.mem_map_of_mem member) rfl

theorem derived_ofLeaf {id : Nat} (spec : LeafSpec) : (ofLeaf id spec).Derived plain :=
  .mk (fun node => by cases node) fun child never => absurd never List.not_mem_nil

/-- A node without a production is derived if its children are. -/
theorem derived_ofChildren {id : Nat} {spec : NodeSpec} (none : spec.production = .none)
    {children : List Subtree} (derived : ∀ child ∈ children, child.Derived plain) :
    (ofChildren id spec children).Derived plain :=
  .mk (fun _ recorded => absurd none recorded) derived

end Subtree

namespace ParseStack

/-- Whether the states on a stack form a path from the start state over the symbols of the subtrees
that are not extras. -/
inductive Spells (plain : PlainGrammar) (items : StateId → Lalr.Item → Prop) : ParseStack → Prop
  /-- The stack is empty. -/
  | nil : Spells plain items []
  /-- The top is an extra, which keeps the state. -/
  | extra {below : ParseStack} {subtree : Subtree} (path : Spells plain items below)
    (isExtra : subtree.isExtra = true) : Spells plain items (⟨below.state, subtree⟩ :: below)
  /-- The top enters its state over its symbol. -/
  | enter {below : ParseStack} {subtree : Subtree} {state : StateId}
    (path : Spells plain items below) (notExtra : subtree.isExtra = false)
    (enters : Enters plain items below.state subtree.symbol state) :
    Spells plain items (⟨state, subtree⟩ :: below)

variable {stack : ParseStack}

theorem Spells.drop (path : stack.Spells plain items) (count : Nat) :
    ParseStack.Spells plain items (stack.drop count) := by
  induction path generalizing count with
  | nil =>
      rw [List.drop_nil]
      exact .nil
  | extra path isExtra induction =>
      cases count with
      | zero => exact .extra path isExtra
      | succ count => exact induction count
  | enter path notExtra enters induction =>
      cases count with
      | zero => exact .enter path notExtra enters
      | succ count => exact induction count

/-- As many subtrees that are not extras can be taken from a stack as an item of its state has
recognised, and their symbols are those that the item has recognised. -/
theorem Spells.takeFrom (recognizes : Recognizes grammar plain items)
    (path : stack.Spells plain items) {production dot count : Nat}
    (item : items stack.state ⟨production, dot + count⟩) {children trailing : List Subtree}
    (extras : ∀ extra ∈ trailing, extra.isExtra = true) :
    ∃ taken after below,
      ParseStack.takeFrom children trailing count stack = some (taken, after, below) ∧
        below.Spells plain items ∧ items below.state ⟨production, dot⟩ ∧
        Subtree.plainSymbols taken =
          (((Context.ofGrammar plain).rhs production).drop dot).take count ++
            Subtree.plainSymbols children ∧
        ∀ extra ∈ after, extra.isExtra = true := by
  induction path generalizing count children trailing with
  | nil =>
      cases count with
      | zero => exact ⟨children, trailing, [], rfl, .nil, item, by simp, extras⟩
      | succ count => cases recognizes.start item
  | @extra below subtree path isExtra induction =>
      cases count with
      | zero =>
          refine ⟨children, trailing, _, rfl, .extra path isExtra, item, by simp, extras⟩
      | succ count =>
          simp only [ParseStack.takeFrom, isExtra, Bool.not_true, Bool.false_eq_true, if_false]
          split
          · exact induction item fun extra member =>
              (List.mem_cons.1 member).elim (fun same => same ▸ isExtra) (extras extra)
          · obtain ⟨taken, after, rest, found, restPath, restItem, symbols, afterExtras⟩ :=
              @induction (count + 1) item (subtree :: children) trailing extras
            refine ⟨taken, after, rest, found, restPath, restItem, ?_, afterExtras⟩
            rw [symbols]
            simp [Subtree.plainSymbols, isExtra]
  | @enter below subtree state path notExtra enters induction =>
      cases count with
      | zero => exact ⟨children, trailing, _, rfl, .enter path notExtra enters, item, by simp, extras⟩
      | succ count =>
          obtain ⟨origin, spelled⟩ := enters.origin item
          rw [Nat.add_eq] at origin spelled
          obtain ⟨taken, after, rest, found, restPath, restItem, symbols, afterExtras⟩ :=
            @induction count origin (subtree :: children) trailing extras
          refine ⟨taken, after, rest, ?_, restPath, restItem, ?_, afterExtras⟩
          · simpa [ParseStack.takeFrom, notExtra] using found
          · rw [symbols, List.take_add_one, List.getElem?_drop, spelled]
            simp [Subtree.plainSymbols, notExtra]

/-- A production that the state of a stack has recognised can be taken from the stack, and the state
below has a goto for what it defines. -/
theorem Spells.reducible (works : grammar.WorksOn plain items)
    (path : stack.Spells plain items) {symbol : Symbol} {production : ProductionId}
    (action : .reduce production ∈ grammar.actions stack.state symbol) :
    ∃ source : PlainProduction, plain.productions[production.index]? = some source ∧
      ∃ taken after below next,
        stack.takeChildren (grammar.production production).length.toNat =
            some (taken, after, below) ∧
          below.Spells plain items ∧ Subtree.plainSymbols taken = source.rhs ∧
          (∀ extra ∈ after, extra.isExtra = true) ∧
          grammar.goto? below.state (grammar.production production).lhs = some next ∧
          Enters plain items below.state source.lhs next := by
  obtain ⟨source, found, item⟩ := works.recognizes.reduce action
  obtain ⟨lhs, length⟩ := works.production found
  rw [← Nat.zero_add source.rhs.length] at item
  obtain ⟨taken, after, below, took, belowPath, origin, symbols, extras⟩ :=
    @Spells.takeFrom grammar plain items stack works.recognizes path _ _ _ item [] []
      fun extra never => absurd never List.not_mem_nil
  obtain ⟨next, goto⟩ := works.recognizes.expects origin found
  rw [Context.rhs_ofGrammar found] at symbols
  refine ⟨source, found, taken, after, below, next, ?_, belowPath, ?_, extras, ?_, ?_⟩
  · rw [length]
    exact took
  · simpa [Subtree.plainSymbols] using symbols
  · rw [lhs]
    exact goto
  · exact works.recognizes.goto goto

/-- Whoever accepts has the start symbol on the stack, with nothing but extras on it. -/
theorem Spells.accepting (recognizes : Recognizes grammar plain items)
    (path : stack.Spells plain items) {symbol : Symbol}
    (action : .accept ∈ grammar.actions stack.state symbol) :
    ∃ below : ParseStack, below.Spells plain items ∧
      items below.state ⟨plain.productions.length, 0⟩ ∧
      Subtree.plainSymbols stack.subtrees =
        Subtree.plainSymbols below.subtrees ++ [plain.start] := by
  obtain ⟨-, item⟩ := recognizes.accept action
  obtain ⟨taken, after, below, found, belowPath, origin, symbols, extras⟩ :=
    @Spells.takeFrom grammar plain items stack recognizes path _ 0 1 item [] []
      fun extra never => absurd never List.not_mem_nil
  have whole : (Context.ofGrammar plain).rhs plain.productions.length = [plain.start] :=
    Context.rhs_wholeText
  rw [whole] at symbols
  refine ⟨below, belowPath, origin, ?_⟩
  rw [← takeChildren_subtrees found, Subtree.plainSymbols_append, Subtree.plainSymbols_append,
    Subtree.plainSymbols_extras extras, symbols]
  simp [Subtree.plainSymbols]

/-! ## Taking what has been pushed -/

variable {base pushed : ParseStack} {extras : List Subtree}

/-- Number of subtrees on a stack that are not extras. -/
def plainHeight (stack : ParseStack) : Nat := (Subtree.plainSymbols stack.subtrees).length

theorem plainHeight_cons (entry : StackEntry) :
    plainHeight (entry :: stack) =
      if entry.subtree.isExtra then stack.plainHeight else stack.plainHeight + 1 := by
  rw [plainHeight, subtrees_cons, Subtree.plainSymbols_append, Subtree.plainSymbols_singleton,
    List.length_append]
  split <;> rfl

/-- Whether the lowest subtree on a stack, if there is one, is no extra. -/
def Grounded (stack : ParseStack) : Prop :=
  ∀ entry ∈ stack.getLast?, entry.subtree.isExtra = false

theorem Grounded.tail {entry : StackEntry} (grounded : Grounded (entry :: stack)) :
    stack.Grounded := by
  intro last member
  refine grounded last ?_
  rw [List.getLast?_cons, member]
  rfl

theorem Grounded.plainHeight_pos (grounded : stack.Grounded) (some_ : stack ≠ []) :
    0 < stack.plainHeight := by
  have last : (stack.getLast some_).subtree ∈ stack.subtrees :=
    List.mem_reverse.2 (List.mem_map_of_mem (List.getLast_mem some_))
  have notExtra := grounded _ (List.getLast?_eq_some_getLast some_)
  exact List.length_pos_of_mem (List.mem_map_of_mem
    (List.mem_filter.2 ⟨last, by rw [notExtra]; rfl⟩))

/-- What lies on a subtree that is no extra is taken together with it. -/
theorem Grounded.takeFrom_append (grounded : pushed.Grounded) {children : List Subtree}
    (some_ : children ≠ []) (trailing : List Subtree) :
    takeFrom children trailing (plainHeight pushed) (pushed ++ base) =
      some (pushed.subtrees ++ children, trailing, base) := by
  induction pushed generalizing children with
  | nil =>
      have none : plainHeight [] = 0 := rfl
      rw [none, takeFrom]
      rfl
  | cons entry rest induction =>
      have later := induction grounded.tail (List.cons_ne_nil entry.subtree children)
      rw [subtrees_cons, List.append_assoc, List.singleton_append, ← later, plainHeight_cons,
        List.cons_append]
      cases isExtra : entry.subtree.isExtra with
      | false => simp [takeFrom, isExtra]
      | true =>
          have deeper : rest ≠ [] := by
            rintro rfl
            exact absurd isExtra (by simp [grounded entry rfl])
          obtain ⟨height, same⟩ :=
            Nat.exists_eq_succ_of_ne_zero (grounded.tail.plainHeight_pos deeper).ne'
          simp [same, takeFrom, isExtra, some_]

/-- Subtrees are taken again if neither the first nor the last of them is an extra. -/
theorem Grounded.takeChildren_pushAll (grounded : pushed.Grounded) (some_ : pushed ≠ [])
    (top : ∀ entry ∈ pushed.head?, entry.subtree.isExtra = false)
    (areExtras : ∀ extra ∈ extras, extra.isExtra = true) {state : StateId} :
    ParseStack.takeChildren pushed.plainHeight
        (ParseStack.pushAll (pushed ++ base) state extras) =
      some (pushed.subtrees, extras, base) := by
  obtain ⟨entry, rest, rfl⟩ := List.exists_cons_of_ne_nil some_
  have notExtra := top entry rfl
  have height : plainHeight (entry :: rest) = plainHeight rest + 1 := by
    rw [plainHeight_cons, notExtra, if_neg Bool.false_ne_true]
  rw [takeChildren, height, takeFrom_pushAll _ areExtras, List.append_nil, subtrees_cons,
    ← grounded.tail.takeFrom_append (List.cons_ne_nil entry.subtree []) extras]
  simp [takeFrom, notExtra]

end ParseStack

end IncrementalGlr
