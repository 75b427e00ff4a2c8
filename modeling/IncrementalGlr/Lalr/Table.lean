import IncrementalGlr.Description.Basic
import IncrementalGlr.Lalr.Automaton
import IncrementalGlr.Lalr.Item

/-!
# Parse tables

The states of the automaton with their actions and gotos.  A state looks for the terminals it acts
on and for the extras; states that look for the same terminals share a lexical state.
-/

namespace IncrementalGlr

/-! ## Resolution of conflicts

Where a state calls for several actions on a terminal, precedence decides what it can.  A shift
competes with each reduction by the highest precedence of the items that shift; between equal
precedences associativity decides.  Of the reductions only those of the highest precedence remain.
What is left undecided is a conflict, and all its actions are kept. -/

namespace Lalr

/-- A state and a terminal on which more than one action is left. -/
structure Conflict where
  /-- The state. -/
  state : StateId
  /-- Name of the terminal. -/
  lookahead : String
  /-- The actions in words, in order of preference. -/
  actions : List String
  /-- Whether the grammar declares the conflict. -/
  expected : Bool
  deriving DecidableEq, Inhabited

namespace Conflict

/-- The conflict in words. -/
def describe (conflict : Conflict) : String :=
  "state " ++ toString conflict.state.index ++ ", on `" ++ conflict.lookahead ++ "`: " ++
    " / ".intercalate conflict.actions

end Conflict

namespace Context

/-- Precedence and associativity of a production. -/
def precedence (context : Context) (production : Nat) : Int × Option Associativity :=
  match context.grammar.productions[production]? with
  | some production => (production.precedence, production.associativity)
  | none => (0, none)

/-- The order of actions: shift, accept, reductions by production. -/
def actionLe : Action → Action → Bool
  | .shift _, _ => true
  | .accept, .shift _ => false
  | .accept, _ => true
  | .reduce left, .reduce right => left.index ≤ right.index
  | .reduce _, _ => false

/-- The highest precedence of the items that shift a terminal. -/
def shiftPrecedence? (context : Context) (items : List Item) (terminal : Symbol) : Option Int :=
  ((items.filter fun item => context.next? item == some terminal).map fun item =>
    (context.precedence item.production).1).max?

/-- How a reduction competes with a shift of the given precedence. -/
inductive Contest
  /-- The shift is dropped. -/
  | reductionWins
  /-- The reduction is dropped. -/
  | shiftWins
  /-- Both are kept. -/
  | tie
  deriving DecidableEq, Inhabited

/-- The outcome between a reduction and a shift. -/
def contest (shift : Int) (reduction : Int × Option Associativity) : Contest :=
  if reduction.1 < shift then .shiftWins
  else if shift < reduction.1 then .reductionWins
  else
    match reduction.2 with
    | some .left => .reductionWins
    | some .right => .shiftWins
    | none => .tie

/-- The outcome between a reduction and a shift that may be missing. -/
def contest? (context : Context) (shift : Option Int) (production : ProductionId) : Contest :=
  match shift with
  | some shift => contest shift (context.precedence production.index)
  | none => .tie

/-- The production of a reduction. -/
def reduction? : Action → Option ProductionId
  | .reduce production => some production
  | _ => none

/-- Whether an action is a shift. -/
def isShift : Action → Bool
  | .shift _ => true
  | _ => false

/-- The actions without repetitions, in order. -/
def arrange (actions : List Action) : List Action := (sortBy actionLe actions).eraseReps

/-- Orders the actions of a state on a terminal and drops those that lose on precedence. -/
def resolve (context : Context) (items : List Item) (terminal : Symbol)
    (actions : List Action) : List Action :=
  let actions := arrange actions
  if actions.length < 2 then actions
  else
    let shift := context.shiftPrecedence? items terminal
    let reductions := actions.filterMap reduction?
    let keepShift := shift.isSome &&
      reductions.all fun production => context.contest? shift production != .reductionWins
    let kept := reductions.filter fun production =>
      context.contest? shift production != .shiftWins
    let best := (kept.map fun production => (context.precedence production.index).1).max?
    (if keepShift then actions.filter isShift else []) ++
      actions.filter (fun action => action == .accept) ++
      (kept.filter fun production =>
        some (context.precedence production.index).1 == best).map Action.reduce

/-- A production in words. -/
def describeProduction (context : Context) (production : PlainProduction) : String :=
  context.grammar.symbolName production.lhs ++ " -> " ++
    " ".intercalate (production.rhs.map context.grammar.symbolName)

/-- An action in words. -/
def describeAction (context : Context) : Action → String
  | .shift _ => "shift"
  | .accept => "accept"
  | .reduce production =>
    "reduce " ++
      ((context.grammar.productions[production.index]?).map context.describeProduction).getD ""

/-- The symbols whose productions call for an action. -/
def involved (context : Context) (items : List Item) (terminal : Symbol) :
    Action → List Symbol
  | .shift _ =>
    (items.filter fun item => context.next? item == some terminal).filterMap fun item =>
      (context.grammar.productions[item.production]?).map PlainProduction.lhs
  | .accept => []
  | .reduce production =>
    ((context.grammar.productions[production.index]?).map PlainProduction.lhs).toList

/-- The conflict of the actions that are left.  It is expected if some declared set contains all
symbols involved. -/
def conflict (context : Context) (state : StateId) (items : List Item) (terminal : Symbol)
    (actions : List Action) : Conflict where
  state := state
  lookahead := context.grammar.symbolName terminal
  actions := actions.map context.describeAction
  expected :=
    let symbols := actions.flatMap (context.involved items terminal)
    context.grammar.expectedConflicts.any fun set => symbols.all set.contains

end Context

/-! ## Parse tables -/

/-- A parse table. -/
structure Table where
  /-- The states. -/
  states : List StateData
  /-- The terminals valid in each lexical state, in ascending order. -/
  lexStates : List (List Symbol)
  /-- The conflicts that precedence does not decide. -/
  conflicts : List Conflict
  deriving Inhabited

namespace Table

/-- The actions that the items and transitions of a state call for on a terminal. -/
def actionsOn (context : Context) (items : List (Item × Lookahead))
    (transitions : List (Symbol × Nat)) (terminal : Symbol) : List Action :=
  let shifts := transitions.filterMap fun (symbol, target) =>
    if symbol = terminal then some (Action.shift (.ofIndex target)) else none
  let completed := items.filter fun (item, _) => context.isComplete item
  let reductions := completed.filterMap fun (item, lookahead) =>
    if item.production = context.wholeText then
      if terminal = .endOfInput then some Action.accept else none
    else if lookahead.symbols.contains terminal then
      some (Action.reduce (.ofIndex item.production))
    else none
  shifts ++ reductions

/-- The gotos among the transitions of a state. -/
def gotos (context : Context) (transitions : List (Symbol × Nat)) : List (Symbol × StateId) :=
  (transitions.filter fun (symbol, _) => !context.grammar.isTerminal symbol).map
    fun (symbol, target) => (symbol, .ofIndex target)

/-- The terminals that a state looks for. -/
def validTerminals (context : Context) (actions : List (Symbol × List Action)) : List Symbol :=
  (SymbolSet.ofList
    ((actions.map Prod.fst).filter (· ≠ .endOfInput) ++ context.grammar.extras)).toList

/-- Adds a state with the given closure and transitions. -/
def addState (context : Context) (table : Table) (index : Nat) (items : List (Item × Lookahead))
    (transitions : List (Symbol × Nat)) : Table :=
  let state := StateId.ofIndex index
  let kernel := items.map Prod.fst
  let cells := (List.range context.grammar.terminalCount).filterMap fun terminal =>
    let terminal := Symbol.ofIndex terminal
    match actionsOn context items transitions terminal with
    | [] => none
    | actions => some (terminal, context.resolve kernel terminal actions)
  let conflicts := cells.filterMap fun (terminal, actions) =>
    if 1 < actions.length then some (context.conflict state kernel terminal actions) else none
  let valid := validTerminals context cells
  let (lexState, lexStates) :=
    match table.lexStates.findIdx? fun known => known == valid with
    | some known => (known, table.lexStates)
    | none => (table.lexStates.length, table.lexStates ++ [valid])
  { states := ⟨.ofIndex lexState, cells, gotos context transitions⟩ :: table.states
    lexStates
    conflicts := conflicts.reverse ++ table.conflicts }

/-- The items of a state's kernel with the terminals that may follow them. -/
def seeds (lookaheads : KernelLookaheads) (entry : List Item × Nat) : List (Item × Lookahead) :=
  entry.1.zipIdx.map fun (item, position) => (item, ⟨lookaheads.get ⟨entry.2, position⟩, false⟩)

/-- The table of a grammar's states and lookaheads. -/
def ofAutomaton (context : Context) (automaton : Automaton) (lookaheads : KernelLookaheads) :
    Table :=
  let table := automaton.kernels.toList.zipIdx.foldl
    (fun (table : Table) (entry : List Item × Nat) =>
      addState context table entry.2 (context.closureItems (seeds lookaheads entry))
        ((automaton.transitions[entry.2]?).getD []))
    ⟨[], [], []⟩
  ⟨table.states.reverse, table.lexStates, table.conflicts.reverse⟩

/-- The parse table of a plain grammar. -/
def ofGrammar (grammar : PlainGrammar) : Except CompileError Table := do
  let context := Context.ofGrammar grammar
  let automaton := Automaton.ofContext context
  if Automaton.maxStates ≤ automaton.kernels.size then
    throw (.tooLarge .parseStates automaton.kernels.size)
  return ofAutomaton context automaton (.ofAutomaton context automaton)

end Table

end Lalr

end IncrementalGlr
