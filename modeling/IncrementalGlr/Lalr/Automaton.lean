import IncrementalGlr.Lalr.Item

/-!
# States and their lookaheads

States are kernels: sets of items that recognise the same symbols.  They are numbered breadth first
from the start.  The terminals that may follow an item of a kernel are those that some closure
generates for it and those that it takes over from the item a closure started from.
-/

namespace IncrementalGlr

namespace Lalr

/-- The states of a grammar. -/
structure Automaton where
  /-- The items of each state's kernel, in ascending order. -/
  kernels : Array (List Item)
  /-- The transitions of each state, by ascending symbol. -/
  transitions : Array (List (Symbol × Nat))
  deriving Inhabited

namespace Automaton

/-- The order of moves by symbol and then by item. -/
def moveLe (left right : Symbol × Item) : Bool :=
  left.1.index < right.1.index || (left.1 == right.1 && left.2.le right.2)

/-- The moves out of a kernel, grouped by symbol. -/
def moves (context : Context) (kernel : List Item) : List (List (Symbol × Item)) :=
  let items := (context.closureItems (kernel.map fun item => (item, Lookahead.empty))).map
    Prod.fst
  let moves := items.filterMap fun item =>
    (context.next? item).map fun symbol => (symbol, item.advance)
  (sortBy moveLe moves).splitBy fun left right => left.1 == right.1

/-- The position of a kernel, which is added if it is new. -/
def findOrAdd (kernels : Array (List Item)) (kernel : List Item) : Nat × Array (List Item) :=
  match kernels.findIdx? fun other => other == kernel with
  | some index => (index, kernels)
  | none => (kernels.size, kernels.push kernel)

/-- Adds the transition of a group of moves. -/
def addTransition (state : List (Symbol × Nat) × Array (List Item))
    (group : List (Symbol × Item)) : List (Symbol × Nat) × Array (List Item) :=
  match group with
  | (symbol, _) :: _ =>
    let (target, kernels) := findOrAdd state.2 (group.map Prod.snd)
    (state.1 ++ [(symbol, target)], kernels)
  | [] => state

/-- Adds the transitions of the first state that has none yet. -/
def addState (context : Context) (automaton : Automaton) (kernel : List Item) : Automaton :=
  let (edges, kernels) := (moves context kernel).foldl addTransition ([], automaton.kernels)
  ⟨kernels, automaton.transitions.push edges⟩

/-- Adds transitions until every state has them, at most the given number of times. -/
def explore (context : Context) : Nat → Automaton → Automaton
  | 0, automaton => automaton
  | bound + 1, automaton =>
    match automaton.kernels[automaton.transitions.size]? with
    | some kernel => explore context bound (automaton.addState context kernel)
    | none => automaton

/-- Number of items of a grammar. -/
def itemCount (context : Context) : Nat :=
  (context.rhsTable.toList.map fun rhs => rhs.length + 1).foldr (· + ·) 0

/-- Number of states from which on a table is too large. -/
def maxStates : Nat := 65535

/-- The states of a grammar.  Kernels are distinct sets of items, which bounds their number.  The
bound is larger than any table, so either every state has its transitions or there are too many. -/
def ofContext (context : Context) : Automaton :=
  explore context (Nat.pow 2 (itemCount context) + maxStates) ⟨#[[⟨context.wholeText, 0⟩]], #[]⟩

/-- The state entered from a state by a symbol. -/
def target? (automaton : Automaton) (state : Nat) (symbol : Symbol) : Option Nat :=
  (((automaton.transitions[state]?).getD []).find? fun edge => edge.1 == symbol).map Prod.snd

end Automaton

/-- The terminals that may follow each item of each state's kernel. -/
abbrev KernelLookaheads : Type := Array (Array SymbolSet)

/-- An item of a kernel: its state and its position in the kernel. -/
structure KernelItem where
  /-- The state. -/
  state : Nat
  /-- The position among the items of its kernel. -/
  position : Nat
  deriving DecidableEq, Inhabited

namespace KernelLookaheads

/-- The terminals that may follow an item. -/
def get (lookaheads : KernelLookaheads) (item : KernelItem) : SymbolSet :=
  ((lookaheads[item.state]?).bind fun row => row[item.position]?).getD .empty

/-- Adds terminals that may follow an item. -/
def add (lookaheads : KernelLookaheads) (item : KernelItem) (symbols : SymbolSet) :
    KernelLookaheads :=
  lookaheads.modify item.state fun row =>
    row.modify item.position fun set => set.union symbols

/-- The item of another kernel into which an item of a closure advances. -/
def successor? (context : Context) (automaton : Automaton) (state : Nat) (item : Item) :
    Option KernelItem := do
  let symbol ← context.next? item
  let target ← automaton.target? state symbol
  let position ← (← automaton.kernels[target]?).findIdx? fun other => other == item.advance
  return ⟨target, position⟩

/-- For each item of a kernel, the items of other kernels that its closure advances into, with the
terminals it generates for them and whether they take over its own. -/
def flows (context : Context) (automaton : Automaton) :
    List (KernelItem × KernelItem × Lookahead) :=
  automaton.kernels.toList.zipIdx.flatMap fun (kernel, state) =>
    kernel.zipIdx.flatMap fun (item, position) =>
      (context.closureItems [(item, ⟨.empty, true⟩)]).filterMap fun (child, lookahead) =>
        (successor? context automaton state child).map fun target =>
          (⟨state, position⟩, target, lookahead)

/-- Passes terminals on along all flows that take over. -/
def propagate (edges : List (KernelItem × KernelItem)) (lookaheads : KernelLookaheads) :
    KernelLookaheads :=
  edges.foldl (fun lookaheads (source, target) => lookaheads.add target (lookaheads.get source))
    lookaheads

/-- The terminals that may follow each item of each kernel. -/
def ofAutomaton (context : Context) (automaton : Automaton) : KernelLookaheads :=
  let flows := flows context automaton
  let edges := flows.filterMap fun (source, target, lookahead) =>
    if lookahead.inherits then some (source, target) else none
  let nothing : KernelLookaheads := automaton.kernels.map fun kernel =>
    Array.replicate kernel.length .empty
  let start := nothing.add ⟨0, 0⟩ (.singleton .endOfInput)
  let generated := flows.foldl
    (fun lookaheads (_, target, lookahead) => lookaheads.add target lookahead.symbols) start
  let items := (automaton.kernels.toList.map List.length).foldr (· + ·) 0
  iterateUntilStable (propagate edges) (items * (context.grammar.terminalCount + 1) + 1)
    generated

end KernelLookaheads

end Lalr

end IncrementalGlr
