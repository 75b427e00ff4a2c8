import IncrementalGlr.Proofs.Lalr.Bounds
import IncrementalGlr.Proofs.Lalr.Canonical
import IncrementalGlr.Proofs.Lalr.Propagation
import IncrementalGlr.Proofs.Plain.Lowering

/-!
# Lookaheads are those of the canonical collection

In the canonical collection items go with a terminal that may follow them, so there may be several
kernels with the same items.  What lookaheads let follow an item of a state is what follows it in any
of the canonical kernels with the items of the state: no more, because whatever flows from one item
to another one goes from a canonical kernel to one it is moved to, and no less, because the flows
keep up with all moves of canonical kernels.
-/

namespace IncrementalGlr

namespace PlainGrammar

/-- Whether every nonterminal derives some sequence of terminals. -/
def Productive (plain : PlainGrammar) : Prop :=
  ∀ symbol : Symbol, plain.isTerminal symbol = false → symbol.index < plain.symbols.length →
    ∃ word, word ∈ plain.language symbol

variable {plain : PlainGrammar}

theorem Productive.exists_word (productive : plain.Productive) {symbols : List Symbol}
    (known : ∀ symbol ∈ symbols, symbol.index < plain.symbols.length) :
    ∃ word, (∀ terminal ∈ word, plain.isTerminal terminal = true) ∧ plain.Derives symbols word := by
  induction symbols with
  | nil => exact ⟨[], nofun, .refl⟩
  | cons symbol rest induction =>
      obtain ⟨here, later⟩ := List.forall_mem_cons.1 known
      obtain ⟨others, otherTerminals, otherDerives⟩ := induction later
      obtain ⟨word, terminals, derives⟩ : ∃ word, word ∈ plain.language symbol := by
        cases terminal : plain.isTerminal symbol with
        | true => exact ⟨[symbol], language_terminal_le terminal rfl⟩
        | false => exact productive symbol terminal here
      exact ⟨word ++ others, List.forall_mem_append.2 ⟨terminals, otherTerminals⟩,
        derives.concat otherDerives⟩

/-- It is enough that every nonterminal has a production of terminals only. -/
theorem productive_of_forall (all : ∀ index < plain.symbols.length, plain.terminalCount ≤ index →
    ∃ production ∈ plain.productions, production.lhs.index = index ∧
      ∀ symbol ∈ production.rhs, plain.isTerminal symbol = true) : plain.Productive := by
  intro symbol nonterminal inside
  obtain ⟨production, listed, same, terminals⟩ :=
    all symbol.index inside (Nat.le_of_not_lt (of_decide_eq_false nonterminal))
  obtain rfl := Symbol.index_inj same
  exact ⟨production.rhs, terminals, .single (.of_mem listed)⟩

/-- Something begins what is derived from symbols and a terminal behind them. -/
theorem Productive.exists_startsWith (productive : plain.Productive) {symbols : List Symbol}
    (known : ∀ symbol ∈ symbols, symbol.index < plain.symbols.length) {follower : Symbol}
    (isTerminal : plain.isTerminal follower = true) :
    ∃ terminal, plain.StartsWith (symbols ++ [follower]) terminal := by
  obtain ⟨word, terminals, derives⟩ := productive.exists_word known
  have all := derives.append [] [follower]
  cases word with
  | nil => exact ⟨follower, isTerminal, [], all⟩
  | cons first others =>
      exact ⟨first, terminals first List.mem_cons_self, others ++ [follower], all⟩

end PlainGrammar

namespace Lalr

variable {plain : PlainGrammar}

/-! ## Kernels with terminals -/

namespace LrOne

/-- Whether an item with a terminal that may follow it is in the closure of a set of such: with an
item come all productions of the symbol that it calls for, each with the terminals that can begin
what is derived from the symbols behind that symbol and what follows the item. -/
inductive Closure (plain : PlainGrammar) (kernel : Set (Item × Symbol)) : Item × Symbol → Prop
  /-- The items of the set. -/
  | kernel {entry : Item × Symbol} (member : entry ∈ kernel) : Closure plain kernel entry
  /-- The productions of what an item calls for. -/
  | production {caller : Item} {follower symbol : Symbol} {rest : List Symbol} {production : Nat}
    {source : PlainProduction} {terminal : Symbol}
    (inside : Closure plain kernel (caller, follower))
    (spelled : caller.remaining plain = symbol :: rest)
    (found : plain.productions[production]? = some source) (lhs : source.lhs = symbol)
    (starts : plain.StartsWith (rest ++ [follower]) terminal) :
    Closure plain kernel (⟨production, 0⟩, terminal)

/-- The items of a closure that call for a symbol, after the symbol. -/
def move (plain : PlainGrammar) (kernel : Set (Item × Symbol)) (symbol : Symbol) :
    Set (Item × Symbol) :=
  {entry | ∃ origin terminal, Closure plain kernel (origin, terminal) ∧
    (∃ rest, origin.remaining plain = symbol :: rest) ∧ entry = (origin.advance, terminal)}

/-- Whether a set of items with terminals is a kernel of the canonical collection. -/
def IsKernel (plain : PlainGrammar) : Set (Item × Symbol) → Prop :=
  Reached {(⟨plain.productions.length, 0⟩, .endOfInput)} (move plain)

/-- Whether a terminal follows an item in a canonical kernel with given items. -/
def Follows (plain : PlainGrammar) (items : Set Item) (item : Item) (terminal : Symbol) : Prop :=
  ∃ kernel, IsKernel plain kernel ∧ Prod.fst '' kernel = items ∧ (item, terminal) ∈ kernel

/-- Whether only terminals follow the items of a set. -/
def Terminals (plain : PlainGrammar) (kernel : Set (Item × Symbol)) : Prop :=
  ∀ entry ∈ kernel, plain.isTerminal entry.2 = true

variable {kernel : Set (Item × Symbol)}

theorem Terminals.closure (terminals : Terminals plain kernel) {entry : Item × Symbol}
    (inside : Closure plain kernel entry) : plain.isTerminal entry.2 = true := by
  cases inside with
  | kernel member => exact terminals entry member
  | production _ _ _ _ starts => exact starts.1

theorem IsKernel.terminals (numbered : plain.Numbered) (isKernel : IsKernel plain kernel) :
    Terminals plain kernel := by
  induction isKernel with
  | first =>
      rintro _ rfl
      exact decide_eq_true numbered.positive
  | move _ _ induction =>
      rintro _ ⟨origin, terminal, inside, -, rfl⟩
      have isTerminal := induction.closure inside
      exact isTerminal

section Core

variable (sound : plain.Sound) (productive : plain.Productive)

include sound productive

/-- The symbols behind one that an item calls for, with what follows the item, begin with
something. -/
theorem exists_startsWith {caller : Item} {symbol follower : Symbol} {rest : List Symbol}
    (spelled : caller.remaining plain = symbol :: rest)
    (isTerminal : plain.isTerminal follower = true) :
    ∃ terminal, plain.StartsWith (rest ++ [follower]) terminal := by
  refine productive.exists_startsWith (fun other member => ?_) isTerminal
  rw [Item.remaining_eq] at spelled
  obtain ⟨production, listed, inside⟩ := Context.occurs_of_drop spelled other member
  exact (sound.rhs production listed other inside).2

/-- Without their terminals the items of a closure are those of the closure without terminals. -/
theorem core_closure (terminals : Terminals plain kernel) {item : Item} :
    (∃ terminal, Closure plain kernel (item, terminal)) ↔
      LrZero.Closure plain (Prod.fst '' kernel) item := by
  constructor
  · rintro ⟨terminal, inside⟩
    generalize entryEq : (item, terminal) = entry at inside
    induction inside generalizing item terminal with
    | kernel member => exact .kernel ⟨_, member, congrArg Prod.fst entryEq.symm⟩
    | production _ spelled found lhs _ induction =>
        cases entryEq
        exact .production (induction _ rfl) spelled found lhs
  · intro inside
    induction inside with
    | kernel member =>
        obtain ⟨⟨_, terminal⟩, listed, rfl⟩ := member
        exact ⟨terminal, .kernel listed⟩
    | production _ spelled found lhs induction =>
        obtain ⟨follower, caller⟩ := induction
        obtain ⟨terminal, starts⟩ :=
          exists_startsWith sound productive spelled (terminals.closure caller)
        exact ⟨terminal, .production caller spelled found lhs starts⟩

theorem core_move (terminals : Terminals plain kernel) (symbol : Symbol) :
    Prod.fst '' move plain kernel symbol = LrZero.move plain (Prod.fst '' kernel) symbol := by
  ext item
  constructor
  · rintro ⟨_, ⟨origin, terminal, inside, calls, rfl⟩, rfl⟩
    exact ⟨origin, (core_closure sound productive terminals).1 ⟨terminal, inside⟩, calls, rfl⟩
  · rintro ⟨origin, inside, calls, rfl⟩
    obtain ⟨terminal, entry⟩ := (core_closure sound productive terminals).2 inside
    exact ⟨(origin.advance, terminal), ⟨origin, terminal, entry, calls, rfl⟩, rfl⟩

/-- Every canonical kernel without terminals has one with terminals. -/
theorem exists_isKernel (numbered : plain.Numbered) {items : Set Item}
    (isKernel : LrZero.IsKernel plain items) :
    ∃ kernel, IsKernel plain kernel ∧ Prod.fst '' kernel = items := by
  induction isKernel with
  | first => exact ⟨_, .first, Set.image_singleton⟩
  | @move _ symbol _ nonempty induction =>
      obtain ⟨kernel, reached, rfl⟩ := induction
      have core := core_move sound productive (reached.terminals numbered) symbol
      exact ⟨_, .move reached (Set.image_nonempty.1 (core ▸ nonempty)), core⟩

end Core

/-! ## Closures carry no more -/

/-- Whether an item is in a closure with all that is given, where an item of the kernel is followed
by a terminal of its own. -/
structure Carries (plain : PlainGrammar) (kernel : Set (Item × Symbol)) (own : Symbol) (item : Item)
    (lookahead : Lookahead) : Prop where
  /-- Something follows the item. -/
  nonempty : ∃ terminal, Closure plain kernel (item, terminal)
  /-- The terminals that are given. -/
  symbols : ∀ terminal, lookahead.symbols.contains terminal = true →
    Closure plain kernel (item, terminal)
  /-- The terminal that is taken over. -/
  inherits : lookahead.inherits = true → Closure plain kernel (item, own)

/-- What flows from an item is in the closure of every set in which the item is. -/
theorem carries_of_mem_closureItems (sound : plain.Sound) (numbered : plain.Numbered)
    (productive : plain.Productive) (terminals : Terminals plain kernel) {item : Item}
    {own : Symbol} (member : (item, own) ∈ kernel) :
    ∀ entry ∈ (Context.ofGrammar plain).closureItems [(item, ⟨.empty, true⟩)],
      Carries plain kernel own entry.1 entry.2 := by
  refine Context.closureItems_induction (fun left right => ?_) ?_ ?_
  · refine ⟨left.nonempty, fun terminal either => ?_, fun either => ?_⟩
    · exact (SymbolSet.contains_union.1 either).elim (left.symbols terminal) (right.symbols terminal)
    · exact (Bool.or_eq_true_iff.1 either).elim left.inherits right.inherits
  · intro caller lookahead symbol rest production carries spelled source found lhs
    rw [← Item.remaining_eq] at spelled
    have called : ∀ {follower terminal}, Closure plain kernel (caller, follower) →
        plain.StartsWith (rest ++ [follower]) terminal →
          Closure plain kernel (⟨production, 0⟩, terminal) :=
      fun inside starts => .production inside spelled found lhs starts
    have taken : ∀ {follower}, plain.Derives rest [] → Closure plain kernel (caller, follower) →
        Closure plain kernel (⟨production, 0⟩, follower) := fun empty inside =>
      called inside ⟨terminals.closure inside, [], empty.append [] _⟩
    obtain ⟨follower, inside⟩ := carries.nonempty
    refine ⟨?_, fun terminal known => ?_, fun known => ?_⟩
    · obtain ⟨terminal, starts⟩ :=
        exists_startsWith sound productive spelled (terminals.closure inside)
      exact ⟨terminal, called inside starts⟩
    · rcases Lookahead.contains_before.1 known with begins | ⟨empty, behind⟩
      · have starts := (FirstSets.contains_ofString_iff numbered).1 begins
        exact called inside (starts.among .refl [follower])
      · exact taken ((FirstSets.nullable_ofString_iff numbered).1 empty)
          (carries.symbols terminal behind)
    · obtain ⟨empty, inherits⟩ := Lookahead.inherits_before.1 known
      exact taken ((FirstSets.nullable_ofString_iff numbered).1 empty) (carries.inherits inherits)
  · rintro _ seed
    obtain rfl := List.mem_singleton.1 seed
    exact ⟨⟨own, .kernel member⟩, fun terminal never => by simp at never, fun _ => .kernel member⟩

end LrOne

namespace KernelLookaheads

variable {automaton : Automaton}

/-- Whether a terminal follows an item of a state in a canonical kernel with the items of the
state. -/
def FollowsAt (plain : PlainGrammar) (automaton : Automaton) (place : KernelItem)
    (terminal : Symbol) : Prop :=
  ∃ kernel item, automaton.kernels[place.state]? = some kernel ∧
    kernel[place.position]? = some item ∧
      LrOne.Follows plain {other | other ∈ kernel} item terminal

/-- Items of the closure of a canonical kernel are followed by their terminals when they are
advanced. -/
theorem followsAt_successor (sound : plain.Sound) (numbered : plain.Numbered)
    (productive : plain.Productive)
    (complete : automaton.Complete (Context.ofGrammar plain)) {state : Nat} {kernel : List Item}
    (found : automaton.kernels[state]? = some kernel) {entries : Set (Item × Symbol)}
    (isKernel : LrOne.IsKernel plain entries)
    (core : Prod.fst '' entries = {other | other ∈ kernel}) {child : Item} {terminal : Symbol}
    (inside : LrOne.Closure plain entries (child, terminal)) {target : KernelItem}
    (made : successor? (Context.ofGrammar plain) automaton state child = some target) :
    FollowsAt plain automaton target terminal := by
  obtain ⟨symbol, after, next, leads, afterFound, place⟩ := successor?_eq_some made
  have calls := Context.next?_eq_some.1 next
  obtain ⟨edges, edgesFound, links⟩ := complete.exists_links found
  obtain ⟨other, otherFound, advances⟩ :
      ∃ other, automaton.kernels[target.state]? = some other ∧
        Automaton.Advances (Context.ofGrammar plain) kernel symbol other := by
    rw [Automaton.target?, edgesFound, Option.getD_some] at leads
    obtain ⟨edge, first, same⟩ := Option.map_eq_some_iff.1 leads
    have label := List.find?_some first
    obtain rfl : edge.1 = symbol := beq_iff_eq.1 label
    exact same ▸ links.sound edge (List.mem_of_find?_eq_some first)
  cases afterFound.symm.trans otherFound
  have moved : (child.advance, terminal) ∈ LrOne.move plain entries symbol :=
    ⟨child, terminal, inside, calls, rfl⟩
  refine ⟨after, child.advance, afterFound, place, _, .move isKernel ⟨_, moved⟩, ?_, moved⟩
  rw [LrOne.core_move sound productive (isKernel.terminals numbered), core,
    advances.eq_move numbered]

/-- Whatever lookaheads let follow an item follows it in a canonical kernel. -/
theorem within_followsAt (sound : plain.Sound) (numbered : plain.Numbered)
    (productive : plain.Productive) :
    (ofAutomaton (Context.ofGrammar plain) (.ofContext (Context.ofGrammar plain))).Within
      (FollowsAt plain (.ofContext (Context.ofGrammar plain))) := by
  have complete := Automaton.complete_ofGrammar plain
  have canonical := Automaton.isCanonical_ofGrammar numbered
  refine within_ofAutomaton ?_ ?_ ?_
  · exact ⟨_, _, complete.start, rfl, _, .first,
      Set.image_singleton.trans (Automaton.start_items plain).symm, rfl⟩
  · intro source target lookahead flow terminal member
    obtain ⟨kernel, item, child, found, place, listed, made⟩ := mem_flows.1 flow
    obtain ⟨entries, isKernel, core⟩ := LrOne.exists_isKernel sound productive numbered
      (canonical.canonical source.state kernel found).2
    obtain ⟨⟨_, own⟩, entry, rfl⟩ : item ∈ Prod.fst '' entries :=
      core ▸ List.mem_of_getElem? place
    have carries := LrOne.carries_of_mem_closureItems sound numbered productive
      (isKernel.terminals numbered) entry (child, lookahead) listed
    exact followsAt_successor sound numbered productive complete found isKernel core
      (carries.symbols terminal member) made
  · intro source target lookahead flow inherits terminal follows
    obtain ⟨kernel, item, child, found, place, listed, made⟩ := mem_flows.1 flow
    obtain ⟨_, _, sameKernel, samePlace, entries, isKernel, core, entry⟩ := follows
    cases found.symm.trans sameKernel
    cases place.symm.trans samePlace
    have carries := LrOne.carries_of_mem_closureItems sound numbered productive
      (isKernel.terminals numbered) entry (child, lookahead) listed
    exact followsAt_successor sound numbered productive complete found isKernel core
      (carries.inherits inherits) made

end KernelLookaheads

/-! ## Lookaheads carry no less -/

namespace LrOne

variable {automaton : Automaton} {lookaheads : KernelLookaheads} {kernel : Set (Item × Symbol)}
  {state : Nat}

/-- Whether a state expects all terminals of a set after their items. -/
def ExpectedIn (plain : PlainGrammar) (automaton : Automaton) (lookaheads : KernelLookaheads)
    (state : Nat) (kernel : Set (Item × Symbol)) : Prop :=
  ∀ entry ∈ kernel, Expects (Context.ofGrammar plain) automaton lookaheads state entry.1 entry.2

theorem ExpectedIn.closure (numbered : plain.Numbered)
    (expected : ExpectedIn plain automaton lookaheads state kernel)
    (terminals : Terminals plain kernel) {entry : Item × Symbol}
    (inside : Closure plain kernel entry) :
    Expects (Context.ofGrammar plain) automaton lookaheads state entry.1 entry.2 := by
  induction inside with
  | kernel member => exact expected _ member
  | @production caller follower _ rest _ _ terminal inside spelled found lhs starts induction =>
      rw [Item.remaining_eq] at spelled
      obtain ⟨word, begins, rfl⟩ :=
        FirstSets.exists_starts_of_append numbered (terminals.closure inside) starts
      exact induction.call numbered spelled found lhs begins

/-- Every canonical kernel has a state that expects its terminals after its items. -/
theorem exists_expectedIn (sound : plain.Sound) (numbered : plain.Numbered)
    (productive : plain.Productive)
    (complete : automaton.Complete (Context.ofGrammar plain))
    (propagates : lookaheads.Propagates (Context.ofGrammar plain) automaton)
    (isKernel : IsKernel plain kernel) :
    ∃ (state : Nat) (items : List Item), automaton.kernels[state]? = some items ∧
      Prod.fst '' kernel = {item | item ∈ items} ∧
        ExpectedIn plain automaton lookaheads state kernel := by
  induction isKernel with
  | first =>
      refine ⟨0, _, complete.start,
        Set.image_singleton.trans (Automaton.start_items plain).symm, ?_⟩
      rintro _ rfl
      exact .of_kernel complete.start rfl propagates.start
  | @move kernel symbol reached nonempty induction =>
      obtain ⟨state, items, found, core, expected⟩ := induction
      have terminals := IsKernel.terminals numbered reached
      obtain ⟨edges, edgesFound, links⟩ := complete.exists_links found
      -- all entries are moved along the one edge for the symbol
      have advanced : ∀ origin terminal, Closure plain kernel (origin, terminal) →
          (∃ rest, origin.remaining plain = symbol :: rest) →
            ∃ target, (symbol, target) ∈ edges ∧
              Expects (Context.ofGrammar plain) automaton lookaheads target origin.advance
                terminal := by
        intro origin terminal inside calls
        obtain ⟨_, target, sameFound, edge, expects⟩ :=
          (expected.closure numbered terminals inside).advance numbered complete propagates
            (Context.next?_eq_some.2 calls)
        cases edgesFound.symm.trans sameFound
        exact ⟨target, edge, expects⟩
      obtain ⟨_, origin, terminal, inside, calls, -⟩ := nonempty
      obtain ⟨target, edge, -⟩ := advanced origin terminal inside calls
      obtain ⟨after, afterFound, advances⟩ := links.sound _ edge
      refine ⟨target, after, afterFound, ?_, ?_⟩
      · rw [core_move sound productive terminals, core, advances.eq_move numbered]
      · rintro _ ⟨other, follower, otherInside, otherCalls, rfl⟩
        obtain ⟨same, otherEdge, expects⟩ := advanced other follower otherInside otherCalls
        exact links.target_inj edge otherEdge ▸ expects

end LrOne

/-- What is expected after an item of a kernel is what lookaheads let follow it. -/
theorem Expects.contains_get {automaton : Automaton} {lookaheads : KernelLookaheads} {state : Nat}
    {item : Item} {terminal : Symbol}
    (expects : Expects (Context.ofGrammar plain) automaton lookaheads state item terminal)
    {kernel : List Item} (found : automaton.kernels[state]? = some kernel)
    (isKernel : (Context.ofGrammar plain).IsKernel kernel) {position : Nat}
    (place : kernel[position]? = some item) :
    (lookaheads.get ⟨state, position⟩).contains terminal = true := by
  obtain ⟨_, number, start, lookahead, sameFound, startPlace, listed, follows⟩ := expects
  cases found.symm.trans sameFound
  rcases Context.entry_closureItems.1 listed with seed | ⟨index, -, dot, production⟩
  · obtain ⟨rfl, rfl⟩ := Prod.mk.inj (List.mem_singleton.1 seed)
    have same : number = position :=
      (List.getElem?_inj (List.getElem?_eq_some_iff.1 startPlace).1 isKernel.nodup).1
        (startPlace.trans place.symm)
    rcases follows with never | ⟨-, inherited⟩
    · simp at never
    · exact same ▸ inherited
  · obtain ⟨-, source, sourceFound, -⟩ := Context.mem_byLhs.1 production
    have before := (List.getElem?_eq_some_iff.1 sourceFound).1
    rcases isKernel.begun item (List.mem_of_getElem? place) with begun | whole
    · exact absurd dot begun
    · exact absurd whole (Nat.ne_of_lt before)

/-- Whether lookaheads let follow each item of each state what follows it in the canonical kernels
with the items of the state. -/
def KernelLookaheads.IsExact (plain : PlainGrammar) (automaton : Automaton)
    (lookaheads : KernelLookaheads) : Prop :=
  ∀ (state position : Nat) kernel item, automaton.kernels[state]? = some kernel →
    kernel[position]? = some item → ∀ terminal,
      (lookaheads.get ⟨state, position⟩).contains terminal = true ↔
        LrOne.Follows plain {other | other ∈ kernel} item terminal

/-- The lookaheads of a grammar in which all nonterminals derive something are exact. -/
theorem KernelLookaheads.isExact_ofGrammar (sound : plain.Sound) (numbered : plain.Numbered)
    (productive : plain.Productive) :
    (ofAutomaton (Context.ofGrammar plain) (.ofContext (Context.ofGrammar plain))).IsExact plain
      (.ofContext (Context.ofGrammar plain)) := by
  have complete := Automaton.complete_ofGrammar plain
  intro state position kernel item found place terminal
  constructor
  · intro member
    obtain ⟨_, _, sameKernel, samePlace, follows⟩ :=
      within_followsAt sound numbered productive ⟨state, position⟩ terminal member
    cases found.symm.trans sameKernel
    cases place.symm.trans samePlace
    exact follows
  · rintro ⟨entries, isKernel, core, entry⟩
    obtain ⟨other, items, otherFound, same, expected⟩ := LrOne.exists_expectedIn sound numbered
      productive complete (propagates_ofAutomaton numbered complete.start) isKernel
    obtain rfl := Automaton.state_inj otherFound found (same.symm.trans core)
    exact (expected _ entry).contains_get found
      ((Automaton.orderly_ofGrammar plain).each kernel (Array.mem_of_getElem? found)) place

/-- A table is made of the canonical kernels, each of them once, and of exact lookaheads. -/
theorem Table.lookaheads_exact {description : Description} {plain : PlainGrammar} {table : Table}
    (lowered : description.toPlain = .ok plain) (productive : plain.Productive)
    (made : ofGrammar plain = .ok table) :
    let context := Context.ofGrammar plain
    let automaton := Automaton.ofContext context
    let lookaheads := KernelLookaheads.ofAutomaton context automaton
    table = ofAutomaton context automaton lookaheads ∧ automaton.IsCanonical plain ∧
      lookaheads.IsExact plain automaton := by
  have numbered := Description.toPlain_numbered lowered
  exact ⟨(ofGrammar_eq_ok made).2, Automaton.isCanonical_ofGrammar numbered,
    KernelLookaheads.isExact_ofGrammar (Description.toPlain_sound lowered) numbered productive⟩

end Lalr

/-- An `n` in any number of round and square brackets. -/
def Description.enclosed : Description :=
  ⟨"enclosed", [("e", .choice [.seq [.string "(", .symbol "e", .string ")"],
      .seq [.string "[", .symbol "e", .string "]"], .string "n"])], [], [], []⟩

/-- There is one state behind the `n`, although different brackets may have to be closed there.  A
closing bracket follows the `n` in some canonical kernel and an opening one in none. -/
theorem Lalr.Table.lookaheads_exact_enclosed :
    ∃ plain table, Description.enclosed.toPlain = .ok plain ∧ plain.Productive ∧
      ofGrammar plain = .ok table ∧
        (∃! state : Nat, ∃ kernel,
          (Automaton.ofContext (.ofGrammar plain)).kernels[state]? = some kernel ∧
            {item | item ∈ kernel} = {item | item ∈ [(⟨2, 1⟩ : Item)]}) ∧
        LrOne.Follows plain {item | item ∈ [(⟨2, 1⟩ : Item)]} ⟨2, 1⟩ ⟨2⟩ ∧
          ¬ LrOne.Follows plain {item | item ∈ [(⟨2, 1⟩ : Item)]} ⟨2, 1⟩ ⟨1⟩ := by
  have computed : (Description.enclosed.toPlain.toOption.any fun plain =>
      decide ((∀ index < plain.symbols.length, plain.terminalCount ≤ index →
          ∃ production ∈ plain.productions, production.lhs.index = index ∧
            ∀ symbol ∈ production.rhs, plain.isTerminal symbol = true) ∧
        (ofGrammar plain).isOk = true ∧
        (Automaton.ofContext (.ofGrammar plain)).kernels[3]? = some [⟨2, 1⟩] ∧
        ((KernelLookaheads.ofAutomaton (.ofGrammar plain) (.ofContext (.ofGrammar plain))).get
          ⟨3, 0⟩).contains ⟨2⟩ = true ∧
        ((KernelLookaheads.ofAutomaton (.ofGrammar plain) (.ofContext (.ofGrammar plain))).get
          ⟨3, 0⟩).contains ⟨1⟩ = false)) = true := by
    decide +kernel
  obtain ⟨plain, lowered, facts⟩ := Except.exists_of_any computed
  obtain ⟨each, succeeds, found, closing, opening⟩ := of_decide_eq_true facts
  obtain ⟨table, made⟩ := Except.exists_of_isOk succeeds
  have productive := PlainGrammar.productive_of_forall each
  obtain ⟨-, canonical, exactly⟩ := lookaheads_exact lowered productive made
  have follows := exactly 3 0 _ _ found rfl
  refine ⟨plain, table, lowered, productive, made,
    canonical.once _ (canonical.canonical 3 _ found).2, (follows ⟨2⟩).1 closing, fun never => ?_⟩
  rw [(follows ⟨1⟩).2 never] at opening
  cases opening

end IncrementalGlr
