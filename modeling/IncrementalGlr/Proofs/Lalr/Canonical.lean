import IncrementalGlr.Proofs.Lalr.Closed
import IncrementalGlr.Proofs.Lalr.Kernels

/-!
# Canonical kernels

Sets of items have closures, and a symbol moves the items of a closure that call for it.  The kernels
that are reached in this way from the start of whole texts are the canonical ones.  The states of a
grammar's automaton have these kernels, and no two states have the same.
-/

namespace IncrementalGlr

namespace Lalr

/-- The symbols that an item has still to recognise.  The production after the last one is that of
whole texts. -/
def Item.remaining (plain : PlainGrammar) (item : Item) : List Symbol :=
  (((plain.productions.map PlainProduction.rhs ++ [[plain.start]])[item.production]?).getD []).drop
    item.dot

/-- The kernels that are reached from a first one as long as moves over symbols leave some items. -/
inductive Reached {α : Type} (first : Set α) (move : Set α → Symbol → Set α) : Set α → Prop
  /-- The first kernel. -/
  | first : Reached first move first
  /-- The items that a symbol moves. -/
  | move {kernel : Set α} {symbol : Symbol} (reached : Reached first move kernel)
    (nonempty : (move kernel symbol).Nonempty) : Reached first move (move kernel symbol)

namespace LrZero

/-- Whether an item is in the closure of a set of items: with an item come all productions of the
symbol that it calls for. -/
inductive Closure (plain : PlainGrammar) (kernel : Set Item) : Item → Prop
  /-- The items of the set. -/
  | kernel {item : Item} (member : item ∈ kernel) : Closure plain kernel item
  /-- The productions of what an item calls for. -/
  | production {caller : Item} {symbol : Symbol} {rest : List Symbol} {production : Nat}
    {source : PlainProduction} (inside : Closure plain kernel caller)
    (spelled : caller.remaining plain = symbol :: rest)
    (found : plain.productions[production]? = some source) (lhs : source.lhs = symbol) :
    Closure plain kernel ⟨production, 0⟩

/-- The items of a closure that call for a symbol, after the symbol. -/
def move (plain : PlainGrammar) (kernel : Set Item) (symbol : Symbol) : Set Item :=
  {item | ∃ origin, Closure plain kernel origin ∧
    (∃ rest, origin.remaining plain = symbol :: rest) ∧ item = origin.advance}

/-- Whether a set of items is a canonical kernel. -/
def IsKernel (plain : PlainGrammar) : Set Item → Prop :=
  Reached {⟨plain.productions.length, 0⟩} (move plain)

end LrZero

variable {plain : PlainGrammar}

theorem Item.remaining_eq (item : Item) :
    item.remaining plain = ((Context.ofGrammar plain).rhs item.production).drop item.dot := by
  have table : (Context.ofGrammar plain).rhsTable =
      (plain.productions.map PlainProduction.rhs ++ [[plain.start]]).toArray := rfl
  rw [Item.remaining, Context.rhs, table, List.getElem?_toArray]

theorem Context.next?_eq_some {item : Item} {symbol : Symbol} :
    (ofGrammar plain).next? item = some symbol ↔
      ∃ rest, item.remaining plain = symbol :: rest := by
  rw [next?, ← List.head?_drop, ← Item.remaining_eq, List.head?_eq_some_iff]

/-- The items of a closure are those that the kernel calls for. -/
theorem Context.mem_items_iff (numbered : plain.Numbered) {kernel : List Item} {item : Item} :
    item ∈ (ofGrammar plain).items kernel ↔ LrZero.Closure plain {item | item ∈ kernel} item := by
  constructor
  · intro member
    obtain ⟨entry, listed, rfl⟩ := List.mem_map.1 member
    refine @closureItems_induction plain
      (fun item _ => LrZero.Closure plain {item | item ∈ kernel} item) (fun _ => id) ?_ _ ?_ entry
        listed
    · intro caller _ symbol rest production inside spelled source found lhs
      exact .production inside (caller.remaining_eq.trans spelled) found lhs
    · rintro _ seed
      obtain ⟨other, old, rfl⟩ := List.mem_map.1 seed
      exact .kernel old
  · intro inside
    induction inside with
    | kernel member => exact mem_items_of_kernel member
    | @production caller symbol rest production source _ spelled found lhs induction =>
        obtain ⟨⟨_, lookahead⟩, listed, rfl⟩ := List.mem_map.1 induction
        have below : ∀ seed ∈ kernel.map fun item => (item, Lookahead.empty),
            seed.2.symbols.Below plain.terminalCount := by
          intro seed member
          obtain ⟨_, -, rfl⟩ := List.mem_map.1 member
          exact SymbolSet.below_empty
        rw [Item.remaining_eq] at spelled
        obtain ⟨larger, entry, -⟩ := exists_entry_of_next numbered below listed spelled found lhs
        exact List.mem_map_of_mem entry

namespace Automaton

/-- A kernel that advances another one has the items that the symbol moves. -/
theorem Advances.eq_move (numbered : plain.Numbered) {kernel target : List Item} {symbol : Symbol}
    (advances : Advances (Context.ofGrammar plain) kernel symbol target) :
    {item | item ∈ target} = LrZero.move plain {item | item ∈ kernel} symbol := by
  ext item
  constructor
  · intro member
    obtain ⟨origin, inside, next, rfl⟩ := advances.source item member
    exact ⟨origin, (Context.mem_items_iff numbered).1 inside, Context.next?_eq_some.1 next, rfl⟩
  · rintro ⟨origin, inside, next, rfl⟩
    exact advances.all origin ((Context.mem_items_iff numbered).2 inside)
      (Context.next?_eq_some.2 next)

/-- Whether the kernels of an automaton are the canonical ones, each exactly once. -/
structure IsCanonical (plain : PlainGrammar) (automaton : Automaton) : Prop where
  /-- Each kernel is a canonical one, without repetitions. -/
  canonical : ∀ (state : Nat) kernel, automaton.kernels[state]? = some kernel →
    kernel.Nodup ∧ LrZero.IsKernel plain {item | item ∈ kernel}
  /-- Each canonical kernel belongs to one state. -/
  once : ∀ items, LrZero.IsKernel plain items →
    ∃! state : Nat, ∃ kernel,
      automaton.kernels[state]? = some kernel ∧ {item | item ∈ kernel} = items

theorem start_items (plain : PlainGrammar) :
    {item | item ∈ [(⟨(Context.ofGrammar plain).wholeText, 0⟩ : Item)]} =
      {⟨plain.productions.length, 0⟩} :=
  Set.ext fun _ => List.mem_singleton

/-- Kernels with the same items belong to one state. -/
theorem state_inj {first second : Nat} {left right : List Item}
    (leftFound : (ofContext (Context.ofGrammar plain)).kernels[first]? = some left)
    (rightFound : (ofContext (Context.ofGrammar plain)).kernels[second]? = some right)
    (same : {item | item ∈ left} = {item | item ∈ right}) : first = second := by
  have orderly := orderly_ofGrammar plain
  have leftKernel := orderly.each left (Array.mem_of_getElem? leftFound)
  have rightKernel := orderly.each right (Array.mem_of_getElem? rightFound)
  obtain rfl : left = right := eq_of_ascending leftKernel.ascending rightKernel.ascending
    fun item => Set.ext_iff.1 same item
  have distinct := orderly.distinct
  rw [← Array.getElem?_toList] at leftFound rightFound
  exact (List.getElem?_inj (List.getElem?_eq_some_iff.1 leftFound).1 distinct).1
    (leftFound.trans rightFound.symm)

/-- Every canonical kernel belongs to a state. -/
theorem exists_state (numbered : plain.Numbered) {items : Set Item}
    (isKernel : LrZero.IsKernel plain items) :
    ∃ (state : Nat) (kernel : List Item),
      (ofContext (Context.ofGrammar plain)).kernels[state]? = some kernel ∧
        {item | item ∈ kernel} = items := by
  have complete := complete_ofGrammar plain
  induction isKernel with
  | first => exact ⟨0, _, complete.start, start_items plain⟩
  | @move _ symbol _ nonempty induction =>
      obtain ⟨state, kernel, found, rfl⟩ := induction
      obtain ⟨_, origin, inside, calls, -⟩ := nonempty
      obtain ⟨edges, -, links⟩ := complete.exists_links found
      obtain ⟨next, edge⟩ := links.complete origin ((Context.mem_items_iff numbered).2 inside) symbol
        (Context.next?_eq_some.2 calls)
      obtain ⟨target, targetFound, advances⟩ := links.sound _ edge
      exact ⟨next, target, targetFound, advances.eq_move numbered⟩

theorem isCanonical_ofGrammar (numbered : plain.Numbered) :
    (ofContext (Context.ofGrammar plain)).IsCanonical plain := by
  have canonical : Orderly (fun kernel => LrZero.IsKernel plain {item | item ∈ kernel})
      (ofContext (Context.ofGrammar plain)).kernels := by
    refine orderly_ofContext ?_ fun kernel isKernel group member => ?_
    · rw [start_items]
      exact .first
    · obtain ⟨symbol, -, -, -, -, advances⟩ := advances_of_group member
      obtain ⟨item, inside⟩ := List.exists_mem_of_ne_nil _ advances.nonempty
      rw [advances.eq_move numbered]
      exact .move isKernel ⟨item, advances.eq_move numbered ▸ inside⟩
  constructor
  case canonical =>
    intro state kernel found
    have member := Array.mem_of_getElem? found
    exact ⟨((orderly_ofGrammar plain).each kernel member).nodup, canonical.each kernel member⟩
  case once =>
    intro items isKernel
    obtain ⟨state, kernel, found, same⟩ := exists_state numbered isKernel
    refine ⟨state, ⟨kernel, found, same⟩, ?_⟩
    rintro other ⟨otherKernel, otherFound, otherSame⟩
    exact state_inj otherFound found (otherSame.trans same.symm)

end Automaton

end Lalr

end IncrementalGlr
