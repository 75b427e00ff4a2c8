import IncrementalGlr.Proofs.Lalr.Automaton
import Mathlib.Data.Finset.Powerset
import Mathlib.Data.List.FinRange
import Mathlib.Data.Prod.Lex

/-!
# The kernels of automata

A kernel is an ascending list of items of the grammar that have recognised a symbol, or the item from
which whole texts start.  No two states share their kernel, so there are not more states than sets of
items, and exploring goes on until every state has its transitions.
-/

namespace IncrementalGlr

namespace Lalr

/-- What items are ordered by. -/
def Item.key (item : Item) : ℕ ×ₗ ℕ := toLex (item.production, item.dot)

theorem Item.le_iff {left right : Item} : left.le right = true ↔ left.key ≤ right.key := by
  simp [Item.le, Item.key, Prod.Lex.toLex_le_toLex]

theorem Item.key_inj {left right : Item} (same : left.key = right.key) : left = right := by
  obtain ⟨production, dot⟩ := left
  cases right
  cases same
  rfl

theorem Item.advance_inj {left right : Item} (same : left.advance = right.advance) :
    left = right := by
  obtain ⟨production, dot⟩ := left
  cases right
  cases same
  rfl

namespace Context

variable {plain : PlainGrammar}

/-- No production of a symbol is listed twice. -/
theorem nodup_byLhs (index : Nat) : (((ofGrammar plain).byLhs[index]?).getD []).Nodup := by
  have table : (ofGrammar plain).byLhs = plain.productions.zipIdx.foldl
      (fun table entry => table.modify entry.1.lhs.index (· ++ [entry.2]))
      (Array.replicate plain.symbols.length []) := rfl
  rcases Nat.lt_or_ge index plain.symbols.length with inside | beyond
  · rw [table, row_foldl_modify, Array.size_replicate, Array.getElem?_replicate, if_pos inside,
      if_pos inside, Option.getD_some, List.nil_append]
    have numbers : (plain.productions.zipIdx.map Prod.snd).Nodup := by
      rw [List.zipIdx_map_snd]
      exact List.nodup_range'
    rw [← List.map_eq_flatMap]
    exact numbers.sublist (List.filter_sublist.map Prod.snd)
  · have nothing : ((ofGrammar plain).byLhs[index]?).getD [] = [] := by
      refine List.eq_nil_iff_forall_not_mem.2 fun production member => ?_
      exact absurd (mem_byLhs.1 member).1 (Nat.not_lt.2 beyond)
    rw [nothing]
    exact List.nodup_nil

/-- Whether a list of items is a kernel of a grammar. -/
structure IsKernel (context : Context) (kernel : List Item) : Prop where
  /-- The items ascend. -/
  ascending : kernel.Pairwise fun left right => left.key < right.key
  /-- Each has recognised a symbol or starts whole texts. -/
  begun : ∀ item ∈ kernel, item.dot ≠ 0 ∨ item.production = context.wholeText
  /-- Each is an item of the grammar. -/
  valid : ∀ item ∈ kernel, item.production ≤ context.wholeText ∧
    item.dot ≤ (context.rhs item.production).length

theorem isKernel_start (context : Context) : context.IsKernel [⟨context.wholeText, 0⟩] := by
  refine ⟨List.pairwise_singleton _ _, ?_, ?_⟩
  · exact List.forall_mem_singleton.2 (.inr rfl)
  · exact List.forall_mem_singleton.2 ⟨Nat.le_refl _, Nat.zero_le _⟩

theorem IsKernel.nodup {context : Context} {kernel : List Item}
    (isKernel : context.IsKernel kernel) : kernel.Nodup :=
  isKernel.ascending.imp fun less same => less.ne (congrArg Item.key same)

/-- The closure of a kernel has no item twice. -/
theorem IsKernel.nodup_items {kernel : List Item} (isKernel : (ofGrammar plain).IsKernel kernel) :
    ((ofGrammar plain).items kernel).Nodup := by
  have same : (kernel.map fun item => (item, Lookahead.empty)).map Prod.fst = kernel := by
    rw [List.map_map]
    exact List.map_id kernel
  rw [items, closureItems]
  generalize (ofGrammar plain).closure _ = closure
  have added : ∀ {index item}, item ∈ ((ofGrammar plain).addedItems closure index).map Prod.fst →
      item.dot = 0 ∧ ∃ source : PlainProduction,
        plain.productions[item.production]? = some source ∧ source.lhs.index = index := by
    intro index item member
    obtain ⟨-, dot, listed⟩ := mem_addedItems.1 member
    exact ⟨dot, (mem_byLhs.1 listed).2⟩
  rw [List.map_append, same, List.map_flatMap]
  refine List.nodup_append'.2 ⟨isKernel.nodup, List.nodup_flatMap.2 ⟨fun index _ => ?_, ?_⟩, ?_⟩
  · unfold addedItems
    split
    · rw [List.map_map]
      exact (nodup_byLhs index).map fun left right equal => congrArg Item.production equal
    · exact List.nodup_nil
  · refine (List.nodup_range (n := plain.symbols.length)).imp fun different => ?_
    intro item here there
    obtain ⟨-, source, found, row⟩ := added here
    obtain ⟨-, other, otherFound, otherRow⟩ := added there
    obtain rfl := Option.some.inj (found.symm.trans otherFound)
    exact different (row.symm.trans otherRow)
  · intro item here there
    obtain ⟨index, -, listed⟩ := List.mem_flatMap.1 there
    obtain ⟨dot, source, found, -⟩ := added listed
    rcases isKernel.begun item here with begun | whole
    · exact begun dot
    · have inside := (List.getElem?_eq_some_iff.1 found).1
      exact absurd whole (Nat.ne_of_lt inside)

end Context

namespace Automaton

variable {context : Context} {kernel : List Item}

/-- What moves are ordered by. -/
def moveKey (move : Symbol × Item) : ℕ ×ₗ ℕ ×ₗ ℕ := toLex (move.1.index, move.2.key)

theorem moveLe_iff {left right : Symbol × Item} :
    moveLe left right = true ↔ moveKey left ≤ moveKey right := by
  have symbols : left.1 = right.1 ↔ left.1.index = right.1.index :=
    ⟨congrArg Symbol.index, Symbol.index_inj⟩
  simp [moveLe, moveKey, Prod.Lex.toLex_le_toLex, Item.le_iff, symbols]

theorem moveKey_inj {left right : Symbol × Item} (same : moveKey left = moveKey right) :
    left = right := by
  obtain ⟨symbols, items⟩ := Prod.mk.inj (congrArg ofLex same)
  exact Prod.ext (Symbol.index_inj symbols) (Item.key_inj items)

/-- The moves of a group ascend by their items if no item of the closure is there twice. -/
theorem ascending_group (distinct : (context.items kernel).Nodup) {group : List (Symbol × Item)}
    (member : group ∈ moves context kernel) :
    (group.map Prod.snd).Pairwise fun left right => left.key < right.key := by
  have flat : (moves context kernel).flatten.Pairwise
      fun left right => moveKey left < moveKey right := by
    rw [moves, List.flatten_splitBy]
    have sorted : (sortBy moveLe ((context.items kernel).filterMap fun item =>
        (context.next? item).map fun symbol => (symbol, item.advance))).Pairwise
          fun left right => moveKey left ≤ moveKey right := by
      refine pairwise_sortBy (fun left right less => moveLe_iff.1 less) (fun left right more => ?_) _
      exact le_of_not_ge fun less => by
        rw [moveLe_iff.2 less] at more
        cases more
    refine (sorted.and ((perm_sortBy _ _).nodup_iff.2 ?_)).imp fun both =>
      both.1.lt_of_ne fun same => both.2 (moveKey_inj same)
    refine distinct.filterMap fun left right move leftMoves rightMoves => ?_
    obtain ⟨symbol, -, rfl⟩ := Option.map_eq_some_iff.1 leftMoves
    obtain ⟨other, -, same⟩ := Option.map_eq_some_iff.1 rightMoves
    exact (Item.advance_inj (Prod.mk.inj same).2).symm
  have inside := flat.sublist (List.sublist_flatten_of_mem member)
  refine List.pairwise_map.2 (inside.imp_of_mem fun leftMember rightMember less => ?_)
  have symbols := symbol_of_group member _ leftMember _ rightMember
  simpa [moveKey, Prod.Lex.toLex_lt_toLex, symbols] using less

/-- What the moves of a kernel lead to is a kernel. -/
theorem isKernel_of_group {plain : PlainGrammar}
    (isKernel : (Context.ofGrammar plain).IsKernel kernel) {group : List (Symbol × Item)}
    (member : group ∈ moves (Context.ofGrammar plain) kernel) :
    (Context.ofGrammar plain).IsKernel (group.map Prod.snd) := by
  obtain ⟨symbol, -, -, -, -, advances⟩ := advances_of_group member
  refine ⟨ascending_group isKernel.nodup_items member, fun item listed => ?_, fun item listed => ?_⟩
  · obtain ⟨origin, -, -, rfl⟩ := advances.source item listed
    exact .inl (Nat.succ_ne_zero _)
  · obtain ⟨origin, -, next, rfl⟩ := advances.source item listed
    refine ⟨Nat.le_of_not_lt fun beyond => ?_, (List.getElem?_eq_some_iff.1 next).1⟩
    have nothing : (Context.ofGrammar plain).rhs origin.production = [] := Context.rhs_beyond beyond
    rw [Context.next?, nothing] at next
    cases next

/-! ## Exploring -/

/-- Whether no kernel is listed twice and something holds of each of them. -/
structure Orderly (holds : List Item → Prop) (kernels : Array (List Item)) : Prop where
  /-- There are no two positions for a kernel. -/
  distinct : kernels.toList.Nodup
  /-- Each kernel has the property. -/
  each : ∀ kernel ∈ kernels, holds kernel

variable {holds : List Item → Prop}

theorem Orderly.findOrAdd {kernels : Array (List Item)} (orderly : Orderly holds kernels)
    (added : holds kernel) : Orderly holds (Automaton.findOrAdd kernels kernel).2 := by
  unfold Automaton.findOrAdd
  split
  · exact orderly
  · next missing =>
      rw [Array.findIdx?_eq_none_iff] at missing
      constructor
      case distinct =>
        rw [Array.toList_push]
        refine List.nodup_append'.2 ⟨orderly.distinct, List.nodup_singleton _, ?_⟩
        intro other here there
        obtain rfl := List.mem_singleton.1 there
        simpa using missing other (Array.mem_toList_iff.1 here)
      case each =>
        intro other member
        rcases Array.mem_push.1 member with old | rfl
        · exact orderly.each other old
        · exact added

theorem Orderly.addState {automaton : Automaton} (orderly : Orderly holds automaton.kernels)
    (step : ∀ group ∈ moves context kernel, holds (group.map Prod.snd)) :
    Orderly holds (automaton.addState context kernel).kernels := by
  have all : ∀ (groups : List (List (Symbol × Item)))
      (state : List (Symbol × Nat) × Array (List Item)),
      (∀ group ∈ groups, holds (group.map Prod.snd)) → Orderly holds state.2 →
        Orderly holds (groups.foldl addTransition state).2 := by
    intro groups
    induction groups with
    | nil => exact fun state _ => id
    | cons group rest induction =>
        intro state leads orderly
        obtain ⟨here, later⟩ := List.forall_mem_cons.1 leads
        refine induction _ later ?_
        cases group with
        | nil => exact orderly
        | cons first others => exact orderly.findOrAdd here
  exact all _ _ step orderly

theorem Orderly.explore (step : ∀ kernel, holds kernel → ∀ group ∈ moves context kernel,
    holds (group.map Prod.snd)) (bound : Nat) {automaton : Automaton}
    (orderly : Orderly holds automaton.kernels) :
    Orderly holds (Automaton.explore context bound automaton).kernels := by
  induction bound generalizing automaton with
  | zero => exact orderly
  | succ bound induction =>
      unfold Automaton.explore
      split
      · next kernel next =>
          exact induction (orderly.addState
            (step kernel (orderly.each kernel (Array.mem_of_getElem? next))))
      · exact orderly

/-- No two states share their kernel, and what holds of the first kernel and is kept by moves holds
of all kernels. -/
theorem orderly_ofContext (start : holds [⟨context.wholeText, 0⟩])
    (step : ∀ kernel, holds kernel → ∀ group ∈ moves context kernel, holds (group.map Prod.snd)) :
    Orderly holds (ofContext context).kernels := by
  refine Orderly.explore step _ ⟨List.nodup_singleton _, fun kernel member => ?_⟩
  obtain rfl := Array.mem_singleton.1 member
  exact start

theorem orderly_ofGrammar (plain : PlainGrammar) : Orderly (Context.ofGrammar plain).IsKernel
    (ofContext (Context.ofGrammar plain)).kernels :=
  orderly_ofContext (Context.isKernel_start _) fun _ isKernel _ => isKernel_of_group isKernel

/-- All items of a grammar. -/
def allItems (context : Context) : List Item :=
  context.rhsTable.toList.zipIdx.flatMap fun (rhs, production) =>
    (List.range (rhs.length + 1)).map (Item.mk production)

theorem length_allItems (context : Context) : (allItems context).length = itemCount context := by
  have all : ∀ (rows : List (List Symbol)) (first : Nat),
      ((rows.zipIdx first).flatMap fun (rhs, production) =>
        (List.range (rhs.length + 1)).map (Item.mk production)).length =
          (rows.map fun rhs => rhs.length + 1).foldr (· + ·) 0 := by
    intro rows
    induction rows with
    | nil => exact fun first => rfl
    | cons rhs rest induction => simp [List.zipIdx_cons, induction]
  exact all _ 0

theorem mem_allItems {plain : PlainGrammar} {item : Item}
    (known : item.production ≤ (Context.ofGrammar plain).wholeText)
    (inside : item.dot ≤ ((Context.ofGrammar plain).rhs item.production).length) :
    item ∈ allItems (Context.ofGrammar plain) := by
  have size : (Context.ofGrammar plain).rhsTable.size = plain.productions.length + 1 := by
    simp [Context.ofGrammar]
  have listed : (Context.ofGrammar plain).rhsTable.toList[item.production]? =
      some ((Context.ofGrammar plain).rhs item.production) := by
    rw [Array.getElem?_toList, Context.rhs,
      Array.getElem?_eq_getElem (size.symm ▸ Nat.lt_succ_of_le known), Option.getD_some]
  refine List.mem_flatMap.2 ⟨((Context.ofGrammar plain).rhs item.production, item.production),
    List.mem_zipIdx_iff_getElem?.2 listed, ?_⟩
  exact List.mem_map.2 ⟨item.dot, List.mem_range.2 (Nat.lt_succ_of_le inside), rfl⟩

/-- There are not more kernels than sets of the items that may be in kernels. -/
theorem size_kernels_le_of_mem {plain : PlainGrammar} {all : List Item}
    (mem_all : ∀ item : Item,
      (item.dot ≠ 0 ∨ item.production = (Context.ofGrammar plain).wholeText) →
        item.production ≤ (Context.ofGrammar plain).wholeText →
          item.dot ≤ ((Context.ofGrammar plain).rhs item.production).length → item ∈ all) :
    (ofContext (Context.ofGrammar plain)).kernels.size ≤ 2 ^ all.length := by
  have orderly := orderly_ofGrammar plain
  generalize (ofContext (Context.ofGrammar plain)).kernels = kernels at orderly
  have each : ∀ kernel ∈ kernels.toList, (Context.ofGrammar plain).IsKernel kernel :=
    fun kernel member => orderly.each kernel (Array.mem_toList_iff.1 member)
  have distinct : (kernels.toList.map List.toFinset).Nodup :=
    orderly.distinct.map_on fun left leftMember right rightMember same =>
      eq_of_ascending (each left leftMember).ascending (each right rightMember).ascending
        fun item => by rw [← List.mem_toFinset, same, List.mem_toFinset]
  have inside : (kernels.toList.map List.toFinset).toFinset ⊆ all.toFinset.powerset := by
    intro set member
    obtain ⟨kernel, listed, rfl⟩ := List.mem_map.1 (List.mem_toFinset.1 member)
    refine Finset.mem_powerset.2 fun item itemMember => List.mem_toFinset.2 ?_
    have isKernel := each kernel listed
    have known := List.mem_toFinset.1 itemMember
    have valid := isKernel.valid item known
    exact mem_all item (isKernel.begun item known) valid.1 valid.2
  calc
    kernels.size = (kernels.toList.map List.toFinset).toFinset.card := by
      rw [List.toFinset_card_of_nodup distinct, List.length_map, Array.length_toList]
    _ ≤ 2 ^ all.toFinset.card :=
      (Finset.card_le_card inside).trans (Finset.card_powerset _).le
    _ ≤ 2 ^ all.length := Nat.pow_le_pow_right Nat.two_pos (List.toFinset_card_le _)

/-- There are not more kernels than sets of items. -/
theorem size_kernels_le (plain : PlainGrammar) :
    (ofContext (Context.ofGrammar plain)).kernels.size ≤
      2 ^ itemCount (Context.ofGrammar plain) := by
  rw [← length_allItems]
  exact size_kernels_le_of_mem fun item _ => mem_allItems

/-- Every state of a grammar's automaton has its transitions. -/
theorem complete_ofGrammar (plain : PlainGrammar) :
    Complete (Context.ofGrammar plain) (ofContext (Context.ofGrammar plain)) :=
  complete_ofContext (size_kernels_le plain)

end Automaton

end Lalr

end IncrementalGlr
