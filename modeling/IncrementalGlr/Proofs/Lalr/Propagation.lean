import IncrementalGlr.Proofs.Lalr.Automaton
import IncrementalGlr.Proofs.Lalr.Closed
import IncrementalGlr.Proofs.Lalr.Table
import Mathlib.Algebra.GroupWithZero.Nat

/-!
# What is expected after an item

The terminals that may follow the items of kernels are passed on until nothing changes.  So whatever
an item of a state leads on to, in its closure or in the next state, is expected there with all
terminals that may follow.
-/

namespace IncrementalGlr

namespace Lalr

namespace KernelLookaheads

/-- The items of all kernels. -/
def kernelItems (automaton : Automaton) : List KernelItem :=
  automaton.kernels.toList.zipIdx.flatMap fun (kernel, state) =>
    (List.range kernel.length).map fun position => ⟨state, position⟩

theorem mem_kernelItems {automaton : Automaton} {item : KernelItem} :
    item ∈ kernelItems automaton ↔
      ∃ kernel, automaton.kernels[item.state]? = some kernel ∧ item.position < kernel.length := by
  obtain ⟨state, position⟩ := item
  simp only [kernelItems, List.mem_flatMap, List.mem_map, List.mem_range, Prod.exists]
  constructor
  · rintro ⟨kernel, number, member, place, inside, same⟩
    cases same
    exact ⟨kernel, by simpa using List.mem_zipIdx_iff_getElem?.1 member, inside⟩
  · rintro ⟨kernel, found, inside⟩
    exact ⟨kernel, state, List.mem_zipIdx_iff_getElem?.2 (by simpa using found), position, inside,
      rfl⟩

theorem length_kernelItems (automaton : Automaton) :
    (kernelItems automaton).length = (automaton.kernels.toList.map List.length).sum := by
  rw [kernelItems, List.length_flatMap]
  simp only [List.length_map, List.length_range]
  rw [show (fun entry : List Item × Nat => entry.1.length) = List.length ∘ Prod.fst from rfl,
    ← List.map_map, List.zipIdx_map_fst]

/-- Whether there is a set of terminals for each item of each kernel, and nothing else. -/
structure Sized (automaton : Automaton) (terminals : Nat) (lookaheads : KernelLookaheads) : Prop where
  /-- There is a row for each kernel. -/
  size : lookaheads.size = automaton.kernels.size
  /-- There is a set for each item. -/
  row : ∀ (state : Nat) sets kernel, lookaheads[state]? = some sets →
    automaton.kernels[state]? = some kernel → sets.size = kernel.length
  /-- Only terminals follow anything. -/
  below : ∀ item, (lookaheads.get item).Below terminals

/-- The facts that lookaheads state: that a terminal may follow an item. -/
def States (lookaheads : KernelLookaheads) (fact : KernelItem × Nat) : Prop :=
  (lookaheads.get fact.1).mask.testBit fact.2 = true

variable {automaton : Automaton} {terminals : Nat} {lookaheads : KernelLookaheads}

theorem get_of_row {state position : Nat} {sets : Array SymbolSet} {set : SymbolSet}
    (found : lookaheads[state]? = some sets) (inside : sets[position]? = some set) :
    lookaheads.get ⟨state, position⟩ = set := by
  rw [get, found, Option.bind_some, inside, Option.getD_some]

theorem described (automaton : Automaton) (terminals : Nat) :
    Described (Sized automaton terminals) States
      ((kernelItems automaton).toFinset ×ˢ Finset.range terminals) := by
  constructor
  case ext =>
    intro left right leftSized rightSized same
    refine Array.ext (leftSized.size.trans rightSized.size.symm) fun state inside other => ?_
    have leftRow := Array.getElem?_eq_getElem inside
    have rightRow := Array.getElem?_eq_getElem other
    have kernel := Array.getElem?_eq_getElem (leftSized.size ▸ inside)
    refine Array.ext ((leftSized.row _ _ _ leftRow kernel).trans
      (rightSized.row _ _ _ rightRow kernel).symm) fun position leftInside rightInside => ?_
    have leftSet := get_of_row leftRow (Array.getElem?_eq_getElem leftInside)
    have rightSet := get_of_row rightRow (Array.getElem?_eq_getElem rightInside)
    rw [← leftSet, ← rightSet]
    exact (leftSized.below _).ext (rightSized.below _) fun terminal _ =>
      Bool.eq_iff_iff.2 (same (⟨state, position⟩, terminal))
  case inside =>
    rintro lookaheads sized ⟨⟨state, position⟩, terminal⟩ member
    refine Finset.mem_product.2 ⟨List.mem_toFinset.2 (mem_kernelItems.2 ?_),
      Finset.mem_range.2 (sized.below _ terminal member)⟩
    unfold States get at member
    cases found : lookaheads[state]? with
    | none =>
        rw [found] at member
        exact absurd (@SymbolSet.below_empty 0 terminal member) (Nat.not_lt_zero _)
    | some sets =>
        rw [found, Option.bind_some] at member
        cases set : sets[position]? with
        | none =>
            rw [set] at member
            exact absurd (@SymbolSet.below_empty 0 terminal member) (Nat.not_lt_zero _)
        | some known =>
            have inside := (Array.getElem?_eq_some_iff.1 found).1
            have kernel := Array.getElem?_eq_getElem (sized.size ▸ inside)
            exact ⟨_, kernel, sized.row _ _ _ found kernel ▸ (Array.getElem?_eq_some_iff.1 set).1⟩

theorem get_add (item other : KernelItem) (symbols : SymbolSet) :
    (lookaheads.add item symbols).get other = lookaheads.get other ∨
      (lookaheads.add item symbols).get other = (lookaheads.get other).union symbols := by
  unfold get add
  rw [Array.getElem?_modify]
  split
  · cases lookaheads[other.state]? with
    | none => exact .inl rfl
    | some sets =>
        simp only [Option.map_some, Option.bind_some, Array.getElem?_modify]
        split
        · cases sets[other.position]? with
          | none => exact .inl rfl
          | some set => exact .inr rfl
        · exact .inl rfl
  · exact .inl rfl

theorem get_add_self {item : KernelItem} (sized : lookaheads.Sized automaton terminals)
    (member : item ∈ kernelItems automaton) (symbols : SymbolSet) :
    (lookaheads.add item symbols).get item = (lookaheads.get item).union symbols := by
  obtain ⟨kernel, found, inside⟩ := mem_kernelItems.1 member
  have row := Array.getElem?_eq_getElem
    (sized.size.symm ▸ (Array.getElem?_eq_some_iff.1 found).1 : item.state < lookaheads.size)
  have set := Array.getElem?_eq_getElem (sized.row _ _ _ row found ▸ inside)
  unfold get add
  rw [Array.getElem?_modify, if_pos rfl, row, Option.map_some, Option.bind_some, Option.bind_some,
    Array.getElem?_modify, if_pos rfl, set]
  rfl

theorem sized_add (sized : lookaheads.Sized automaton terminals) (item : KernelItem)
    {symbols : SymbolSet} (below : symbols.Below terminals) :
    (lookaheads.add item symbols).Sized automaton terminals := by
  refine ⟨(Array.size_modify ..).trans sized.size, fun state sets kernel found kernelFound => ?_,
    fun other => ?_⟩
  · rw [add, Array.getElem?_modify] at found
    split at found
    · obtain ⟨old, known, rfl⟩ := Option.map_eq_some_iff.1 found
      exact (Array.size_modify ..).trans (sized.row _ _ _ known kernelFound)
    · exact sized.row _ _ _ found kernelFound
  · rcases get_add item other symbols with same | same
    · rw [same]
      exact sized.below other
    · rw [same]
      exact (sized.below other).union below

theorem states_add (item : KernelItem) (symbols : SymbolSet) {fact : KernelItem × Nat}
    (known : lookaheads.States fact) : (lookaheads.add item symbols).States fact := by
  unfold States at known ⊢
  rcases get_add item fact.1 symbols with same | same
  · rwa [same]
  · rw [same, SymbolSet.union, Nat.testBit_or, known, Bool.true_or]

theorem inflates_add (item : KernelItem) {symbols : SymbolSet} (below : symbols.Below terminals) :
    Inflates (Sized automaton terminals) States fun lookaheads => lookaheads.add item symbols :=
  ⟨fun sized => sized_add sized item below, fun _ _ known => states_add item symbols known⟩

theorem inflates_pass (edge : KernelItem × KernelItem) :
    Inflates (Sized automaton terminals) States
      fun lookaheads => lookaheads.add edge.2 (lookaheads.get edge.1) :=
  ⟨fun sized => sized_add sized edge.2 (sized.below edge.1), fun _ _ known => states_add _ _ known⟩

theorem inflates_propagate (edges : List (KernelItem × KernelItem)) :
    Inflates (Sized automaton terminals) States (propagate edges) :=
  .foldl fun edge _ => inflates_pass edge

/-- An item advances to an item of the kernel that the transition leads to. -/
theorem successor?_eq_some {context : Context} {state : Nat} {item : Item} {target : KernelItem}
    (found : successor? context automaton state item = some target) :
    ∃ symbol kernel, context.next? item = some symbol ∧
      automaton.target? state symbol = some target.state ∧
        automaton.kernels[target.state]? = some kernel ∧
          kernel[target.position]? = some item.advance := by
  obtain ⟨symbol, next, rest⟩ := Option.bind_eq_some_iff.1 found
  obtain ⟨number, leads, rest⟩ := Option.bind_eq_some_iff.1 rest
  obtain ⟨kernel, kernelFound, rest⟩ := Option.bind_eq_some_iff.1 rest
  obtain ⟨position, place, same⟩ := Option.bind_eq_some_iff.1 rest
  cases same
  obtain ⟨inside, equal, -⟩ := List.findIdx?_eq_some_iff_getElem.1 place
  rw [beq_iff_eq] at equal
  exact ⟨symbol, kernel, next, leads, kernelFound, equal ▸ List.getElem?_eq_getElem inside⟩

theorem target_of_flow {context : Context} {source target : KernelItem} {lookahead : Lookahead}
    (member : (source, target, lookahead) ∈ flows context automaton) :
    target ∈ kernelItems automaton := by
  obtain ⟨kernel, item, child, -, -, -, made⟩ := mem_flows.1 member
  obtain ⟨symbol, other, -, -, found, place⟩ := successor?_eq_some made
  exact mem_kernelItems.2 ⟨other, found, (List.getElem?_eq_some_iff.1 place).1⟩

/-- Whether lookaheads hold all that flows to the items of kernels. -/
structure Propagates (context : Context) (automaton : Automaton) (lookaheads : KernelLookaheads) :
    Prop where
  /-- There are sets for all items. -/
  sized : lookaheads.Sized automaton context.grammar.terminalCount
  /-- The end of the input follows the whole text. -/
  start : (lookaheads.get ⟨0, 0⟩).contains .endOfInput = true
  /-- What closures generate. -/
  generated : ∀ source target lookahead, (source, target, lookahead) ∈ flows context automaton →
    ∀ symbol, lookahead.symbols.contains symbol = true →
      (lookaheads.get target).contains symbol = true
  /-- What is taken over. -/
  inherited : ∀ source target lookahead, (source, target, lookahead) ∈ flows context automaton →
    lookahead.inherits = true → ∀ symbol, (lookaheads.get source).contains symbol = true →
      (lookaheads.get target).contains symbol = true

theorem sized_nothing (automaton : Automaton) (terminals : Nat) :
    Sized automaton terminals (automaton.kernels.map fun kernel =>
      Array.replicate kernel.length .empty) := by
  refine ⟨Array.size_map, fun state sets kernel found kernelFound => ?_, fun item => ?_⟩
  · rw [Array.getElem?_map, kernelFound] at found
    cases found
    exact Array.size_replicate
  · unfold get
    rw [Array.getElem?_map]
    cases automaton.kernels[item.state]? with
    | none => exact SymbolSet.below_empty
    | some kernel =>
        rw [Option.map_some, Option.bind_some, Array.getElem?_replicate]
        split <;> exact SymbolSet.below_empty

variable {plain : PlainGrammar}

theorem below_of_flow (numbered : plain.Numbered) {source target : KernelItem}
    {lookahead : Lookahead}
    (member : (source, target, lookahead) ∈ flows (Context.ofGrammar plain) automaton) :
    lookahead.symbols.Below plain.terminalCount := by
  obtain ⟨kernel, item, child, -, -, listed, -⟩ := mem_flows.1 member
  have nothing : ∀ seed ∈ [(item, (⟨.empty, true⟩ : Lookahead))],
      seed.2.symbols.Below plain.terminalCount := by
    intro seed seedMember
    rw [List.mem_singleton.1 seedMember]
    exact SymbolSet.below_empty
  obtain ⟨closureSized, -⟩ := Context.closed_closure (Context.bounds_ofGrammar numbered) nothing
  rcases Context.entry_closureItems.1 listed with seed | ⟨index, row, -⟩
  · exact nothing _ seed
  · exact closureSized.below index lookahead row

/-- The lookaheads of an automaton hold all that flows to them. -/
theorem propagates_ofAutomaton (numbered : plain.Numbered)
    (start : automaton.kernels[0]? = some [⟨(Context.ofGrammar plain).wholeText, 0⟩]) :
    (ofAutomaton (Context.ofGrammar plain) automaton).Propagates (Context.ofGrammar plain)
      automaton := by
  have first : (⟨0, 0⟩ : KernelItem) ∈ kernelItems automaton :=
    mem_kernelItems.2 ⟨_, start, Nat.zero_lt_one⟩
  have endBelow : (SymbolSet.singleton .endOfInput).Below plain.terminalCount :=
    SymbolSet.below_singleton numbered.positive
  have nothing := sized_nothing automaton plain.terminalCount
  have seeded := sized_add nothing ⟨0, 0⟩ endBelow
  have generating : ∀ flow ∈ flows (Context.ofGrammar plain) automaton,
      Inflates (Sized automaton plain.terminalCount) States fun lookaheads =>
        KernelLookaheads.add lookaheads flow.2.1 flow.2.2.symbols :=
    fun flow member => inflates_add flow.2.1 (below_of_flow numbered member)
  have generated := (Inflates.foldl generating).keeps seeded
  set edges := (flows (Context.ofGrammar plain) automaton).filterMap
    fun flow => if flow.2.2.inherits then some (flow.1, flow.2.1) else none
  have inflates : Inflates (Sized automaton plain.terminalCount) States (propagate edges) :=
    inflates_propagate edges
  have rounds := inflates.untilStable ((automaton.kernels.toList.map List.length).sum *
    (plain.terminalCount + 1) + 1)
  have sized : (ofAutomaton (Context.ofGrammar plain) automaton).Sized automaton
      plain.terminalCount := rounds.keeps generated
  have enough : ((kernelItems automaton).toFinset ×ˢ Finset.range plain.terminalCount).card <
      (automaton.kernels.toList.map List.length).sum * (plain.terminalCount + 1) + 1 := by
    rw [Finset.card_product, Finset.card_range, ← length_kernelItems]
    have fewer := Nat.mul_le_mul (kernelItems automaton).toFinset_card_le
      (Nat.le_succ plain.terminalCount)
    exact Nat.lt_succ_of_le fewer
  have fixed : propagate edges (ofAutomaton (Context.ofGrammar plain) automaton) =
      ofAutomaton (Context.ofGrammar plain) automaton :=
    inflates.iterateUntilStable_fixed (described _ _) generated enough
  have kept : ∀ item (symbol : Symbol), States ((flows (Context.ofGrammar plain) automaton).foldl
      (fun lookaheads flow => KernelLookaheads.add lookaheads flow.2.1 flow.2.2.symbols)
        (KernelLookaheads.add (automaton.kernels.map fun kernel =>
          Array.replicate kernel.length .empty) ⟨0, 0⟩ (.singleton .endOfInput)))
            (item, symbol.index) →
      ((ofAutomaton (Context.ofGrammar plain) automaton).get item).contains symbol = true :=
    fun item symbol => rounds.grows generated (item, symbol.index)
  refine ⟨sized, ?_, fun source target lookahead member symbol inside => ?_,
    fun source target lookahead member inherits symbol inside => ?_⟩
  · have ended : States (KernelLookaheads.add (automaton.kernels.map fun kernel =>
        Array.replicate kernel.length .empty) ⟨0, 0⟩ (.singleton .endOfInput))
          (⟨0, 0⟩, Symbol.endOfInput.index) := by
      rw [States, get_add_self nothing first]
      exact SymbolSet.contains_union.2 (.inr (SymbolSet.contains_singleton _))
    exact kept _ _ ((Inflates.foldl generating).grows seeded _ ended)
  · have made : ∀ state, Sized automaton plain.terminalCount state →
        States (KernelLookaheads.add state target lookahead.symbols) (target, symbol.index) := by
      intro state known
      rw [States, get_add_self known (target_of_flow member)]
      exact SymbolSet.contains_union.2 (.inr inside)
    exact kept _ _ (Inflates.foldl_holds generating member made seeded)
  · have edge : (source, target) ∈ edges := by
      refine List.mem_filterMap.2 ⟨(source, target, lookahead), member, ?_⟩
      dsimp only
      rw [if_pos inherits]
    have same := Inflates.foldl_fixed (fun edge _ => inflates_pass edge) (described _ _) sized fixed
      (source, target) edge
    rw [← same, get_add_self sized (target_of_flow member)]
    exact SymbolSet.contains_union.2 (.inr inside)

end KernelLookaheads

/-- Whether a terminal may follow an item of a state: the closure of an item of its kernel generates
it, or takes it over from that item. -/
def Expects (context : Context) (automaton : Automaton) (lookaheads : KernelLookaheads)
    (state : Nat) (item : Item) (terminal : Symbol) : Prop :=
  ∃ kernel position start lookahead, automaton.kernels[state]? = some kernel ∧
    kernel[position]? = some start ∧
      (item, lookahead) ∈ context.closureItems [(start, ⟨.empty, true⟩)] ∧
        (lookahead.symbols.contains terminal = true ∨ lookahead.inherits = true ∧
          (lookaheads.get ⟨state, position⟩).contains terminal = true)

namespace Expects

variable {plain : PlainGrammar} {automaton : Automaton} {lookaheads : KernelLookaheads}
  {state : Nat} {item : Item} {terminal : Symbol}

theorem of_kernel {context : Context} {kernel : List Item} {position : Nat}
    (found : automaton.kernels[state]? = some kernel) (place : kernel[position]? = some item)
    (follows : (lookaheads.get ⟨state, position⟩).contains terminal = true) :
    Expects context automaton lookaheads state item terminal :=
  ⟨kernel, position, item, _, found, place,
    Context.entry_closureItems.2 (.inl (List.mem_singleton_self _)), .inr ⟨rfl, follows⟩⟩

/-- What follows an item of a state follows it in the closure of the state's kernel. -/
theorem listed (numbered : plain.Numbered)
    (sized : lookaheads.Sized automaton plain.terminalCount)
    (expects : Expects (Context.ofGrammar plain) automaton lookaheads state item terminal)
    {kernel : List Item} (found : automaton.kernels[state]? = some kernel) :
    ∃ lookahead, lookahead.symbols.contains terminal = true ∧ (item, lookahead) ∈
      (Context.ofGrammar plain).closureItems (Table.seeds lookaheads (kernel, state)) := by
  obtain ⟨other, position, start, lookahead, otherFound, place, child, follows⟩ := expects
  cases found.symm.trans otherFound
  have below : ∀ seed ∈ Table.seeds lookaheads (kernel, state),
      seed.2.symbols.Below plain.terminalCount := by
    intro seed member
    obtain ⟨entry, -, rfl⟩ := List.mem_map.1 member
    exact sized.below _
  have member : (start, ⟨lookaheads.get ⟨state, position⟩, false⟩) ∈
      Table.seeds lookaheads (kernel, state) :=
    List.mem_map.2 ⟨(start, position), List.mem_zipIdx_iff_getElem?.2 place, rfl⟩
  obtain ⟨larger, entry, resolves⟩ :=
    Context.exists_entry_of_resolved numbered below member child
  exact ⟨larger, follows.elim (resolves.symbols terminal)
    fun inherited => resolves.inherits inherited.1 terminal inherited.2, entry⟩

/-- An item that is followed by something is an item of its state. -/
theorem mem_items (numbered : plain.Numbered)
    (sized : lookaheads.Sized automaton plain.terminalCount)
    (expects : Expects (Context.ofGrammar plain) automaton lookaheads state item terminal)
    {kernel : List Item} (found : automaton.kernels[state]? = some kernel) :
    item ∈ (Context.ofGrammar plain).items kernel := by
  obtain ⟨lookahead, -, entry⟩ := expects.listed numbered sized found
  have inside := Context.mem_items_of_closureItems.1 (List.mem_map_of_mem entry)
  rwa [Table.map_fst_seeds] at inside

/-- The symbol after an item leads to a state in which the item is advanced and is followed by the
same terminals. -/
theorem advance (numbered : plain.Numbered)
    (complete : Automaton.Complete (Context.ofGrammar plain) automaton)
    (propagates : lookaheads.Propagates (Context.ofGrammar plain) automaton)
    (expects : Expects (Context.ofGrammar plain) automaton lookaheads state item terminal)
    {symbol : Symbol} (next : (Context.ofGrammar plain).next? item = some symbol) :
    ∃ edges target, automaton.transitions[state]? = some edges ∧ (symbol, target) ∈ edges ∧
      Expects (Context.ofGrammar plain) automaton lookaheads target item.advance terminal := by
  obtain ⟨kernel, position, start, lookahead, found, place, child, follows⟩ := expects
  have member := mem_items numbered propagates.sized
    ⟨kernel, position, start, lookahead, found, place, child, follows⟩ found
  obtain ⟨edges, edgesFound, links⟩ := complete.exists_links found
  -- the first edge over the symbol is the one that lookaheads flow along
  obtain ⟨some_, someEdge⟩ := links.complete item member symbol next
  obtain ⟨⟨label, target⟩, first⟩ : ∃ edge, edges.find? (fun edge => edge.1 == symbol) = some edge :=
    Option.isSome_iff_exists.1 (List.find?_isSome.2 ⟨_, someEdge, beq_self_eq_true symbol⟩)
  have same := List.find?_some first
  obtain rfl : label = symbol := beq_iff_eq.1 same
  have edge := List.mem_of_find?_eq_some first
  obtain ⟨after, afterFound, advances⟩ := links.sound _ edge
  have advanced := advances.all item member next
  obtain ⟨number, numberPlace⟩ : ∃ number,
      after.findIdx? (fun other => other == item.advance) = some number :=
    Option.isSome_iff_exists.1 (by
      rw [List.findIdx?_isSome, List.any_eq_true]
      exact ⟨_, advanced, beq_self_eq_true _⟩)
  obtain ⟨bound, equal, -⟩ := List.findIdx?_eq_some_iff_getElem.1 numberPlace
  rw [beq_iff_eq] at equal
  have flow : (⟨state, position⟩, ⟨target, number⟩, lookahead) ∈
      KernelLookaheads.flows (Context.ofGrammar plain) automaton := by
    refine KernelLookaheads.mem_flows.2 ⟨kernel, start, item, found, place, child, ?_⟩
    have leads : automaton.target? state label = some target := by
      rw [Automaton.target?, edgesFound, Option.getD_some, first]
      rfl
    simp only [KernelLookaheads.successor?, next, leads, afterFound, numberPlace,
      Option.bind_eq_bind, Option.bind_some]
    rfl
  refine ⟨edges, target, edgesFound, edge, of_kernel afterFound
    (equal ▸ List.getElem?_eq_getElem bound) ?_⟩
  exact follows.elim (propagates.generated _ _ _ flow terminal)
    fun inherited => propagates.inherited _ _ _ flow inherited.1 terminal inherited.2

/-- The productions of the symbol after an item are items of the state, and are followed by whatever
begins the rest of the item or, if the rest may be empty, by what follows the item. -/
theorem call (numbered : plain.Numbered)
    (expects : Expects (Context.ofGrammar plain) automaton lookaheads state item terminal)
    {symbol : Symbol} {rest : List Symbol}
    (spelled : ((Context.ofGrammar plain).rhs item.production).drop item.dot = symbol :: rest)
    {production : Nat} {source : PlainProduction}
    (found : plain.productions[production]? = some source) (lhs : source.lhs = symbol)
    {word : List Symbol} (starts : FirstSets.Starts word ((FirstSets.ofGrammar plain).ofString rest)) :
    Expects (Context.ofGrammar plain) automaton lookaheads state ⟨production, 0⟩
      (word.headD terminal) := by
  obtain ⟨kernel, position, start, lookahead, kernelFound, place, child, follows⟩ := expects
  have below : ∀ seed ∈ [(start, (⟨.empty, true⟩ : Lookahead))],
      seed.2.symbols.Below plain.terminalCount := by
    intro seed member
    rw [List.mem_singleton.1 member]
    exact SymbolSet.below_empty
  obtain ⟨larger, entry, within⟩ :=
    Context.exists_entry_of_next numbered below child spelled found lhs
  refine ⟨kernel, position, start, larger, kernelFound, place, entry, ?_⟩
  cases word with
  | nil =>
      exact follows.imp
        (fun member => within.symbols terminal (Lookahead.contains_before.2 (.inr ⟨starts, member⟩)))
        fun inherited =>
          ⟨within.inherits (Lookahead.inherits_before.2 ⟨starts, inherited.1⟩), inherited.2⟩
  | cons first others =>
      exact .inl (within.symbols first (Lookahead.contains_before.2 (.inl starts)))

end Expects

end Lalr

end IncrementalGlr
