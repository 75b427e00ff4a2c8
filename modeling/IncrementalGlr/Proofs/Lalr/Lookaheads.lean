import IncrementalGlr.Lalr.Automaton
import IncrementalGlr.Proofs.Lalr.Closure
import IncrementalGlr.Proofs.Lalr.First
import Mathlib.Data.List.Induction

/-!
# What may follow an item

The terminals that may follow an item are the end of the input and terminals that occur in
productions.  This is kept by everything that the construction of lookaheads does.
-/

namespace IncrementalGlr

/-- Whether a symbol occurs on the right of a production. -/
def PlainGrammar.Occurs (plain : PlainGrammar) (symbol : Symbol) : Prop :=
  ∃ production ∈ plain.productions, symbol ∈ production.rhs

/-- Whether a symbol may follow an item: it occurs on the right of a production or is the end of the
input. -/
def PlainGrammar.Follows (plain : PlainGrammar) (symbol : Symbol) : Prop :=
  symbol = .endOfInput ∨ plain.Occurs symbol

namespace SymbolSet

/-- Whether all members of a set have a property. -/
def Within (holds : Symbol → Prop) (set : SymbolSet) : Prop :=
  ∀ symbol, set.contains symbol = true → holds symbol

variable {holds : Symbol → Prop} {left right : SymbolSet}

theorem within_empty : Within holds empty := by
  intro symbol member
  simp at member

theorem Within.union (first : left.Within holds) (second : right.Within holds) :
    (left.union right).Within holds := by
  intro symbol member
  rw [contains, SymbolSet.union, Nat.testBit_or, Bool.or_eq_true] at member
  exact member.elim (first symbol) (second symbol)

theorem Within.mono {weaker : Symbol → Prop} (within : left.Within holds)
    (implies : ∀ symbol, holds symbol → weaker symbol) : left.Within weaker :=
  fun symbol member => implies symbol (within symbol member)

end SymbolSet

namespace Lalr

variable {plain : PlainGrammar}

namespace FirstSets

/-- Whether only the symbol itself and symbols of productions begin what a symbol derives. -/
def Occurring (plain : PlainGrammar) (sets : FirstSets) : Prop :=
  ∀ symbol, (sets.firstOf symbol).Within fun other => other = symbol ∨ plain.Occurs other

variable {sets : FirstSets}

/-- The productions make nothing begin a symbol but itself and symbols of productions. -/
theorem admits_occurring (plain : PlainGrammar) :
    Admits plain (fun symbol other => other = symbol ∨ plain.Occurs other) fun _ => True := by
  refine ⟨fun symbol _ => .inl rfl, ?_, fun _ _ _ => trivial⟩
  intro production member before symbol after spelled _ terminal begins
  refine .inr (begins.elim (fun same => ⟨production, member, ?_⟩) id)
  rw [spelled, same]
  exact List.mem_append_right before List.mem_cons_self

theorem occurring_ofGrammar (plain : PlainGrammar) : (ofGrammar plain).Occurring plain :=
  (admits_occurring plain).within_ofGrammar.first

theorem Occurring.ofString (occurring : sets.Occurring plain) {string : List Symbol}
    (occurs : ∀ symbol ∈ string, plain.Occurs symbol) :
    (sets.ofString string).1.Within plain.Occurs := by
  intro terminal member
  obtain ⟨before, symbol, after, rfl, -, inside⟩ := exists_of_contains_ofString member
  refine (occurring symbol terminal inside).elim (fun same => same ▸ occurs symbol ?_) id
  exact List.mem_append_right before List.mem_cons_self

end FirstSets

namespace Context

theorem within_before {string : SymbolSet × Bool} (begins : string.1.Within plain.Occurs)
    {whole : Lookahead} (within : whole.symbols.Within plain.Follows) :
    (Lookahead.before string whole).symbols.Within plain.Follows := by
  have weaker := begins.mono fun symbol occurs => (.inr occurs : plain.Follows symbol)
  unfold Lookahead.before
  split
  · exact weaker.union within
  · exact weaker

/-- What stands behind a symbol of a right-hand side occurs in a production. -/
theorem occurs_of_drop {production dot : Nat} {symbol : Symbol} {rest : List Symbol}
    (spelled : ((ofGrammar plain).rhs production).drop dot = symbol :: rest) :
    ∀ other ∈ rest, plain.Occurs other := by
  intro other member
  have inside : other ∈ ((ofGrammar plain).rhs production).drop dot := by
    rw [spelled]
    exact List.mem_cons_of_mem symbol member
  rcases Nat.lt_trichotomy production (ofGrammar plain).wholeText with before | whole | beyond
  · have found : plain.productions[production]? = some _ := List.getElem?_eq_getElem before
    rw [rhs_ofGrammar found] at inside
    exact ⟨_, List.mem_of_getElem? found, List.mem_of_mem_drop inside⟩
  · have lengths := congrArg List.length spelled
    rw [whole, rhs_wholeText, List.length_drop, List.length_singleton, List.length_cons] at lengths
    have some_ := List.length_pos_of_mem member
    omega
  · rw [rhs_beyond beyond, List.drop_nil] at inside
    cases inside

/-- In a closure only what may follow an item follows an item, if so it is in the kernel. -/
theorem within_closureItems {kernel : List (Item × Lookahead)}
    (within : ∀ seed ∈ kernel, seed.2.symbols.Within plain.Follows) :
    ∀ entry ∈ (ofGrammar plain).closureItems kernel,
      entry.2.symbols.Within plain.Follows := by
  refine @closureItems_induction plain (fun _ lookahead => lookahead.symbols.Within plain.Follows)
    (fun first second => first.union second) ?_ kernel within
  intro caller lookahead symbol rest production here spelled source _ _
  have begins := (FirstSets.occurring_ofGrammar plain).ofString (occurs_of_drop spelled)
  exact within_before begins here

end Context

namespace KernelLookaheads

variable {lookaheads : KernelLookaheads} {context : Context} {automaton : Automaton}

/-- What is added follows the item that it is added for. -/
theorem contains_get_add {item other : KernelItem} {symbols : SymbolSet} {terminal : Symbol}
    (member : ((lookaheads.add item symbols).get other).contains terminal = true) :
    (lookaheads.get other).contains terminal = true ∨
      other = item ∧ symbols.contains terminal = true := by
  unfold get add at member
  rw [Array.getElem?_modify] at member
  unfold get
  split at member
  · next same =>
      cases row : lookaheads[other.state]? with
      | none => simp [row] at member
      | some sets =>
          simp only [row, Option.map_some, Option.bind_some, Array.getElem?_modify] at member ⊢
          split at member
          · next place =>
              have equal : other = item := by
                obtain ⟨state, position⟩ := other
                cases item
                cases same
                cases place
                rfl
              cases set : sets[other.position]? with
              | none => simp [set] at member
              | some known =>
                  rw [set] at member
                  exact (SymbolSet.contains_union.1 member).imp_right fun added => ⟨equal, added⟩
          · exact .inl member
  · exact .inl member

/-- Whether something holds of all terminals that lookaheads let follow items. -/
def Within (holds : KernelItem → Symbol → Prop) (lookaheads : KernelLookaheads) : Prop :=
  ∀ item terminal, (lookaheads.get item).contains terminal = true → holds item terminal

theorem Within.add {holds : KernelItem → Symbol → Prop} (within : lookaheads.Within holds)
    {item : KernelItem} {symbols : SymbolSet}
    (added : ∀ terminal, symbols.contains terminal = true → holds item terminal) :
    (lookaheads.add item symbols).Within holds := by
  intro other terminal member
  rcases contains_get_add member with old | ⟨rfl, new⟩
  · exact within other terminal old
  · exact added terminal new

theorem mem_flows {context : Context} {source target : KernelItem} {lookahead : Lookahead} :
    (source, target, lookahead) ∈ flows context automaton ↔
      ∃ kernel item child, automaton.kernels[source.state]? = some kernel ∧
        kernel[source.position]? = some item ∧
          (child, lookahead) ∈ context.closureItems [(item, ⟨.empty, true⟩)] ∧
            successor? context automaton source.state child = some target := by
  obtain ⟨state, position⟩ := source
  simp only [flows, List.mem_flatMap, List.mem_filterMap, Prod.exists]
  constructor
  · rintro ⟨kernel, number, member, item, place, inside, child, known, listed, made⟩
    obtain ⟨_, found, same⟩ := Option.map_eq_some_iff.1 made
    cases same
    exact ⟨kernel, item, child, by simpa using List.mem_zipIdx_iff_getElem?.1 member,
      List.mem_zipIdx_iff_getElem?.1 inside, listed, found⟩
  · rintro ⟨kernel, item, child, found, inside, listed, made⟩
    exact ⟨kernel, state, List.mem_zipIdx_iff_getElem?.2 (by simpa using found), item, position,
      List.mem_zipIdx_iff_getElem?.2 inside, child, lookahead, listed, by rw [made]; rfl⟩

section Least

variable {holds : KernelItem → Symbol → Prop}

theorem within_nothing (automaton : Automaton) : Within holds (automaton.kernels.map fun kernel =>
    Array.replicate kernel.length .empty) := by
  intro item terminal member
  unfold get at member
  rw [Array.getElem?_map] at member
  cases found : automaton.kernels[item.state]? with
  | none => simp [found] at member
  | some kernel =>
      rw [found, Option.map_some, Option.bind_some, Array.getElem?_replicate] at member
      split at member <;> simp at member

theorem Within.propagate (within : lookaheads.Within holds) {edges : List (KernelItem × KernelItem)}
    (taken : ∀ edge ∈ edges, ∀ terminal, holds edge.1 terminal → holds edge.2 terminal) :
    (propagate edges lookaheads).Within holds := by
  refine List.foldlRecOn (motive := Within holds) edges _ within ?_
  intro lookaheads within edge member
  exact within.add fun terminal follows =>
    taken edge member terminal (within edge.1 terminal follows)

/-- What holds of the end of the input after the first item, of what closures generate and, along
with what follows an item, of what is taken over from it holds of all that may follow items. -/
theorem within_ofAutomaton (start : holds ⟨0, 0⟩ .endOfInput)
    (generated : ∀ source target lookahead, (source, target, lookahead) ∈ flows context automaton →
      ∀ terminal, lookahead.symbols.contains terminal = true → holds target terminal)
    (inherited : ∀ source target lookahead, (source, target, lookahead) ∈ flows context automaton →
      lookahead.inherits = true → ∀ terminal, holds source terminal → holds target terminal) :
    (ofAutomaton context automaton).Within holds := by
  have started : Within holds (KernelLookaheads.add (automaton.kernels.map fun kernel =>
      Array.replicate kernel.length .empty) ⟨0, 0⟩ (.singleton .endOfInput)) :=
    (within_nothing automaton).add fun _ member =>
      SymbolSet.contains_singleton_iff.1 member ▸ start
  have generating := List.foldlRecOn (motive := Within holds) (flows context automaton)
    (fun lookaheads flow => KernelLookaheads.add lookaheads flow.2.1 flow.2.2.symbols) started
    fun lookaheads within flow member => within.add (generated flow.1 flow.2.1 flow.2.2 member)
  unfold ofAutomaton
  dsimp only
  rw [iterateUntilStable_eq]
  refine Function.Iterate.rec (Within holds) generating (fun _ within => within.propagate ?_) _
  intro edge member
  obtain ⟨⟨source, target, lookahead⟩, flow, kept⟩ := List.mem_filterMap.1 member
  dsimp only at kept
  split at kept
  · next inherits =>
      cases kept
      exact inherited source target lookahead flow inherits
  · cases kept

end Least

/-- Whether what follows the items of all kernels may follow an item. -/
def Bounded (plain : PlainGrammar) (lookaheads : KernelLookaheads) : Prop :=
  ∀ item, (lookaheads.get item).Within plain.Follows

theorem bounded_ofAutomaton (plain : PlainGrammar) (automaton : Automaton) :
    (ofAutomaton (Context.ofGrammar plain) automaton).Bounded plain := by
  refine @within_ofAutomaton _ automaton (fun _ => plain.Follows) (.inl rfl) ?_
    fun _ _ _ _ _ _ => id
  intro source target lookahead flow
  obtain ⟨kernel, item, child, -, -, listed, -⟩ := mem_flows.1 flow
  exact Context.within_closureItems
    (List.forall_mem_singleton.2 SymbolSet.within_empty) (child, lookahead) listed

end KernelLookaheads

end Lalr

end IncrementalGlr
