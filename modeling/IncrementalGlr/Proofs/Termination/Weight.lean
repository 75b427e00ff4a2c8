import IncrementalGlr.Proofs.Coverage.Recovery
import IncrementalGlr.Proofs.Termination.Hollow
import Mathlib.Tactic.Linarith

/-!
# Weights of subtrees

The weight of a subtree is the number of shifts and reductions that it took to build it.  In a grammar
without cycles the weight of an empty subtree is bounded, and that of any other by its length: a node
above just one subtree that is not empty has a larger rank than this one, and a node above several
divides its length among them.
-/

namespace IncrementalGlr

open Grammar.ComesFrom (ItemsOf)

namespace Subtree

mutual

/-- Number of subtrees in a subtree, itself included, without extras and what is in them. -/
def weight : Subtree → Nat
  | mk data children => if data.flags.extra then 0 else weightAll children + 1

/-- Number of subtrees in a list of subtrees, without extras and what is in them. -/
def weightAll : List Subtree → Nat
  | [] => 0
  | child :: rest => child.weight + weightAll rest

end

theorem weight_extra {subtree : Subtree} (isExtra : subtree.isExtra = true) :
    subtree.weight = 0 := by
  obtain ⟨data, children⟩ := subtree
  rw [weight]
  exact if_pos isExtra

theorem weight_plain {subtree : Subtree} (notExtra : subtree.isExtra = false) :
    subtree.weight = weightAll subtree.children + 1 := by
  obtain ⟨data, children⟩ := subtree
  rw [weight]
  exact if_neg (Bool.not_eq_true _ ▸ notExtra)

@[simp]
theorem weightAll_append (left right : List Subtree) :
    weightAll (left ++ right) = weightAll left + weightAll right := by
  induction left with
  | nil => exact (Nat.zero_add _).symm
  | cons child rest induction =>
      rw [List.cons_append, weightAll, weightAll, induction, Nat.add_assoc]

theorem plainSymbols_cons {subtree : Subtree} (notExtra : subtree.isExtra = false)
    (rest : List Subtree) : plainSymbols (subtree :: rest) = subtree.symbol :: plainSymbols rest := by
  simp [plainSymbols, notExtra]

theorem plainSymbols_cons_extra {subtree : Subtree} (isExtra : subtree.isExtra = true)
    (rest : List Subtree) : plainSymbols (subtree :: rest) = plainSymbols rest := by
  simp [plainSymbols, isExtra]

/-- The weight of subtrees that are not extras is bounded if that of each of them is. -/
theorem weightAll_le {bound : Nat} {subtrees : List Subtree}
    (light : ∀ subtree ∈ subtrees, subtree.isExtra = false → subtree.weight ≤ bound) :
    weightAll subtrees ≤ (plainSymbols subtrees).length * bound := by
  induction subtrees with
  | nil => exact Nat.zero_le _
  | cons subtree rest induction =>
      have later := induction fun other member => light other (List.mem_cons_of_mem subtree member)
      cases isExtra : subtree.isExtra with
      | true =>
          rw [weightAll, weight_extra isExtra, plainSymbols_cons_extra isExtra, Nat.zero_add]
          exact later
      | false =>
          have first := light subtree List.mem_cons_self isExtra
          rw [weightAll, plainSymbols_cons isExtra, List.length_cons, Nat.succ_mul, Nat.add_comm]
          exact Nat.add_le_add later first

end Subtree

namespace PlainGrammar

variable (plain : PlainGrammar)

/-- Weight that no empty subtree exceeds. -/
noncomputable def maxEmpty : Nat := (plain.width + 1) ^ (Nat.card Symbol + 1)

/-- Weight that no node above empty subtrees exceeds. -/
noncomputable def maxNode : Nat := plain.width * plain.maxEmpty + 1

/-- Weight that no chain of nodes above empty subtrees exceeds, each of which is above the next. -/
noncomputable def maxChain : Nat := (Nat.card Symbol + 1) * plain.maxNode

end PlainGrammar

namespace Subtree

variable {plain : PlainGrammar}

/-- Whether a subtree is not heavier than its symbol and its length allow. -/
structure Light (plain : PlainGrammar) (subtree : Subtree) : Prop where
  /-- The empty sequence can be derived from the symbol of an empty subtree. -/
  vanishes : subtree.length = 0 → plain.Derives [subtree.symbol] []
  /-- The rank of its symbol bounds the weight of an empty subtree. -/
  empty : subtree.length = 0 →
    subtree.weight ≤ (plain.width + 1) ^ (Symbol.rank plain.Narrows subtree.symbol + 1)
  /-- The length bounds the weight of any other subtree, apart from the chain at its top. -/
  filled : 0 < subtree.length → subtree.weight + 2 * plain.maxChain ≤
    2 * plain.maxChain * subtree.length +
      (Symbol.rank plain.Narrows subtree.symbol + 1) * plain.maxNode

/-- Whether all subtrees that are not extras are light. -/
def AllLight (plain : PlainGrammar) (subtrees : List Subtree) : Prop :=
  ∀ subtree ∈ subtrees, subtree.isExtra = false → subtree.Light plain

/-- Whether all subtrees that are not extras are empty. -/
def AllEmpty (subtrees : List Subtree) : Prop :=
  ∀ subtree ∈ subtrees, subtree.isExtra = false → subtree.length = 0

theorem Light.weight_empty {subtree : Subtree} (light : subtree.Light plain)
    (empty : subtree.length = 0) : subtree.weight ≤ plain.maxEmpty :=
  (light.empty empty).trans
    (Nat.pow_le_pow_right (Nat.succ_pos _) (Nat.succ_le_succ (Symbol.rank_le _)))

theorem Light.weight_filled {subtree : Subtree} (light : subtree.Light plain)
    (some_ : 0 < subtree.length) :
    subtree.weight + plain.maxChain ≤ 2 * plain.maxChain * subtree.length := by
  have bound := light.filled some_
  have rank : (Symbol.rank plain.Narrows subtree.symbol + 1) * plain.maxNode ≤ plain.maxChain :=
    Nat.mul_le_mul_right _ (Nat.succ_le_succ (Symbol.rank_le _))
  omega

section Lists

variable {subtrees : List Subtree}

theorem AllEmpty.weightAll_le (empty : AllEmpty subtrees) (light : AllLight plain subtrees) :
    weightAll subtrees ≤ (plainSymbols subtrees).length * plain.maxEmpty :=
  Subtree.weightAll_le fun subtree member notExtra =>
    (light subtree member notExtra).weight_empty (empty subtree member notExtra)

/-- Empty subtrees vanish together. -/
theorem AllEmpty.vanishes (empty : AllEmpty subtrees) (light : AllLight plain subtrees) :
    plain.Derives (plainSymbols subtrees) [] := by
  induction subtrees with
  | nil => exact .refl
  | cons subtree rest induction =>
      have later := induction (fun other member => empty other (List.mem_cons_of_mem subtree member))
        fun other member => light other (List.mem_cons_of_mem subtree member)
      cases isExtra : subtree.isExtra with
      | true =>
          rw [plainSymbols_cons_extra isExtra]
          exact later
      | false =>
          have first := (light subtree List.mem_cons_self isExtra).vanishes
            (empty subtree List.mem_cons_self isExtra)
          rw [plainSymbols_cons isExtra]
          exact first.concat later

/-- Subtrees of which some are not empty are lighter than their length allows. -/
theorem AllLight.weightAll_le (light : AllLight plain subtrees) :
    AllEmpty subtrees ∨ weightAll subtrees + plain.maxChain ≤
      2 * plain.maxChain * totalLength subtrees +
        (plainSymbols subtrees).length * plain.maxEmpty := by
  induction subtrees with
  | nil => exact .inl fun subtree never => absurd never List.not_mem_nil
  | cons subtree rest induction =>
      have restLight : AllLight plain rest :=
        fun other member => light other (List.mem_cons_of_mem subtree member)
      have later := induction restLight
      rw [weightAll, totalLength_cons, Nat.mul_add]
      cases isExtra : subtree.isExtra with
      | true =>
          rw [weight_extra isExtra, plainSymbols_cons_extra isExtra]
          refine later.imp (fun empty other member notExtra => ?_) fun bound => by omega
          rcases List.mem_cons.1 member with rfl | inside
          · rw [isExtra] at notExtra
            cases notExtra
          · exact empty other inside notExtra
      | false =>
          have first := light subtree List.mem_cons_self isExtra
          rw [plainSymbols_cons isExtra, List.length_cons, Nat.succ_mul (plainSymbols rest).length]
          rcases Nat.eq_zero_or_pos subtree.length with none | some_
          · have weight := first.weight_empty none
            refine later.imp (fun empty other member notExtra => ?_) fun bound => by omega
            rcases List.mem_cons.1 member with rfl | inside
            · exact none
            · exact empty other inside notExtra
          · have weight := first.weight_filled some_
            right
            rcases later with empty | bound
            · have others := empty.weightAll_le restLight
              omega
            · omega

end Lists

/-- The only subtree that is not empty remains of the production of a node above several. -/
theorem narrows_of_children {production : PlainProduction} (member : production ∈ plain.productions)
    {before after : List Subtree} {child : Subtree} (notExtra : child.isExtra = false)
    (symbols : plainSymbols (before ++ child :: after) = production.rhs)
    (first : plain.Derives (plainSymbols before) [])
    (last : plain.Derives (plainSymbols after) []) :
    plain.Narrows production.lhs child.symbol := by
  rw [plainSymbols_append, plainSymbols_cons notExtra] at symbols
  exact ⟨production, member, rfl, _, _, symbols.symm, first, last⟩

section Node

variable (acyclic : plain.Acyclic) {production : PlainProduction}
  (member : production ∈ plain.productions) {children : List Subtree}
  (symbols : plainSymbols children = production.rhs) (light : AllLight plain children)

include acyclic member symbols light

/-- All subtrees under an empty node have smaller ranks. -/
theorem weightAll_of_empty (empty : totalLength children = 0) :
    weightAll children + 1 ≤
      (plain.width + 1) ^ (Symbol.rank plain.Narrows production.lhs + 1) := by
  have none : ∀ child ∈ children, child.length = 0 := totalLength_eq_zero.1 empty
  have each : ∀ child ∈ children, child.isExtra = false →
      child.weight ≤ (plain.width + 1) ^ Symbol.rank plain.Narrows production.lhs := by
    intro child inside notExtra
    obtain ⟨before, after, rfl⟩ := List.append_of_mem inside
    have vanishes : ∀ part, (∀ other ∈ part, other ∈ before ++ child :: after) →
        plain.Derives (plainSymbols part) [] := fun part within =>
      AllEmpty.vanishes (fun other found _ => none other (within other found))
        fun other found => light other (within other found)
    have narrows := narrows_of_children member notExtra symbols
      (vanishes before fun other => List.mem_append_left _)
      (vanishes after fun other found =>
        List.mem_append_right _ (List.mem_cons_of_mem child found))
    exact ((light child inside notExtra).empty (none child inside)).trans
      (Nat.pow_le_pow_right (Nat.succ_pos _) (acyclic.rank_lt narrows))
  have total := Subtree.weightAll_le each
  have wide := PlainGrammar.length_le_width member
  rw [symbols] at total
  have positive : 0 < (plain.width + 1) ^ Symbol.rank plain.Narrows production.lhs :=
    Nat.pow_pos (Nat.succ_pos _)
  rw [Nat.pow_succ, Nat.mul_succ, Nat.mul_comm _ plain.width]
  have more := Nat.mul_le_mul_right
    ((plain.width + 1) ^ Symbol.rank plain.Narrows production.lhs) wide
  omega

/-- A node above one subtree that is not empty has a larger rank than this one, and a node above
several divides its length among them. -/
theorem weightAll_of_filled (some_ : 0 < totalLength children) :
    weightAll children + 1 + 2 * plain.maxChain ≤ 2 * plain.maxChain * totalLength children +
      (Symbol.rank plain.Narrows production.lhs + 1) * plain.maxNode := by
  have wide := PlainGrammar.length_le_width member
  have node : ∀ count, count ≤ production.rhs.length →
      count * plain.maxEmpty + 1 ≤ plain.maxNode := fun count few =>
    Nat.succ_le_succ (Nat.mul_le_mul_right _ (few.trans wide))
  rw [Nat.add_one_mul (Symbol.rank plain.Narrows production.lhs)]
  cases found : children.find? fun child => !child.isExtra && 0 < child.length with
  | none =>
      have empty : AllEmpty children := by
        intro child inside notExtra
        have small := List.find?_eq_none.1 found child inside
        simpa [notExtra] using small
      have weights := empty.weightAll_le light
      have few := node _ (congrArg List.length symbols).le
      have long : 2 * plain.maxChain ≤ 2 * plain.maxChain * totalLength children :=
        Nat.le_mul_of_pos_right _ some_
      omega
  | some child =>
      obtain ⟨large, before, after, rfl, earlier⟩ := List.find?_eq_some_iff_append.1 found
      simp only [Bool.and_eq_true, Bool.not_eq_true', decide_eq_true_eq] at large
      obtain ⟨notExtra, positive⟩ := large
      have beforeEmpty : AllEmpty before := by
        intro other inside otherPlain
        have small := earlier other inside
        simpa [otherPlain] using small
      have beforeLight : AllLight plain before :=
        fun other inside => light other (List.mem_append_left _ inside)
      have afterLight : AllLight plain after := fun other inside =>
        light other (List.mem_append_right _ (List.mem_cons_of_mem child inside))
      have childLight := light child
        (List.mem_append_right _ List.mem_cons_self) notExtra
      have beforeWeight := beforeEmpty.weightAll_le beforeLight
      have lengths := congrArg List.length symbols
      rw [plainSymbols_append, plainSymbols_cons notExtra, List.length_append, List.length_cons]
        at lengths
      have few := node ((plainSymbols before).length + (plainSymbols after).length) (by omega)
      rw [Nat.add_mul] at few
      rw [weightAll_append, weightAll, totalLength_append, totalLength_cons, Nat.mul_add,
        Nat.mul_add (2 * plain.maxChain)]
      rcases afterLight.weightAll_le with afterEmpty | afterWeight
      · have narrows := narrows_of_children member notExtra symbols
          (beforeEmpty.vanishes beforeLight) (afterEmpty.vanishes afterLight)
        have rank := Nat.mul_le_mul_right plain.maxNode (acyclic.rank_lt narrows)
        rw [Nat.succ_eq_add_one] at rank
        have childWeight := childLight.filled positive
        have afterWeight := afterEmpty.weightAll_le afterLight
        omega
      · have childWeight := childLight.weight_filled positive
        omega

/-- A node is light if the subtrees under it are. -/
theorem light_of_production {node : Subtree} (under : node.children = children)
    (notExtra : node.isExtra = false) (symbol : node.symbol = production.lhs)
    (length : node.length = totalLength children) : node.Light plain := by
  have weight : node.weight = weightAll children + 1 := under ▸ weight_plain notExtra
  constructor
  case vanishes =>
    intro empty
    have none : AllEmpty children := by
      rw [length, totalLength_eq_zero] at empty
      exact fun child inside _ => empty child inside
    have vanishes := none.vanishes light
    rw [symbols] at vanishes
    rw [symbol]
    exact .head (.of_mem member) vanishes
  case empty =>
    rw [weight, symbol, length]
    exact weightAll_of_empty acyclic member symbols light
  case filled =>
    rw [weight, symbol, length]
    exact weightAll_of_filled acyclic member symbols light

end Node

/-- A token that is not empty is light. -/
theorem light_of_token {leaf : Subtree} (under : leaf.children = []) (positive : 0 < leaf.length) :
    leaf.Light plain := by
  have weight : leaf.weight ≤ 1 := by
    cases isExtra : leaf.isExtra with
    | true => exact (weight_extra isExtra).trans_le (Nat.zero_le 1)
    | false =>
        rw [weight_plain isExtra, under]
        exact Nat.le_refl 1
  have long : 2 * plain.maxChain ≤ 2 * plain.maxChain * leaf.length :=
    Nat.le_mul_of_pos_right _ positive
  have node : 1 ≤ (Symbol.rank plain.Narrows leaf.symbol + 1) * plain.maxNode :=
    Nat.mul_pos (Nat.succ_pos _) (Nat.succ_pos _)
  exact ⟨fun empty => absurd empty positive.ne', fun empty => absurd empty positive.ne',
    fun _ => by omega⟩

end Subtree

/-- Weight that no stack of a total length exceeds. -/
noncomputable def PlainGrammar.maxWeight (plain : PlainGrammar) (length : Nat) : Nat :=
  (2 * plain.maxChain + plain.maxEmpty * plain.maxHollow) * length +
    plain.maxEmpty * plain.maxHollow

namespace ParseStack

variable {plain : PlainGrammar} {table : Lalr.Table} {automaton : Lalr.Automaton}
  {stack : ParseStack}

theorem vanishing_of_light (light : Subtree.AllLight plain stack.subtrees) :
    stack.Vanishing plain :=
  fun subtree member notExtra => (light subtree member notExtra).vanishes

/-- A subtree that is not empty pays for its weight and for the empty subtrees below it. -/
theorem weightAll_cons_filled {entry : StackEntry} (some_ : 0 < entry.subtree.length)
    (light : entry.subtree.isExtra = false → entry.subtree.Light plain)
    (few : stack.hollow ≤ plain.maxHollow)
    (below : Subtree.weightAll stack.subtrees ≤
      (2 * plain.maxChain + plain.maxEmpty * plain.maxHollow) *
          Subtree.totalLength stack.subtrees + plain.maxEmpty * stack.hollow) :
    Subtree.weightAll (subtrees (entry :: stack)) ≤
      (2 * plain.maxChain + plain.maxEmpty * plain.maxHollow) *
        Subtree.totalLength (subtrees (entry :: stack)) := by
  have weight : entry.subtree.weight ≤ 2 * plain.maxChain * entry.subtree.length := by
    cases isExtra : entry.subtree.isExtra with
    | true => exact (Subtree.weight_extra isExtra).trans_le (Nat.zero_le _)
    | false => exact Nat.le_of_add_right_le ((light isExtra).weight_filled some_)
  have others : plain.maxEmpty * stack.hollow ≤
      plain.maxEmpty * plain.maxHollow * entry.subtree.length :=
    (Nat.mul_le_mul_left _ few).trans (Nat.le_mul_of_pos_right _ some_)
  rw [subtrees_cons, Subtree.weightAll_append, Subtree.weightAll, Subtree.weightAll,
    Subtree.totalLength_append, Subtree.totalLength_cons, Subtree.totalLength_nil, Nat.mul_add,
    Nat.add_zero, Nat.add_zero, Nat.add_mul _ _ entry.subtree.length]
  omega

section Bound

variable (made : table.MadeFrom plain automaton) (visible : plain.NoHiddenLeftRecursion)

include made visible

/-- The empty subtrees at the top of a stack apart, its length bounds its weight. -/
theorem Spells.weightAll_le_hollow (path : stack.Spells plain (ItemsOf plain automaton))
    (light : Subtree.AllLight plain stack.subtrees) :
    Subtree.weightAll stack.subtrees ≤
      (2 * plain.maxChain + plain.maxEmpty * plain.maxHollow) *
          Subtree.totalLength stack.subtrees + plain.maxEmpty * stack.hollow := by
  induction path with
  | nil => exact Nat.zero_le _
  | @extra below subtree path isExtra induction =>
      rw [subtrees_cons] at light
      have belowLight : Subtree.AllLight plain below.subtrees := fun other inside =>
        light other (List.mem_append_left _ inside)
      have few := path.hollow_le made visible (vanishing_of_light belowLight)
      rw [hollow]
      split
      · next some_ =>
          exact weightAll_cons_filled some_ (fun notExtra => absurd isExtra (by simp [notExtra])) few
            (induction belowLight)
      · next empty =>
          rw [subtrees_cons, Subtree.weightAll_append, Subtree.weightAll,
            Subtree.weight_extra isExtra, Subtree.totalLength_append, Subtree.totalLength_cons,
            Nat.eq_zero_of_not_pos empty]
          exact induction belowLight
  | @enter below subtree state path notExtra enters induction =>
      rw [subtrees_cons] at light
      have belowLight : Subtree.AllLight plain below.subtrees := fun other inside =>
        light other (List.mem_append_left _ inside)
      have top := light subtree (List.mem_append_right _ (List.mem_singleton_self subtree))
      have few := path.hollow_le made visible (vanishing_of_light belowLight)
      rw [hollow]
      split
      · next some_ => exact weightAll_cons_filled some_ top few (induction belowLight)
      · next empty =>
          have weight := (top notExtra).weight_empty (Nat.eq_zero_of_not_pos empty)
          have weights := induction belowLight
          rw [if_neg (by simp [notExtra]), subtrees_cons, Subtree.weightAll_append,
            Subtree.weightAll, Subtree.weightAll, Subtree.totalLength_append,
            Subtree.totalLength_cons, Nat.eq_zero_of_not_pos empty, Subtree.totalLength_nil,
            Nat.mul_add_one]
          simp only [Nat.add_zero]
          omega

/-- The length of a stack bounds its weight. -/
theorem Spells.weightAll_le (path : stack.Spells plain (ItemsOf plain automaton))
    (light : Subtree.AllLight plain stack.subtrees) :
    Subtree.weightAll stack.subtrees ≤
      plain.maxWeight (Subtree.totalLength stack.subtrees) := by
  have few := Nat.mul_le_mul_left plain.maxEmpty
    (path.hollow_le made visible (vanishing_of_light light))
  exact (path.weightAll_le_hollow made visible light).trans (Nat.add_le_add_left few _)

end Bound

end ParseStack

end IncrementalGlr
