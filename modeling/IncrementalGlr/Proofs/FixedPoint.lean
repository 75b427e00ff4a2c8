import IncrementalGlr.FixedPoint
import Mathlib.Data.Finset.Card
import Mathlib.Logic.Function.Iterate

/-!
# Fixed points of growing steps

A value is described by the facts that hold of it, of which there are finitely many.  A step that
never loses a fact is at a fixed point after as many rounds as there are facts.
-/

namespace IncrementalGlr

/-- Iterating until nothing changes is the same as iterating to the bound. -/
theorem iterateUntilStable_eq {α : Type} [BEq α] [LawfulBEq α] (step : α → α) (bound : Nat)
    (value : α) : iterateUntilStable step bound value = step^[bound] value := by
  induction bound generalizing value with
  | zero => rfl
  | succ bound induction =>
      rw [iterateUntilStable, Function.iterate_succ_apply]
      split
      · next stable =>
          rw [beq_iff_eq] at stable
          rw [stable]
          exact (Function.iterate_fixed stable bound).symm
      · exact induction (step value)

/-- Whether the values with a property are described by the facts that hold of them, all of which
are among the given ones. -/
structure Described {α γ : Type} (valid : α → Prop) (holds : α → γ → Prop) (facts : Finset γ) :
    Prop where
  /-- Values of which the same facts hold are equal. -/
  ext {left right : α} : valid left → valid right →
    (∀ fact, holds left fact ↔ holds right fact) → left = right
  /-- No other facts hold. -/
  inside {value : α} : valid value → ∀ fact, holds value fact → fact ∈ facts

/-- Whether a step keeps the property and all facts. -/
structure Inflates {α γ : Type} (valid : α → Prop) (holds : α → γ → Prop) (step : α → α) :
    Prop where
  /-- The property is kept. -/
  keeps {value : α} : valid value → valid (step value)
  /-- The facts are kept. -/
  grows {value : α} : valid value → ∀ fact, holds value fact → holds (step value) fact

variable {α γ : Type} {valid : α → Prop} {holds : α → γ → Prop} {facts : Finset γ}

theorem Inflates.id : Inflates valid holds fun value => value := 
  ⟨fun known => known, fun _ _ held => held⟩

theorem Inflates.comp {first second : α → α} (left : Inflates valid holds first)
    (right : Inflates valid holds second) : Inflates valid holds fun value => second (first value) :=
  ⟨fun known => right.keeps (left.keeps known),
    fun known fact held => right.grows (left.keeps known) fact (left.grows known fact held)⟩

theorem Inflates.ite {step : α → α} (inflates : Inflates valid holds step) (test : α → Bool) :
    Inflates valid holds fun value => if test value then step value else value := by
  constructor
  case keeps =>
    intro value known
    split
    · exact inflates.keeps known
    · exact known
  case grows =>
    intro value known
    split
    · exact inflates.grows known
    · exact fun _ held => held

/-- Two steps that change nothing in all change nothing one by one. -/
theorem Inflates.comp_fixed {first second : α → α} (left : Inflates valid holds first)
    (right : Inflates valid holds second) (described : Described valid holds facts) {value : α}
    (known : valid value) (fixed : second (first value) = value) :
    first value = value ∧ second value = value := by
  have same : first value = value := by
    refine described.ext (left.keeps known) known fun fact => ⟨fun held => ?_,
      left.grows known fact⟩
    rw [← fixed]
    exact right.grows (left.keeps known) fact held
  exact ⟨same, by rwa [same] at fixed⟩

theorem Inflates.iterate {step : α → α} (inflates : Inflates valid holds step) (count : Nat) :
    Inflates valid holds step^[count] := by
  induction count with
  | zero => exact .id
  | succ count induction => exact inflates.comp induction

theorem Inflates.untilStable [BEq α] [LawfulBEq α] {step : α → α}
    (inflates : Inflates valid holds step) (bound : Nat) :
    Inflates valid holds (iterateUntilStable step bound) := by
  rw [show iterateUntilStable step bound = step^[bound] from
    funext (iterateUntilStable_eq step bound)]
  exact inflates.iterate bound

theorem Inflates.foldl {β : Type} {step : α → β → α} {values : List β}
    (each : ∀ value ∈ values, Inflates valid holds fun state => step state value) :
    Inflates valid holds fun state => values.foldl step state := by
  induction values with
  | nil => exact .id
  | cons value rest induction =>
      exact (each value List.mem_cons_self).comp
        (induction fun other member => each other (List.mem_cons_of_mem value member))

/-- A fact that one of several steps brings about holds after all of them. -/
theorem Inflates.foldl_holds {β : Type} {step : α → β → α} {values : List β}
    (each : ∀ value ∈ values, Inflates valid holds fun state => step state value) {value : β}
    (member : value ∈ values) {fact : γ}
    (made : ∀ state, valid state → holds (step state value) fact) {state : α}
    (known : valid state) : holds (values.foldl step state) fact := by
  obtain ⟨before, after, rfl⟩ := List.append_of_mem member
  have first : Inflates valid holds fun state => before.foldl step state :=
    .foldl fun other earlier => each other (List.mem_append_left _ earlier)
  have last : Inflates valid holds fun state => after.foldl step state :=
    .foldl fun other later => each other (List.mem_append_right _ (List.mem_cons_of_mem value later))
  rw [List.foldl_append, List.foldl_cons]
  exact last.grows ((each value member).keeps (first.keeps known)) fact
    (made _ (first.keeps known))

/-- Steps in a row that change nothing in all change nothing one by one. -/
theorem Inflates.foldl_fixed {β : Type} {step : α → β → α} {values : List β}
    (each : ∀ value ∈ values, Inflates valid holds fun state => step state value)
    (described : Described valid holds facts) {state : α} (known : valid state)
    (fixed : values.foldl step state = state) : ∀ value ∈ values, step state value = state := by
  induction values with
  | nil => exact fun _ never => absurd never List.not_mem_nil
  | cons value rest induction =>
      have later : ∀ other ∈ rest, Inflates valid holds fun state => step state other :=
        fun other member => each other (List.mem_cons_of_mem value member)
      obtain ⟨first, remaining⟩ :=
        (each value List.mem_cons_self).comp_fixed (.foldl later) described known fixed
      intro other member
      rcases List.mem_cons.1 member with rfl | member
      · exact first
      · exact induction later remaining other member

open Classical in
/-- A growing step that is repeated more often than there are facts comes to a fixed point. -/
theorem Inflates.iterateUntilStable_fixed [BEq α] [LawfulBEq α] {step : α → α}
    (inflates : Inflates valid holds step) (described : Described valid holds facts) {value : α}
    (known : valid value) {bound : Nat} (enough : facts.card < bound) :
    step (iterateUntilStable step bound value) = iterateUntilStable step bound value := by
  rw [iterateUntilStable_eq, ← Function.iterate_succ_apply' step]
  by_contra changes
  -- a step that changes the value at the end has changed it every time before
  have moving : ∀ count ≤ bound, step^[count + 1] value ≠ step^[count] value := by
    intro count less same
    obtain ⟨more, rfl⟩ := Nat.exists_eq_add_of_le' less
    have fixed : Function.IsFixedPt step (step^[count] value) := by
      rwa [Function.iterate_succ_apply'] at same
    refine changes ?_
    rw [Function.iterate_succ_apply', Function.iterate_add_apply, Function.iterate_fixed fixed]
    exact fixed
  have larger : ∀ count ≤ bound,
      count ≤ (facts.filter (holds (step^[count] value))).card := by
    intro count less
    induction count with
    | zero => exact Nat.zero_le _
    | succ count induction =>
        have here := (inflates.iterate count).keeps known
        have there := (inflates.iterate (count + 1)).keeps known
        have grown : ∀ fact, holds (step^[count] value) fact →
            holds (step^[count + 1] value) fact := by
          rw [Function.iterate_succ_apply']
          exact inflates.grows here
        refine Nat.lt_of_le_of_lt (induction (Nat.le_of_succ_le less))
          (Finset.card_lt_card ⟨fun fact member => ?_, fun back => ?_⟩)
        · rw [Finset.mem_filter] at member ⊢
          exact ⟨member.1, grown fact member.2⟩
        · refine moving count (Nat.le_of_succ_le less) (described.ext there here fun fact =>
            ⟨fun held => ?_, grown fact⟩)
          exact (Finset.mem_filter.1
            (back (Finset.mem_filter.2 ⟨described.inside there fact held, held⟩))).2
  exact absurd (Nat.le_trans (larger bound (Nat.le_refl bound)) (Finset.card_filter_le _ _))
    (Nat.not_le.2 enough)

end IncrementalGlr
