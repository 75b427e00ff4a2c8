import IncrementalGlr.Proofs.Lalr.Bounds
import IncrementalGlr.Proofs.Lalr.Cells
import Mathlib.Data.Finset.Max

/-!
# Precedence

What resolution keeps of the actions that a state calls for on a terminal depends on the set of these
actions only, and it is never empty.  Each action that is dropped loses to another one by precedence,
or by associativity between equal precedences.  Cells in which several actions are left are reported.
-/

namespace IncrementalGlr

namespace Lalr

namespace Context

variable {context : Context} {items : List Item} {terminal : Symbol} {actions : List Action}

/-- What actions are ordered by: shifts come first, then the acceptance, then the reductions by their
productions. -/
def order : Action → ℕ ×ₗ ℕ
  | .shift _ => toLex (0, 0)
  | .accept => toLex (1, 0)
  | .reduce production => toLex (2, production.index)

theorem actionLe_iff {left right : Action} :
    actionLe left right = true ↔ order left ≤ order right := by
  cases left <;> cases right <;> simp [actionLe, order, Prod.Lex.toLex_le_toLex]

/-- Whether a list holds at most one shift. -/
def ShiftsOnce (actions : List Action) : Prop :=
  ∀ left right, .shift left ∈ actions → .shift right ∈ actions → left = right

theorem ShiftsOnce.order_inj (once : ShiftsOnce actions) {left right : Action}
    (leftMember : left ∈ actions) (rightMember : right ∈ actions)
    (same : order left = order right) : left = right := by
  cases left with
  | shift target =>
      cases right with
      | shift other => exact congrArg Action.shift (once _ _ leftMember rightMember)
      | accept => cases same
      | reduce production => cases same
  | accept =>
      cases right with
      | accept => rfl
      | shift target => cases same
      | reduce production => cases same
  | reduce production =>
      cases right with
      | reduce other =>
          exact congrArg Action.reduce
            (ProductionId.index_inj (congrArg (fun key => (ofLex key).2) same))
      | shift target => cases same
      | accept => cases same

/-- Arranged actions ascend. -/
theorem ascending_arrange (once : ShiftsOnce actions) :
    (arrange actions).Pairwise fun left right => order left < order right := by
  have sorted : (sortBy actionLe actions).Pairwise fun left right => order left ≤ order right := by
    refine pairwise_sortBy (fun left right less => actionLe_iff.1 less) (fun left right more => ?_) _
    exact le_of_not_ge fun less => by
      rw [actionLe_iff.2 less] at more
      cases more
  refine pairwise_eraseReps sorted fun left leftMember right rightMember same => ?_
  exact once.order_inj (mem_sortBy.1 leftMember) (mem_sortBy.1 rightMember) same

/-- Arranging forgets the order of actions and how often they are repeated. -/
theorem arrange_congr {others : List Action} (once : ShiftsOnce actions)
    (same : ∀ action, action ∈ others ↔ action ∈ actions) : arrange others = arrange actions := by
  have othersOnce : ShiftsOnce others := fun left right leftMember rightMember =>
    once left right ((same _).1 leftMember) ((same _).1 rightMember)
  exact eq_of_ascending (ascending_arrange othersOnce) (ascending_arrange once) fun action => by
    rw [mem_arrange, mem_arrange, same]

/-- Whether a precedence is the highest one of the items that shift a terminal. -/
structure IsShiftPrecedence (context : Context) (items : List Item) (terminal : Symbol)
    (precedence : Int) : Prop where
  /-- It is the precedence of one of them. -/
  attained : ∃ item ∈ items, context.next? item = some terminal ∧
    (context.precedence item.production).1 = precedence
  /-- None has a higher one. -/
  highest : ∀ item ∈ items, context.next? item = some terminal →
    (context.precedence item.production).1 ≤ precedence

theorem shiftPrecedence?_eq_some {precedence : Int} :
    context.shiftPrecedence? items terminal = some precedence ↔
      context.IsShiftPrecedence items terminal precedence := by
  unfold shiftPrecedence?
  rw [List.max?_eq_some_iff]
  simp only [List.mem_map, List.mem_filter, beq_iff_eq, forall_exists_index, and_imp]
  constructor
  · rintro ⟨⟨item, ⟨member, next⟩, same⟩, highest⟩
    exact ⟨⟨item, member, next, same⟩, fun other otherMember otherNext =>
      highest _ other otherMember otherNext rfl⟩
  · rintro ⟨⟨item, member, next, same⟩, highest⟩
    refine ⟨⟨item, ⟨member, next⟩, same⟩, ?_⟩
    rintro _ other otherMember otherNext rfl
    exact highest other otherMember otherNext

/-- Some item shifts the terminal if and only if there is a highest precedence of such items. -/
theorem exists_shiftPrecedence :
    (∃ item ∈ items, context.next? item = some terminal) ↔
      (context.shiftPrecedence? items terminal).isSome = true := by
  unfold shiftPrecedence?
  rw [List.isSome_max?_iff]
  simp [List.filter_eq_nil_iff]

theorem contest_eq_reductionWins {shift : Int} {reduction : Int × Option Associativity} :
    contest shift reduction = .reductionWins ↔
      shift < reduction.1 ∨ reduction = (shift, some .left) := by
  obtain ⟨precedence, associativity⟩ := reduction
  unfold contest
  rcases Int.lt_trichotomy precedence shift with lower | rfl | higher
  · simp [lower, lower.le, lower.ne]
  · cases associativity with
    | none => simp
    | some side => cases side <;> simp
  · simp [higher, higher.le]

theorem contest_eq_shiftWins {shift : Int} {reduction : Int × Option Associativity} :
    contest shift reduction = .shiftWins ↔
      reduction.1 < shift ∨ reduction = (shift, some .right) := by
  obtain ⟨precedence, associativity⟩ := reduction
  unfold contest
  rcases Int.lt_trichotomy precedence shift with lower | rfl | higher
  · simp [lower]
  · cases associativity with
    | none => simp
    | some side => cases side <;> simp
  · simp [higher, higher.le, higher.ne']

/-- What the outcome of a contest with the shift says about the precedences. -/
theorem contest?_eq_iff {production : ProductionId} (outcome : Contest) (decided : outcome ≠ .tie) :
    context.contest? (context.shiftPrecedence? items terminal) production = outcome ↔
      ∃ shift, context.IsShiftPrecedence items terminal shift ∧
        contest shift (context.precedence production.index) = outcome := by
  simp only [← shiftPrecedence?_eq_some]
  unfold contest?
  cases context.shiftPrecedence? items terminal with
  | none => simp [decided.symm]
  | some shift => simp

/-- Whether an action withstands the others. -/
def Withstands (context : Context) (items : List Item) (terminal : Symbol) (actions : List Action) :
    Action → Prop
  | .shift _ => ∀ production, .reduce production ∈ actions →
    context.contest? (context.shiftPrecedence? items terminal) production ≠ .reductionWins
  | .accept => True
  | .reduce production =>
    context.contest? (context.shiftPrecedence? items terminal) production ≠ .shiftWins ∧
      ∀ other, .reduce other ∈ actions →
        context.contest? (context.shiftPrecedence? items terminal) other ≠ .shiftWins →
          (context.precedence other.index).1 ≤ (context.precedence production.index).1

/-- Whether a list of actions has a shift if and only if some item shifts the terminal. -/
structure Fits (context : Context) (items : List Item) (terminal : Symbol)
    (actions : List Action) : Prop where
  /-- There is not more than one shift. -/
  once : ShiftsOnce actions
  /-- An item calls for it. -/
  shifts : (∃ target, .shift target ∈ actions) ↔ ∃ item ∈ items, context.next? item = some terminal

theorem mem_reductions {production : ProductionId} :
    production ∈ (arrange actions).filterMap reduction? ↔ .reduce production ∈ actions := by
  rw [List.mem_filterMap]
  constructor
  · rintro ⟨action, member, found⟩
    cases action with
    | reduce other => exact Option.some.inj found ▸ mem_arrange.1 member
    | shift target => cases found
    | accept => cases found
  · exact fun member => ⟨_, mem_arrange.2 member, rfl⟩

/-- A single action withstands all others. -/
theorem Fits.withstands_of_length_lt (fits : context.Fits items terminal actions)
    (few : (arrange actions).length < 2) {action : Action} (member : action ∈ actions) :
    context.Withstands items terminal actions action := by
  have only : ∀ other ∈ actions, other = action := by
    intro other otherMember
    obtain ⟨single, same⟩ := List.length_eq_one_iff.1
      (Nat.le_antisymm (Nat.le_of_lt_succ few) (List.length_pos_of_mem (mem_arrange.2 member)))
    have here := mem_arrange.2 member
    have there := mem_arrange.2 otherMember
    rw [same, List.mem_singleton] at here there
    rw [here, there]
  cases action with
  | shift target => exact fun production reduces => absurd (only _ reduces) nofun
  | accept => trivial
  | reduce production =>
      refine ⟨fun loses => ?_, fun other otherMember _ => ?_⟩
      · obtain ⟨shift, ⟨⟨item, itemMember, next, -⟩, -⟩, -⟩ := (contest?_eq_iff .shiftWins nofun).1 loses
        obtain ⟨target, shifted⟩ := fits.shifts.2 ⟨item, itemMember, next⟩
        exact absurd (only _ shifted) nofun
      · rw [Action.reduce.inj (only _ otherMember)]

/-- A member of a list is of the highest precedence if no other one has a higher precedence. -/
theorem max?_map_eq_some {α : Type} {precedence : α → Int} {values : List α} {value : α}
    (member : value ∈ values) : (values.map precedence).max? = some (precedence value) ↔
      ∀ other ∈ values, precedence other ≤ precedence value := by
  rw [List.max?_eq_some_iff, List.forall_mem_map]
  exact and_iff_right (List.mem_map_of_mem member)

theorem mem_shifts {keeps : Bool} {action : Action} :
    action ∈ (if keeps then (arrange actions).filter isShift else []) ↔
      keeps = true ∧ action ∈ actions ∧ isShift action = true := by
  cases keeps <;> simp [mem_arrange]

/-- The actions that withstand the others are kept. -/
theorem Fits.mem_resolve (fits : context.Fits items terminal actions) {action : Action} :
    action ∈ context.resolve items terminal actions ↔
      action ∈ actions ∧ context.Withstands items terminal actions action := by
  unfold resolve
  dsimp only
  split
  · next few =>
      rw [mem_arrange]
      exact ⟨fun member => ⟨member, fits.withstands_of_length_lt few member⟩, And.left⟩
  · rw [List.mem_append, List.mem_append, mem_shifts, List.mem_filter, mem_arrange, beq_iff_eq]
    cases action with
    | shift target =>
        simp only [Bool.and_eq_true, List.all_eq_true, mem_reductions, bne_iff_ne, isShift,
          reduceCtorEq, and_true, and_false, or_false, List.mem_map, exists_false]
        constructor
        · exact fun ⟨⟨_, withstands⟩, member⟩ => ⟨member, withstands⟩
        · intro ⟨member, withstands⟩
          exact ⟨⟨exists_shiftPrecedence.1 (fits.shifts.1 ⟨target, member⟩), withstands⟩, member⟩
    | accept => simp [isShift, Withstands]
    | reduce production =>
        have injective : Function.Injective Action.reduce := fun _ _ => Action.reduce.inj
        simp only [isShift, Bool.false_eq_true, reduceCtorEq, and_false, false_or]
        rw [List.mem_map_of_injective injective, List.mem_filter, beq_iff_eq, eq_comm]
        have kept : ∀ {other}, other ∈ ((arrange actions).filterMap reduction?).filter (fun other =>
            context.contest? (context.shiftPrecedence? items terminal) other != .shiftWins) ↔
              .reduce other ∈ actions ∧
                context.contest? (context.shiftPrecedence? items terminal) other ≠ .shiftWins := by
          intro other
          rw [List.mem_filter, mem_reductions, bne_iff_ne]
        rw [and_congr_right fun member => max?_map_eq_some member]
        simp only [kept, Withstands, and_assoc, and_imp]

/-- Whether some of the actions on a terminal are what precedence leaves of them. -/
structure IsResolution (context : Context) (items : List Item) (terminal : Symbol)
    (actions kept : List Action) : Prop where
  /-- Something is left. -/
  nonempty : kept ≠ []
  /-- Nothing is added. -/
  subset : ∀ action ∈ kept, action ∈ actions
  /-- Nothing is repeated. -/
  nodup : kept.Nodup
  /-- Shifts come first, then the acceptance, then reductions by ascending production. -/
  ascending : kept.Pairwise fun left right => order left < order right
  /-- The acceptance is not dropped. -/
  accept : .accept ∈ actions → .accept ∈ kept
  /-- All reductions that are left have one precedence. -/
  level : ∀ left right, .reduce left ∈ kept → .reduce right ∈ kept →
    (context.precedence left.index).1 = (context.precedence right.index).1
  /-- A shift is dropped because of a reduction of higher precedence than all items that shift, or
  of the same one if it groups to the left. -/
  shift : ∀ target, .shift target ∈ actions → .shift target ∉ kept →
    ∃ production highest, .reduce production ∈ actions ∧
      context.IsShiftPrecedence items terminal highest ∧
        (highest < (context.precedence production.index).1 ∨
          context.precedence production.index = (highest, some .left))
  /-- A reduction is dropped because the shift has a higher precedence or the same one and the
  reduction groups to the right, or because a reduction that is left has a higher precedence. -/
  reduce : ∀ production, .reduce production ∈ actions → .reduce production ∉ kept →
    (∃ highest, context.IsShiftPrecedence items terminal highest ∧
      ((context.precedence production.index).1 < highest ∨
        context.precedence production.index = (highest, some .right))) ∨
    ∃ other, .reduce other ∈ kept ∧
      (context.precedence production.index).1 < (context.precedence other.index).1
  /-- Nothing is dropped if all precedences are the same and no reduction groups to a side. -/
  neutral : ∀ precedence,
    (∀ item ∈ items, context.next? item = some terminal →
      (context.precedence item.production).1 = precedence) →
    (∀ production, .reduce production ∈ actions →
      context.precedence production.index = (precedence, none)) →
    ∀ action ∈ actions, action ∈ kept

theorem sublist_reductions (actions : List Action) :
    ((actions.filterMap reduction?).map Action.reduce).Sublist actions := by
  induction actions with
  | nil => exact .slnil
  | cons action rest induction =>
      cases action with
      | reduce production => exact induction.cons_cons _
      | shift target => exact induction.cons _
      | accept => exact induction.cons _

theorem order_lt_of_isShift {left right : Action} (shift : isShift left = true)
    (other : isShift right ≠ true) : order left < order right := by
  cases left <;> cases right <;> simp_all [isShift, order, Prod.Lex.toLex_lt_toLex]

/-- Of the reductions that do not lose to the shift one has the highest precedence. -/
theorem exists_highest {production : ProductionId} (reduces : .reduce production ∈ actions)
    (stays : context.contest? (context.shiftPrecedence? items terminal) production ≠ .shiftWins) :
    ∃ best, .reduce best ∈ actions ∧
      context.Withstands items terminal actions (.reduce best) ∧
        (context.precedence production.index).1 ≤ (context.precedence best.index).1 := by
  let kept := ((arrange actions).filterMap reduction?).filter fun other =>
    context.contest? (context.shiftPrecedence? items terminal) other != .shiftWins
  have mem_kept : ∀ {other}, other ∈ kept ↔ .reduce other ∈ actions ∧
      context.contest? (context.shiftPrecedence? items terminal) other ≠ .shiftWins := by
    intro other
    rw [List.mem_filter, mem_reductions, bne_iff_ne]
  have member : production ∈ kept.toFinset := List.mem_toFinset.2 (mem_kept.2 ⟨reduces, stays⟩)
  obtain ⟨best, bestMember, highest⟩ := Finset.exists_max_image kept.toFinset
    (fun other : ProductionId => (context.precedence other.index).1) ⟨production, member⟩
  obtain ⟨bestReduces, bestStays⟩ := mem_kept.1 (List.mem_toFinset.1 bestMember)
  refine ⟨best, bestReduces, ⟨bestStays, fun other otherReduces otherStays => ?_⟩,
    highest production member⟩
  exact highest other (List.mem_toFinset.2 (mem_kept.2 ⟨otherReduces, otherStays⟩))

namespace Fits

variable (fits : context.Fits items terminal actions)

include fits

/-- Something withstands all others. -/
theorem exists_withstands (nonempty : actions ≠ []) :
    ∃ action ∈ actions, context.Withstands items terminal actions action := by
  by_cases stays : ∃ production, .reduce production ∈ actions ∧
      context.contest? (context.shiftPrecedence? items terminal) production ≠ .shiftWins
  · obtain ⟨production, reduces, stays⟩ := stays
    obtain ⟨best, bestReduces, withstands, -⟩ := exists_highest reduces stays
    exact ⟨_, bestReduces, withstands⟩
  · -- all reductions lose to the shift, so there is one if there is a reduction
    have loses : ∀ production, .reduce production ∈ actions →
        context.contest? (context.shiftPrecedence? items terminal) production = .shiftWins :=
      fun production reduces => by_contra fun wins => stays ⟨production, reduces, wins⟩
    have shifts : ∀ target, context.Withstands items terminal actions (.shift target) :=
      fun target production reduces wins => nomatch (loses production reduces).symm.trans wins
    obtain ⟨action, member⟩ := List.exists_mem_of_ne_nil actions nonempty
    cases action with
    | shift target => exact ⟨_, member, shifts target⟩
    | accept => exact ⟨_, member, trivial⟩
    | reduce production =>
        obtain ⟨highest, ⟨⟨item, itemMember, next, -⟩, -⟩, -⟩ :=
          (contest?_eq_iff .shiftWins nofun).1 (loses production member)
        obtain ⟨target, shifted⟩ := fits.shifts.2 ⟨item, itemMember, next⟩
        exact ⟨_, shifted, shifts target⟩

/-- What is kept ascends. -/
theorem ascending_resolve :
    (context.resolve items terminal actions).Pairwise fun left right => order left < order right := by
  have ascending := ascending_arrange fits.once
  unfold resolve
  dsimp only
  split
  · exact ascending
  · refine List.pairwise_append.2 ⟨List.pairwise_append.2 ⟨?_, ?_, ?_⟩, ?_, ?_⟩
    · split
      · exact ascending.sublist List.filter_sublist
      · exact .nil
    · exact ascending.sublist List.filter_sublist
    · intro left leftMember right rightMember
      obtain rfl := beq_iff_eq.1 (List.mem_filter.1 rightMember).2
      exact order_lt_of_isShift (mem_shifts.1 leftMember).2.2 nofun
    · refine ascending.sublist (.trans (.map _ ?_) (sublist_reductions _))
      exact List.filter_sublist.trans List.filter_sublist
    · intro left leftMember right rightMember
      obtain ⟨production, -, rfl⟩ := List.mem_map.1 rightMember
      rcases List.mem_append.1 leftMember with shift | accept
      · exact order_lt_of_isShift (mem_shifts.1 shift).2.2 nofun
      · obtain rfl := beq_iff_eq.1 (List.mem_filter.1 accept).2
        exact Prod.Lex.toLex_lt_toLex.2 (.inl Nat.one_lt_two)

theorem isResolution (nonempty : actions ≠ []) :
    context.IsResolution items terminal actions (context.resolve items terminal actions) := by
  have ascending := fits.ascending_resolve
  constructor
  case nonempty =>
    obtain ⟨action, member, withstands⟩ := fits.exists_withstands nonempty
    exact List.ne_nil_of_mem (fits.mem_resolve.2 ⟨member, withstands⟩)
  case subset => exact fun action member => (fits.mem_resolve.1 member).1
  case nodup => exact ascending.imp fun less same => less.ne (congrArg order same)
  case ascending => exact ascending
  case accept => exact fun member => fits.mem_resolve.2 ⟨member, trivial⟩
  case level =>
    intro left right leftKept rightKept
    obtain ⟨leftReduces, leftStays, leftHighest⟩ := fits.mem_resolve.1 leftKept
    obtain ⟨rightReduces, rightStays, rightHighest⟩ := fits.mem_resolve.1 rightKept
    exact le_antisymm (rightHighest left leftReduces leftStays)
      (leftHighest right rightReduces rightStays)
  case shift =>
    intro target member dropped
    have loses : ¬ context.Withstands items terminal actions (.shift target) :=
      fun withstands => dropped (fits.mem_resolve.2 ⟨member, withstands⟩)
    simp only [Withstands, not_forall, not_not, exists_prop] at loses
    obtain ⟨production, reduces, wins⟩ := loses
    obtain ⟨highest, isHighest, outcome⟩ := (contest?_eq_iff .reductionWins nofun).1 wins
    exact ⟨production, highest, reduces, isHighest, contest_eq_reductionWins.1 outcome⟩
  case reduce =>
    intro production reduces dropped
    by_cases loses :
        context.contest? (context.shiftPrecedence? items terminal) production = .shiftWins
    · obtain ⟨highest, isHighest, outcome⟩ := (contest?_eq_iff .shiftWins nofun).1 loses
      exact .inl ⟨highest, isHighest, contest_eq_shiftWins.1 outcome⟩
    · obtain ⟨best, bestReduces, withstands, atLeast⟩ := exists_highest reduces loses
      refine .inr ⟨best, fits.mem_resolve.2 ⟨bestReduces, withstands⟩, ?_⟩
      refine atLeast.lt_of_ne fun same => dropped (fits.mem_resolve.2 ⟨reduces, loses, ?_⟩)
      exact fun other otherReduces stays => (withstands.2 other otherReduces stays).trans same.ge
  case neutral =>
    intro precedence items_ reductions action member
    have ties : ∀ production, .reduce production ∈ actions →
        context.contest? (context.shiftPrecedence? items terminal) production = .tie := by
      intro production reduces
      by_contra decided
      obtain ⟨highest, ⟨⟨item, itemMember, next, same⟩, -⟩, outcome⟩ :=
        (contest?_eq_iff _ decided).1 rfl
      rw [reductions production reduces, ← same, items_ item itemMember next] at outcome
      exact decided (outcome.symm.trans (by simp [contest]))
    refine fits.mem_resolve.2 ⟨member, ?_⟩
    cases action with
    | shift target => exact fun production reduces => by rw [ties production reduces]; nofun
    | accept => trivial
    | reduce production =>
        refine ⟨by rw [ties production member]; nofun, fun other reduces _ => ?_⟩
        rw [reductions production member, reductions other reduces]

end Fits

end Context

namespace Table

section actionsOn

variable {context : Context} {items : List (Item × Lookahead)} {edges : List (Symbol × Nat)}
  {terminal : Symbol}

theorem shift_mem_actionsOn {target : StateId} :
    .shift target ∈ actionsOn context items edges terminal ↔
      ∃ number, (terminal, number) ∈ edges ∧ target = .ofIndex number := by
  unfold actionsOn
  rw [List.mem_append]
  constructor
  · rintro (shift | reduction)
    · obtain ⟨⟨symbol, number⟩, edge, found⟩ := List.mem_filterMap.1 shift
      dsimp only at found
      split at found
      · next same =>
          cases found
          exact ⟨number, same ▸ edge, rfl⟩
      · cases found
    · obtain ⟨⟨item, lookahead⟩, -, found⟩ := List.mem_filterMap.1 reduction
      dsimp only at found
      split at found
      · split at found <;> cases found
      · split at found <;> cases found
  · rintro ⟨number, edge, rfl⟩
    exact .inl (List.mem_filterMap.2 ⟨(terminal, number), edge, if_pos rfl⟩)

/-- The actions that a state calls for hold a shift if and only if some item shifts the terminal. -/
theorem fits_actionsOn {plain : PlainGrammar} {kernels : Array (List Item)} {kernel : List Item}
    (links : Automaton.Links (Context.ofGrammar plain) kernels kernel edges)
    (closure : ∀ item, item ∈ items.map Prod.fst ↔ item ∈ (Context.ofGrammar plain).items kernel)
    {actions : List Action} (called : ∀ action, action ∈ actions ↔
      action ∈ actionsOn (Context.ofGrammar plain) items edges terminal) :
    (Context.ofGrammar plain).Fits (items.map Prod.fst) terminal actions := by
  constructor
  case once =>
    intro left right leftMember rightMember
    obtain ⟨first, firstEdge, rfl⟩ := shift_mem_actionsOn.1 ((called _).1 leftMember)
    obtain ⟨second, secondEdge, rfl⟩ := shift_mem_actionsOn.1 ((called _).1 rightMember)
    rw [links.target_inj firstEdge secondEdge]
  case shifts =>
    constructor
    · rintro ⟨target, member⟩
      obtain ⟨number, edge, -⟩ := shift_mem_actionsOn.1 ((called _).1 member)
      obtain ⟨next, -, advances⟩ := links.sound _ edge
      obtain ⟨item, itemMember⟩ := List.exists_mem_of_ne_nil next advances.nonempty
      obtain ⟨origin, originMember, calls, -⟩ := advances.source item itemMember
      exact ⟨origin, (closure origin).2 originMember, calls⟩
    · rintro ⟨item, member, next⟩
      obtain ⟨target, edge⟩ := links.complete item ((closure item).1 member) terminal next
      exact ⟨_, (called _).2 (shift_mem_actionsOn.2 ⟨target, edge, rfl⟩)⟩

end actionsOn

/-- The conflicts of a state with the given closure and transitions. -/
def conflictsOf (context : Context) (items : List (Item × Lookahead))
    (transitions : List (Symbol × Nat)) (state : StateId) : List Conflict :=
  (cells context items transitions).filterMap fun (terminal, actions) =>
    if 1 < actions.length then
      some (context.conflict state (items.map Prod.fst) terminal actions)
    else none

/-- The conflicts of a table are those of its states, one state after the other. -/
theorem conflicts_ofAutomaton (context : Context) (automaton : Automaton)
    (lookaheads : KernelLookaheads) :
    (ofAutomaton context automaton lookaheads).conflicts =
      automaton.kernels.toList.zipIdx.flatMap fun entry =>
        conflictsOf context (context.closureItems (seeds lookaheads entry))
          ((automaton.transitions[entry.2]?).getD []) (.ofIndex entry.2) := by
  have all : ∀ (entries : List (List Item × Nat)) (table : Table),
      (entries.foldl (fun (table : Table) (entry : List Item × Nat) =>
        addState context table entry.2 (context.closureItems (seeds lookaheads entry))
          ((automaton.transitions[entry.2]?).getD [])) table).conflicts.reverse =
        table.conflicts.reverse ++ entries.flatMap fun entry =>
          conflictsOf context (context.closureItems (seeds lookaheads entry))
            ((automaton.transitions[entry.2]?).getD []) (.ofIndex entry.2) := by
    intro entries
    induction entries with
    | nil => exact fun table => (List.append_nil _).symm
    | cons entry rest induction =>
        intro table
        rw [List.foldl_cons, induction, addState]
        simp only [List.reverse_append, List.reverse_reverse, List.flatMap_cons, List.append_assoc]
        rfl
  exact all _ ⟨[], [], []⟩

theorem mem_cells_iff {context : Context} {items : List (Item × Lookahead)}
    {edges : List (Symbol × Nat)} {terminal : Symbol} {kept : List Action} :
    (terminal, kept) ∈ cells context items edges ↔
      context.grammar.isTerminal terminal = true ∧ actionsOn context items edges terminal ≠ [] ∧
        kept = context.resolve (items.map Prod.fst) terminal
          (actionsOn context items edges terminal) := by
  rw [cells, List.mem_filterMap, PlainGrammar.isTerminal, decide_eq_true_eq]
  constructor
  · rintro ⟨number, inside, found⟩
    dsimp only at found
    split at found
    · cases found
    · next some =>
        obtain ⟨rfl, rfl⟩ := Prod.mk.inj (Option.some.inj found)
        exact ⟨(Nat.mod_le _ _).trans_lt (List.mem_range.1 inside), some, rfl⟩
  · rintro ⟨inside, some, rfl⟩
    have same : Symbol.ofIndex terminal.index = terminal :=
      Symbol.index_inj (Symbol.index_ofIndex terminal.index_lt)
    refine ⟨terminal.index, List.mem_range.2 inside, ?_⟩
    dsimp only
    rw [same]
    split
    · next none => exact absurd none some
    · rfl

end Table

/-- Whether, for the items and transitions of a state, resolution is right for every list that holds
just the actions called for on a terminal, and whether it is the same for all these lists. -/
def Context.ResolvesAll (context : Context) (items : List (Item × Lookahead))
    (edges : List (Symbol × Nat)) : Prop :=
  ∀ terminal actions, actions ≠ [] →
    (∀ action, action ∈ actions ↔ action ∈ Table.actionsOn context items edges terminal) →
      context.IsResolution (items.map Prod.fst) terminal actions
          (context.resolve (items.map Prod.fst) terminal actions) ∧
        ∀ others : List Action, (∀ action, action ∈ others ↔ action ∈ actions) →
          context.resolve (items.map Prod.fst) terminal others =
            context.resolve (items.map Prod.fst) terminal actions

/-- Whether a table has a cell with what resolution leaves for every terminal on which the items and
transitions of a state call for an action, and reports the cells with several actions. -/
structure Table.IsResolved (context : Context)
    (sources : List (List (Item × Lookahead) × List (Symbol × Nat))) (table : Table) : Prop where
  /-- The cells of each state. -/
  cells : List.Forall₂ (fun source (state : StateData) =>
      ∀ terminal kept, (terminal, kept) ∈ state.actions ↔
        context.grammar.isTerminal terminal = true ∧
          actionsOn context source.1 source.2 terminal ≠ [] ∧
            kept = context.resolve (source.1.map Prod.fst) terminal
              (actionsOn context source.1 source.2 terminal))
    sources table.states
  /-- The conflicts. -/
  conflicts : table.conflicts.map (fun conflict =>
      (conflict.state, conflict.lookahead, conflict.actions)) =
    table.states.zipIdx.flatMap fun (state, index) =>
      (state.actions.filter fun cell => 2 ≤ cell.2.length).map fun cell =>
        (.ofIndex index, context.grammar.symbolName cell.1, cell.2.map context.describeAction)

namespace Table

variable {context : Context} {automaton : Automaton} {lookaheads : KernelLookaheads}

/-- The items and the transitions of each state of an automaton. -/
def sources (context : Context) (automaton : Automaton) (lookaheads : KernelLookaheads) :
    List (List (Item × Lookahead) × List (Symbol × Nat)) :=
  automaton.kernels.toList.zipIdx.map fun entry =>
    (context.closureItems (seeds lookaheads entry), (automaton.transitions[entry.2]?).getD [])

/-- The cells of the states of a table are those of the states of the automaton. -/
theorem actions_ofAutomaton :
    (ofAutomaton context automaton lookaheads).states.map StateData.actions =
      (sources context automaton lookaheads).map fun source => cells context source.1 source.2 := by
  have both := congrArg (List.map Prod.fst) (states_ofAutomaton context automaton lookaheads)
  rw [List.map_map, List.map_map] at both
  rw [sources, List.map_map]
  exact both

/-- The conflicts of a state in words are its cells with several actions. -/
theorem map_conflictsOf (items : List (Item × Lookahead)) (edges : List (Symbol × Nat))
    (state : StateId) :
    (conflictsOf context items edges state).map (fun conflict =>
        (conflict.state, conflict.lookahead, conflict.actions)) =
      ((cells context items edges).filter fun cell => 2 ≤ cell.2.length).map
        fun cell => (state, context.grammar.symbolName cell.1,
          cell.2.map context.describeAction) := by
  unfold conflictsOf
  induction cells context items edges with
  | nil => rfl
  | cons cell rest induction =>
      rw [List.filterMap_cons, List.filter_cons]
      by_cases several : 1 < cell.2.length
      · simp only [several, if_true, List.map_cons, induction, Nat.succ_le_iff, decide_true]
        rfl
      · simp only [several, if_false, induction, Nat.succ_le_iff, decide_false, Bool.false_eq_true]

theorem zipIdx_zipIdx {α : Type} (values : List α) (first : Nat) :
    (values.zipIdx first).zipIdx first = (values.zipIdx first).map fun entry => (entry, entry.2) := by
  induction values generalizing first with
  | nil => rfl
  | cons value rest induction => simp [List.zipIdx_cons, induction]

theorem isResolved_ofAutomaton : (ofAutomaton context automaton lookaheads).IsResolved context
    (sources context automaton lookaheads) := by
  have actions := @actions_ofAutomaton context automaton lookaheads
  have reported := conflicts_ofAutomaton context automaton lookaheads
  generalize ofAutomaton context automaton lookaheads = table at actions reported
  constructor
  case cells =>
    have same : List.Forall₂ (· = ·) ((sources context automaton lookaheads).map fun source =>
        cells context source.1 source.2) (table.states.map StateData.actions) :=
      actions ▸ List.forall₂_refl _
    rw [List.forall₂_map_left_iff, List.forall₂_map_right_iff] at same
    refine same.imp fun source state equal terminal kept => ?_
    rw [← equal, mem_cells_iff]
  case conflicts =>
    calc
      _ = automaton.kernels.toList.zipIdx.flatMap fun entry =>
            ((cells context (context.closureItems (seeds lookaheads entry))
              ((automaton.transitions[entry.2]?).getD [])).filter fun cell =>
                2 ≤ cell.2.length).map fun cell => (StateId.ofIndex entry.2,
                  context.grammar.symbolName cell.1, cell.2.map context.describeAction) := by
        rw [reported, List.map_flatMap]
        exact congrArg (List.flatMap · _) (funext fun entry => map_conflictsOf _ _ _)
      _ = (table.states.map StateData.actions).zipIdx.flatMap fun (actions, index) =>
            (actions.filter fun cell => 2 ≤ cell.2.length).map fun cell =>
              (StateId.ofIndex index, context.grammar.symbolName cell.1,
                cell.2.map context.describeAction) := by
        rw [actions, sources, List.map_map, List.zipIdx_map, zipIdx_zipIdx, List.map_map,
          List.flatMap_map]
        rfl
      _ = _ := by
        rw [List.zipIdx_map, List.flatMap_map]
        rfl

/-- Resolution is right for all states of a grammar's automaton.  If there is a table, it holds what
resolution leaves, and its conflicts are the cells that are left with several actions. -/
theorem resolution_safe (plain : PlainGrammar) :
    let context := Context.ofGrammar plain
    let automaton := Automaton.ofContext context
    let states := sources context automaton (.ofAutomaton context automaton)
    (∀ state ∈ states, context.ResolvesAll state.1 state.2) ∧
      ∀ table, ofGrammar plain = .ok table → table.IsResolved context states := by
  intro context automaton states
  refine ⟨fun state member terminal actions nonempty called => ?_, fun table made => ?_⟩
  · obtain ⟨⟨kernel, index⟩, listed, rfl⟩ := List.mem_map.1 member
    have complete : automaton.Complete context := Automaton.complete_ofGrammar plain
    have found : automaton.kernels[index]? = some kernel := by
      rw [← Array.getElem?_toList]
      exact List.mem_zipIdx_iff_getElem?.1 listed
    obtain ⟨edges, edgesFound, links⟩ := complete.exists_links found
    dsimp only at called ⊢
    rw [edgesFound, Option.getD_some] at called
    have fits := fits_actionsOn links (fun item => by
      rw [Context.mem_items_of_closureItems, map_fst_seeds]) called
    refine ⟨fits.isResolution nonempty, fun others same => ?_⟩
    rw [Context.resolve, Context.resolve, Context.arrange_congr fits.once same]
  · rw [(ofGrammar_eq_ok made).2]
    exact isResolved_ofAutomaton

end Table

end Lalr

/-- Sums that group to the left, with a higher precedence than differences, for which nothing is
said. -/
def Description.sums : Description :=
  ⟨"sums", [("s", .choice [
      .precedence (.static (some .left)) 1 (.seq [.symbol "s", .string "+", .symbol "s"]),
      .seq [.symbol "s", .string "-", .symbol "s"], .string "n"])], [], [], []⟩

/-- After a sum the reduction wins against the shift of another `+`.  After a difference on `-`
both are left. -/
theorem Lalr.Table.resolution_safe_sums :
    ∃ plain table, Description.sums.toPlain = .ok plain ∧ ofGrammar plain = .ok table ∧
      let context := Context.ofGrammar plain
      let automaton := Automaton.ofContext context
      let states := sources context automaton (.ofAutomaton context automaton)
      (∃ state ∈ states, context.resolve (state.1.map Prod.fst) ⟨1⟩ [.reduce ⟨0⟩, .shift ⟨3⟩] =
          [.reduce ⟨0⟩] ∧ context.IsResolution (state.1.map Prod.fst) ⟨1⟩
            [.reduce ⟨0⟩, .shift ⟨3⟩] [.reduce ⟨0⟩]) ∧
        table.IsResolved context states ∧
          table.conflicts.map Conflict.describe =
            ["state 6, on `-`: shift / reduce s -> s - s"] := by
  have computed : (Description.sums.toPlain.toOption.any fun plain =>
      let context := Context.ofGrammar plain
      let automaton := Automaton.ofContext context
      let states := sources context automaton (.ofAutomaton context automaton)
      (states[5]?.map fun state => (actionsOn context state.1 state.2 ⟨1⟩,
          context.resolve (state.1.map Prod.fst) ⟨1⟩ [.reduce ⟨0⟩, .shift ⟨3⟩])) =
        some ([.shift ⟨3⟩, .reduce ⟨0⟩], [.reduce ⟨0⟩]) ∧
      (ofGrammar plain).toOption.map (fun table => table.conflicts.map Conflict.describe) =
        some ["state 6, on `-`: shift / reduce s -> s - s"]) = true := by
    decide +kernel
  obtain ⟨plain, lowered, facts⟩ := Except.exists_of_any computed
  simp only [decide_eq_true_eq] at facts
  obtain ⟨fifth, conflicts⟩ := facts
  obtain ⟨state, found, both⟩ := Option.map_eq_some_iff.1 fifth
  obtain ⟨called, resolved⟩ := Prod.mk.inj both
  have member := List.mem_of_getElem? found
  obtain ⟨right, resolves⟩ := resolution_safe plain
  obtain ⟨resolution, -⟩ := right state member ⟨1⟩ [.reduce ⟨0⟩, .shift ⟨3⟩] (by simp)
    fun action => by rw [called]; simp [or_comm]
  rw [resolved] at resolution
  cases made : ofGrammar plain with
  | error error =>
      rw [made] at conflicts
      cases conflicts
  | ok table =>
      rw [made] at conflicts
      exact ⟨plain, table, lowered, made, ⟨state, member, resolved, resolution⟩,
        resolves table made, Option.some.inj conflicts⟩

end IncrementalGlr
