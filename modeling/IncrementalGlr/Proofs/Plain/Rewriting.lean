import IncrementalGlr.Proofs.Plain.Expansion

/-!
# What the expansion of a rule adds

Expanding an expression only adds productions of helpers that are new, so what earlier symbols may
be replaced by stays as it is.
-/

namespace IncrementalGlr

namespace Alternative

section Views

variable {γ : Type} (view : Alternative → γ) (join : γ → γ → γ)
  (each : ∀ left right : Alternative, view (left.append right) = join (view left) (view right))

include each

/-- What is put behind an alternative is put behind a view of it. -/
theorem map_append (left : Alternative) (right : List Alternative) :
    (right.map left.append).map view = (right.map view).map (join (view left)) := by
  simp [each]

theorem map_product (left right : List Alternative) :
    (product left right).map view =
      (left.map view).flatMap fun first => (right.map view).map (join first) := by
  rw [product, List.map_flatMap, List.flatMap_map]
  exact List.flatMap_congr fun first _ => map_append view join each first right

end Views

/-- The symbols of several alternatives. -/
def forms (alternatives : List Alternative) : List (List Symbol) := alternatives.map symbols

theorem forms_append (left right : List Alternative) :
    forms (left ++ right) = forms left ++ forms right := List.map_append

theorem forms_map_append (left : Alternative) (right : List Alternative) :
    forms (right.map left.append) = (forms right).map (left.symbols ++ ·) :=
  map_append symbols (· ++ ·) (fun _ _ => rfl) left right

theorem forms_product (left right : List Alternative) :
    forms (product left right) =
      (forms left).flatMap fun first => (forms right).map (first ++ ·) :=
  map_product symbols (· ++ ·) (fun _ _ => rfl) left right

theorem forms_addDynamic (value : Int) (alternatives : List Alternative) :
    forms (alternatives.map (addDynamic value)) = forms alternatives := List.map_map

theorem forms_withPrecedence (value : Int) (associativity : Option Associativity)
    (alternatives : List Alternative) :
    forms (alternatives.map (withPrecedence value associativity)) = forms alternatives :=
  List.map_map

end Alternative

namespace Expansion

/-- Whether some production replaces a symbol by the given ones. -/
def Rewrites (expansion : Expansion) (symbol : Symbol) (rhs : List Symbol) : Prop :=
  ∃ production ∈ expansion.productions, production.lhs = symbol ∧ production.rhs = rhs

/-- Whether only symbols that exist are replaced. -/
def Closed (expansion : Expansion) : Prop :=
  ∀ symbol rhs, expansion.Rewrites symbol rhs → symbol.index < expansion.symbols.size

/-- Whether an expansion goes on from another one without a change to the symbols that exist. -/
structure Extends (before after : Expansion) : Prop where
  /-- No symbols are lost. -/
  size : before.symbols.size ≤ after.symbols.size
  /-- The symbols that exist are replaced as before. -/
  same : ∀ symbol rhs, symbol.index < before.symbols.size →
    (after.Rewrites symbol rhs ↔ before.Rewrites symbol rhs)
  /-- Only symbols that exist are replaced. -/
  closed : before.Closed → after.Closed

theorem Extends.refl (expansion : Expansion) : expansion.Extends expansion :=
  ⟨Nat.le_refl _, fun _ _ _ => Iff.rfl, id⟩

theorem Extends.trans {first second third : Expansion} (left : first.Extends second)
    (right : second.Extends third) : first.Extends third :=
  ⟨Nat.le_trans left.size right.size,
    fun symbol rhs inside => (right.same symbol rhs (Nat.lt_of_lt_of_le inside left.size)).trans
      (left.same symbol rhs inside),
    fun closed => right.closed (left.closed closed)⟩

theorem rewrites_addProductions {expansion : Expansion} {lhs symbol : Symbol}
    {alternatives : List Alternative} {rhs : List Symbol} :
    (expansion.addProductions lhs alternatives).Rewrites symbol rhs ↔
      expansion.Rewrites symbol rhs ∨ (symbol = lhs ∧ rhs ∈ Alternative.forms alternatives) := by
  simp only [Rewrites, mem_addProductions, or_and_right, exists_or]
  refine or_congr_right ⟨?_, ?_⟩
  · rintro ⟨_, ⟨alternative, listed, rfl⟩, rfl, rfl⟩
    exact ⟨rfl, List.mem_map_of_mem listed⟩
  · rintro ⟨rfl, listed⟩
    obtain ⟨alternative, member, rfl⟩ := List.mem_map.1 listed
    exact ⟨_, ⟨alternative, member, rfl⟩, rfl, rfl⟩

/-- The productions of a helper replace it by what its content may be, after the helper itself or
alone. -/
theorem addRepetition_eq_ok {helper : Symbol} {alternatives : List Alternative}
    {before after : Expansion} (made : addRepetition helper alternatives before = (.ok (), after)) :
    after.symbols = before.symbols ∧ ∀ symbol rhs, after.Rewrites symbol rhs ↔
      before.Rewrites symbol rhs ∨
        (symbol = helper ∧ ∃ form ∈ Alternative.forms alternatives,
          rhs = helper :: form ∨ rhs = form) := by
  cases made
  refine ⟨by rw [symbols_addProductions, symbols_addProductions], fun symbol rhs => ?_⟩
  rw [rewrites_addProductions, rewrites_addProductions, Alternative.forms_map_append, or_assoc,
    ← and_or_left]
  refine or_congr_right (and_congr_right fun _ => ?_)
  simp only [List.mem_map, exists_or, and_or_left]
  constructor
  · rintro (⟨form, member, rfl⟩ | member)
    · exact .inl ⟨form, member, rfl⟩
    · exact .inr ⟨rhs, member, rfl⟩
  · rintro (⟨form, member, rfl⟩ | ⟨form, member, rfl⟩)
    · exact .inl ⟨form, member, rfl⟩
    · exact .inr member

/-- What is noted does not change what symbols are replaced by. -/
theorem extends_note {overflow : Bool} {before after : Expansion}
    (noted : note overflow before = (.ok (), after)) : before.Extends after := by
  cases noted
  exact ⟨Nat.le_refl _, fun _ _ _ => Iff.rfl, id⟩

/-- Whether a step only adds productions of new symbols, as long as the symbols fit their ids. -/
def Extending {α : Type} (step : Step α) : Prop :=
  ∀ before value after, step before = (.ok value, after) → after.symbols.size ≤ 65535 →
    before.Extends after

section Combinators

variable {α β : Type}

theorem extending_pure (value : α) : Extending (pure value) := by
  rintro before _ _ ⟨⟩ -
  exact .refl before

theorem extending_lift (outcome : Except CompileError α) : Extending (liftM outcome) := by
  rintro before _ _ ⟨⟩ -
  exact .refl before

theorem Extending.bind {first : Step α} {next : α → Step β} (firstExtends : Extending first)
    (nextGrows : ∀ value, Grows (next value)) (nextExtends : ∀ value, Extending (next value)) :
    Extending (first >>= next) := by
  intro before value after succeeded small
  obtain ⟨middle, between, here, there⟩ := bind_eq_ok.1 succeeded
  have grown := nextGrows middle between value after there
  exact (firstExtends before middle between here (Nat.le_trans grown small)).trans
    (nextExtends middle between value after there small)

end Combinators

/-- The new helper of a repetition, and what its content adds. -/
theorem repetition_eq_ok {owner : String} {content : Step (List Alternative)}
    {result : Symbol → List Alternative} {before after : Expansion} {results : List Alternative}
    (made : (do
      let helper ← addHelper owner
      let alternatives ← content
      addRepetition helper alternatives
      return result helper : Step (List Alternative)) before = (.ok results, after)) :
    ∃ helper start middle alternatives,
      addHelper owner before = (.ok helper, start) ∧
      content start = (.ok alternatives, middle) ∧
      addRepetition helper alternatives middle = (.ok (), after) ∧ results = result helper := by
  obtain ⟨helper, start, added, rest⟩ := bind_eq_ok.1 made
  obtain ⟨alternatives, middle, expanded, rest⟩ := bind_eq_ok.1 rest
  obtain ⟨⟨⟩, last, repeated, rest⟩ := bind_eq_ok.1 rest
  cases rest
  exact ⟨helper, start, middle, alternatives, added, expanded, repeated, rfl⟩

/-- The helper that is added is the next symbol. -/
theorem addHelper_eq_ok {owner : String} {before start : Expansion} {helper : Symbol}
    (made : addHelper owner before = (.ok helper, start)) :
    helper = .ofIndex before.symbols.size ∧ start.symbols.size = before.symbols.size + 1 ∧
      start.productions = before.productions := by
  cases made
  exact ⟨rfl, Array.size_push _, rfl⟩

theorem extends_repetition {owner : String} {helper : Symbol} {alternatives : List Alternative}
    {before start middle after : Expansion} (added : addHelper owner before = (.ok helper, start))
    (extends_ : start.Extends middle)
    (repeated : addRepetition helper alternatives middle = (.ok (), after))
    (small : after.symbols.size ≤ 65535) : before.Extends after := by
  obtain ⟨rfl, size, productions⟩ := addHelper_eq_ok added
  obtain ⟨symbols, rewrites⟩ := addRepetition_eq_ok repeated
  have larger := extends_.size
  rw [symbols] at small
  have place : (Symbol.ofIndex before.symbols.size).index = before.symbols.size :=
    Symbol.index_ofIndex (by omega)
  have startRewrites : ∀ symbol rhs, start.Rewrites symbol rhs ↔ before.Rewrites symbol rhs :=
    fun symbol rhs => by rw [Rewrites, Rewrites, productions]
  refine ⟨by rw [symbols]; omega, fun symbol rhs inside => ?_, fun closed symbol rhs => ?_⟩
  · rw [rewrites, extends_.same symbol rhs (by omega), startRewrites]
    refine or_iff_left fun ⟨same, _⟩ => ?_
    rw [same, place] at inside
    exact Nat.lt_irrefl _ inside
  · rw [rewrites, symbols]
    rintro (held | ⟨rfl, -⟩)
    · refine extends_.closed (fun other form found => ?_) symbol rhs held
      have inside := closed other form ((startRewrites other form).1 found)
      omega
    · rw [place]
      omega

theorem extending_compositional :
    Compositional fun {α} (step : Step α) => Grows step ∧ Extending step where
  pure value := ⟨grows_pure value, extending_pure value⟩
  bind first next := ⟨first.1.bind fun value => (next value).1,
    first.2.bind (fun value => (next value).1) fun value => (next value).2⟩
  terminal _ _ _ := ⟨grows_lift _, extending_lift _⟩
  undefined _ _ := ⟨grows_lift (.error _), extending_lift (.error _)⟩
  note overflow := ⟨grows_note overflow, fun _ _ _ noted _ => extends_note noted⟩
  repetition owner result content holds := by
    refine ⟨grows_compositional.repetition owner result holds.1, ?_⟩
    intro before results after made small
    obtain ⟨helper, start, middle, alternatives, added, expanded, repeated, -⟩ :=
      repetition_eq_ok made
    have symbols := (addRepetition_eq_ok repeated).1
    exact extends_repetition added
      (holds.2 start alternatives middle expanded (symbols ▸ small)) repeated small

theorem extending_expand (scope : Scope) (owner : String) (rule : Rule) :
    Extending (expand scope owner rule) :=
  (extending_compositional.expand scope owner rule).2

theorem extending_expandSeq (scope : Scope) (owner : String) (before : List Alternative)
    (rules : List Rule) : Extending (expandSeq scope owner before rules) :=
  (extending_compositional.expandSeq scope owner before rules).2

theorem extending_expandChoice (scope : Scope) (owner : String) (rules : List Rule) :
    Extending (expandChoice scope owner rules) :=
  (extending_compositional.expandChoice scope owner rules).2

/-- What becomes of the rule of a nonterminal in the course of an expansion: its alternatives are
the right sides of the nonterminal, and helpers of its repetitions stay as they were made. -/
structure Lowered (scope : Scope) (before after : Expansion) (entry : Symbol × String × Rule) where
  /-- The expansion before the rule. -/
  start : Expansion
  /-- The expansion after the rule. -/
  stop : Expansion
  /-- The alternatives of the rule. -/
  alternatives : List Alternative
  /-- The rule is expanded. -/
  expanded : expand scope entry.2.1 entry.2.2 start = (.ok alternatives, stop)
  /-- Only symbols that exist are replaced. -/
  closed : start.Closed
  /-- The helpers come after all symbols of the first expansion. -/
  later : before.symbols.size ≤ start.symbols.size
  /-- The helpers fit their ids. -/
  room : stop.symbols.size ≤ after.symbols.size
  /-- The helpers stay as they are. -/
  helpers : ∀ symbol rhs, start.symbols.size ≤ symbol.index → symbol.index < stop.symbols.size →
    (after.Rewrites symbol rhs ↔ stop.Rewrites symbol rhs)
  /-- The right sides of the nonterminal. -/
  sides : ∀ rhs, after.Rewrites entry.1 rhs ↔ rhs ∈ Alternative.forms alternatives

section Rules

variable {scope : Scope} {entry : Symbol × String × Rule} {entries : List (Symbol × String × Rule)}
  {before between after : Expansion}

/-- Expanding the rule of a nonterminal that has no productions yet only adds productions of it and
of new helpers. -/
theorem expandRule_eq_ok (made : expandRule scope entry before = (.ok (), after))
    (small : after.symbols.size ≤ 65535) (closed : before.Closed)
    (exist : entry.1.index < before.symbols.size)
    (undefined : ∀ rhs, ¬ before.Rewrites entry.1 rhs) :
    before.symbols.size ≤ after.symbols.size ∧ after.Closed ∧
      (∀ symbol rhs, symbol.index < before.symbols.size → symbol ≠ entry.1 →
        (after.Rewrites symbol rhs ↔ before.Rewrites symbol rhs)) ∧
      Nonempty (Lowered scope before after entry) := by
  obtain ⟨alternatives, stop, expanded, ⟨⟩⟩ := bind_eq_ok.1 made
  have symbols := symbols_addProductions stop entry.1 alternatives
  rw [symbols] at small
  have extends_ := extending_expand scope entry.2.1 entry.2.2 before alternatives stop expanded small
  have others : ∀ symbol rhs, symbol ≠ entry.1 →
      ((stop.addProductions entry.1 alternatives).Rewrites symbol rhs ↔
        stop.Rewrites symbol rhs) := fun symbol rhs different =>
    rewrites_addProductions.trans (or_iff_left fun same => different same.1)
  have room : stop.symbols.size ≤ (stop.addProductions entry.1 alternatives).symbols.size :=
    Nat.le_of_eq (congrArg Array.size symbols).symm
  refine ⟨Nat.le_trans extends_.size room, fun symbol rhs held => ?_,
    fun symbol rhs inside different => ?_,
    ⟨⟨before, stop, alternatives, expanded, closed, Nat.le_refl _, room,
      fun symbol rhs new _ => others symbol rhs ?_, fun rhs => ?_⟩⟩⟩
  · rw [symbols]
    rcases rewrites_addProductions.1 held with found | ⟨rfl, -⟩
    · exact extends_.closed closed symbol rhs found
    · exact Nat.lt_of_lt_of_le exist extends_.size
  · exact (others symbol rhs different).trans (extends_.same symbol rhs inside)
  · rintro rfl
    exact Nat.not_lt.2 new exist
  · rw [rewrites_addProductions, extends_.same _ rhs exist]
    exact (or_iff_right (undefined rhs)).trans (and_iff_right rfl)

/-- What becomes of a rule is what becomes of it in a longer expansion, if of the symbols that exist
only others get productions. -/
theorem Lowered.goesOn (lowered : Lowered scope before between entry) {others : List Symbol}
    (size : between.symbols.size ≤ after.symbols.size)
    (exist : entry.1.index < between.symbols.size) (fresh : entry.1 ∉ others)
    (old : ∀ symbol ∈ others, symbol.index < before.symbols.size)
    (same : ∀ symbol rhs, symbol.index < between.symbols.size → symbol ∉ others →
      (after.Rewrites symbol rhs ↔ between.Rewrites symbol rhs)) :
    Nonempty (Lowered scope before after entry) := by
  refine ⟨{ lowered with
    room := Nat.le_trans lowered.room size
    helpers := fun symbol rhs new bound => ?_
    sides := fun rhs => (same entry.1 rhs exist fresh).trans (lowered.sides rhs) }⟩
  have absent : symbol ∉ others := fun listed =>
    Nat.not_lt.2 (Nat.le_trans lowered.later new) (old symbol listed)
  exact (same symbol rhs (Nat.lt_of_lt_of_le bound lowered.room) absent).trans
    (lowered.helpers symbol rhs new bound)

/-- Expanding the rules of several nonterminals only adds productions of them and of new helpers. -/
theorem expandRules_eq_ok (made : entries.forM (expandRule scope) before = (.ok (), after))
    (small : after.symbols.size ≤ 65535) (closed : before.Closed)
    (exist : ∀ entry ∈ entries, entry.1.index < before.symbols.size)
    (undefined : ∀ entry ∈ entries, ∀ rhs, ¬ before.Rewrites entry.1 rhs)
    (distinct : (entries.map Prod.fst).Nodup) :
    before.symbols.size ≤ after.symbols.size ∧ after.Closed ∧
      (∀ symbol rhs, symbol.index < before.symbols.size → symbol ∉ entries.map Prod.fst →
        (after.Rewrites symbol rhs ↔ before.Rewrites symbol rhs)) ∧
      ∀ entry ∈ entries, Nonempty (Lowered scope before after entry) := by
  induction entries generalizing before with
  | nil =>
      cases made
      exact ⟨Nat.le_refl _, closed, fun _ _ _ _ => Iff.rfl, nofun⟩
  | cons entry rest induction =>
      obtain ⟨⟨⟩, between, here, there⟩ := bind_eq_ok.1 made
      have grown := grows_compositional.expandRules scope rest grows_addProductions _ _ _ there
      obtain ⟨fresh, restDistinct⟩ := List.nodup_cons.1 distinct
      obtain ⟨entryExists, restExist⟩ := List.forall_mem_cons.1 exist
      obtain ⟨entryUndefined, restUndefined⟩ := List.forall_mem_cons.1 undefined
      obtain ⟨larger, betweenClosed, others, ⟨first⟩⟩ :=
        expandRule_eq_ok here (Nat.le_trans grown small) closed entryExists entryUndefined
      have different : ∀ other ∈ rest, other.1 ≠ entry.1 := fun other member equal =>
        fresh (equal ▸ List.mem_map_of_mem member)
      have stillUndefined : ∀ other ∈ rest, ∀ rhs, ¬ between.Rewrites other.1 rhs := by
        intro other member rhs
        rw [others other.1 rhs (restExist other member) (different other member)]
        exact restUndefined other member rhs
      obtain ⟨size, afterClosed, same, lowered⟩ := induction there betweenClosed
        (fun other member => Nat.lt_of_lt_of_le (restExist other member) larger) stillUndefined
        restDistinct
      refine ⟨Nat.le_trans larger size, afterClosed, fun symbol rhs inside absent => ?_,
        List.forall_mem_cons.2 ⟨?_, fun other member => ?_⟩⟩
      · obtain ⟨apart, absent⟩ := not_or.1 (List.mem_cons.not.1 absent)
        exact (same symbol rhs (Nat.lt_of_lt_of_le inside larger) absent).trans
          (others symbol rhs inside apart)
      · exact first.goesOn size (Nat.lt_of_lt_of_le entryExists larger) fresh
          (List.forall_mem_map.2 restExist) same
      · obtain ⟨found⟩ := lowered other member
        exact ⟨{ found with later := Nat.le_trans larger found.later }⟩

end Rules

end Expansion

end IncrementalGlr
