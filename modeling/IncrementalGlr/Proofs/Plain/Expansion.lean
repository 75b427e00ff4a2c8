import IncrementalGlr.PlainGrammar.Expansion
import IncrementalGlr.Proofs.Plain.Terminals
import IncrementalGlr.Proofs.Table.Lookup

/-!
# The symbols of expanded rules

The expansion of rules only ever adds nonterminals, and every symbol on the right of a production is
one of the symbols but the end of the input, as long as the symbols fit their ids.
-/

namespace IncrementalGlr

/-! ## The steps of an expansion

A property of steps that passes from the parts of a step to the whole holds of the expansion of every
rule, if it holds of the few steps that all expansions are made of. -/

namespace Expansion

/-- Whether a property of steps passes from parts to wholes and holds of the steps that all
expansions are made of. -/
structure Compositional (holds : ∀ {α : Type}, Step α → Prop) : Prop where
  /-- It holds of steps that do nothing. -/
  pure {α : Type} (value : α) : holds (pure value)
  /-- It passes to two steps in a row. -/
  bind {α β : Type} {first : Step α} {next : α → Step β} :
    holds first → (∀ value, holds (next value)) → holds (first >>= next)
  /-- A token is looked up. -/
  terminal (scope : Scope) (owner : String) (rule : Rule) :
    holds (liftM (scope.terminal owner rule) : Step Symbol)
  /-- A name is refused. -/
  undefined (name owner : String) :
    holds (throw (.undefinedSymbol name owner) : Step (List Alternative))
  /-- An overflow is noted. -/
  note (overflow : Bool) : holds (note overflow)
  /-- It passes from the content of a repetition to the repetition. -/
  repetition (owner : String) (result : Symbol → List Alternative)
    {content : Step (List Alternative)} : holds content →
      holds (do
        let helper ← addHelper owner
        let alternatives ← content
        addRepetition helper alternatives
        return result helper)

namespace Compositional

variable {holds : ∀ {α : Type}, Step α → Prop}

theorem single (laws : Compositional @holds) (scope : Scope) (owner : String) (rule : Rule) :
    holds (do return [Alternative.single (← scope.terminal owner rule)]) :=
  laws.bind (laws.terminal scope owner rule) fun _ => laws.pure _

mutual

/-- A compositional property holds of the expansion of every rule. -/
theorem expand (laws : Compositional @holds) (scope : Scope) (owner : String) (rule : Rule) :
    holds (Expansion.expand scope owner rule) := by
  cases rule with
  | blank => exact laws.pure _
  | string value => exact laws.single scope owner _
  | pattern value flags => exact laws.single scope owner _
  | token immediate content => exact laws.single scope owner _
  | aliased value named content =>
      unfold Expansion.expand
      split
      · exact laws.single scope owner _
      · exact laws.expand scope owner content
  | field name content => exact laws.expand scope owner content
  | symbol name =>
      unfold Expansion.expand
      split
      · exact laws.pure _
      · exact laws.undefined name owner
  | seq members => exact laws.expandSeq scope owner _ members
  | choice members =>
      cases members with
      | nil => exact laws.pure _
      | cons first rest =>
          exact laws.bind (laws.expand scope owner first) fun _ =>
            laws.bind (laws.expandChoice scope owner rest) fun _ => laws.pure _
  | repetition atLeastOnce content =>
      exact laws.repetition owner
        (fun helper => if atLeastOnce then [.single helper] else [.blank, .single helper])
        (laws.expand scope owner content)
  | precedence kind value content =>
      cases kind with
      | static associativity =>
          exact laws.bind (laws.expand scope owner content) fun _ => laws.pure _
      | dynamic =>
          exact laws.bind (laws.expand scope owner content) fun _ =>
            laws.bind (laws.note _) fun _ => laws.pure _

theorem expandSeq (laws : Compositional @holds) (scope : Scope) (owner : String)
    (before : List Alternative) (rules : List Rule) :
    holds (Expansion.expandSeq scope owner before rules) := by
  cases rules with
  | nil => exact laws.pure _
  | cons rule rest =>
      exact laws.bind (laws.expand scope owner rule) fun _ =>
        laws.bind (laws.note _) fun _ => laws.expandSeq scope owner _ rest

theorem expandChoice (laws : Compositional @holds) (scope : Scope) (owner : String)
    (rules : List Rule) : holds (Expansion.expandChoice scope owner rules) := by
  cases rules with
  | nil => exact laws.pure _
  | cons rule rest =>
      exact laws.bind (laws.expand scope owner rule) fun _ =>
        laws.bind (laws.expandChoice scope owner rest) fun _ => laws.pure _

end

/-- It holds of the expansion of several rules if it holds of adding their productions. -/
theorem expandRules (laws : Compositional @holds) (scope : Scope)
    (entries : List (Symbol × String × Rule))
    (adds : ∀ lhs alternatives, holds (modify fun expansion : Expansion =>
      expansion.addProductions lhs alternatives : Step Unit)) :
    holds (entries.forM (expandRule scope)) := by
  induction entries with
  | nil => exact laws.pure _
  | cons entry rest induction =>
      exact laws.bind (laws.bind (laws.expand scope entry.2.1 entry.2.2) fun _ => adds _ _)
        fun _ => induction

end Compositional

end Expansion

/-! ## The symbols of expanded rules -/

namespace Symbol

theorem ofIndex_ne_endOfInput {index : Nat} (positive : 0 < index) (small : index < 65536) :
    ofIndex index ≠ .endOfInput := by
  intro same
  have zero := congrArg Symbol.index same
  rw [index_ofIndex small] at zero
  exact absurd zero (Nat.ne_of_gt positive)

/-- Whether a symbol comes before a limit but is not the end of the input. -/
def Inner (limit : Nat) (symbol : Symbol) : Prop :=
  symbol ≠ .endOfInput ∧ symbol.index < limit

theorem inner_ofIndex {limit index : Nat} (small : limit < 65536) (positive : 0 < index)
    (inside : index < limit) : (ofIndex index).Inner limit := by
  have fits := Nat.lt_trans inside small
  refine ⟨ofIndex_ne_endOfInput positive fits, ?_⟩
  rwa [index_ofIndex fits]

end Symbol

/-- Whether all symbols of an alternative come before a limit and none is the end of the input. -/
def Alternative.Inner (limit : Nat) (alternative : Alternative) : Prop :=
  ∀ symbol ∈ alternative.symbols, symbol.Inner limit

namespace Alternative

variable {limit : Nat}

theorem Inner.append {left right : Alternative} (leftInner : left.Inner limit)
    (rightInner : right.Inner limit) : (left.append right).Inner limit :=
  fun symbol member => (List.mem_append.1 member).elim (leftInner symbol) (rightInner symbol)

end Alternative

namespace Expansion

/-- Two steps succeed if both of them do. -/
theorem bind_eq_ok {α β : Type} {first : Step α} {next : α → Step β} {before after : Expansion}
    {value : β} : (first >>= next) before = (.ok value, after) ↔
      ∃ middle between, first before = (.ok middle, between) ∧
        next middle between = (.ok value, after) := by
  have unfolded : (first >>= next) before =
      ExceptT.bindCont next (first before).1 (first before).2 := rfl
  rw [unfolded]
  rcases first before with ⟨_ | middle, between⟩
  · refine iff_of_false (fun failed => ?_) ?_
    · cases failed
    · rintro ⟨_, _, failed, -⟩
      cases failed
  · refine ⟨fun there => ⟨middle, between, rfl, there⟩, ?_⟩
    rintro ⟨_, _, ⟨⟩, there⟩
    exact there

theorem bind_of_eq_ok {α β : Type} {first : Step α} {next : α → Step β} {before middle : Expansion}
    {value : α} (succeeds : first before = (.ok value, middle)) :
    (first >>= next) before = next value middle := by
  have unfolded : (first >>= next) before =
      ExceptT.bindCont next (first before).1 (first before).2 := rfl
  rw [unfolded, succeeds]
  rfl

/-- Whether a step never loses symbols. -/
def Grows {α : Type} (step : Step α) : Prop :=
  ∀ before value after, step before = (.ok value, after) →
    before.symbols.size ≤ after.symbols.size

/-- Whether the symbols begin with those of a scope and go on with nonterminals, and the symbols on
the right of productions come before a limit. -/
structure Sound (scope : Scope) (limit : Nat) (expansion : Expansion) : Prop where
  /-- The symbols before the limit fit their ids. -/
  small : limit < 65536
  /-- There are all symbols of the scope. -/
  room : scope.terminalCount + scope.nonterminals.length ≤ expansion.symbols.size
  /-- Only nonterminals come after the terminals. -/
  symbols : ∃ added, expansion.symbols.toList =
    Description.endInfo :: scope.terminals.list.map Terminal.info ++ added ∧
      ∀ info ∈ added, info.kind = .nonterminal
  /-- The symbols on the right. -/
  rhs : ∀ production ∈ expansion.productions, ∀ symbol ∈ production.rhs, symbol.Inner limit

/-- Whether a step keeps an expansion sound and gives results of a kind, as long as there are not too
many symbols. -/
def Keeps {α : Type} (scope : Scope) (limit : Nat) (result : α → Prop) (step : Step α) : Prop :=
  ∀ before value after, step before = (.ok value, after) → after.symbols.size ≤ limit →
    before.Sound scope limit → after.Sound scope limit ∧ result value

section Combinators

variable {α β : Type} {scope : Scope} {limit : Nat} {result : α → Prop} {final : β → Prop}

theorem grows_pure (value : α) : Grows (pure value) := by
  rintro before _ _ ⟨⟩
  exact Nat.le_refl _

theorem grows_lift (outcome : Except CompileError α) : Grows (liftM outcome) := by
  rintro before _ _ ⟨⟩
  exact Nat.le_refl _

theorem grows_note (overflow : Bool) : Grows (note overflow) := by
  rintro before _ _ ⟨⟩
  exact Nat.le_refl _

theorem Grows.bind {first : Step α} {next : α → Step β} (firstGrows : Grows first)
    (nextGrows : ∀ value, Grows (next value)) : Grows (first >>= next) := by
  intro before value after succeeded
  obtain ⟨middle, between, here, there⟩ := bind_eq_ok.1 succeeded
  exact Nat.le_trans (firstGrows before middle between here)
    (nextGrows middle between value after there)

theorem keeps_pure {value : α} (holds : result value) : Keeps scope limit result (pure value) := by
  rintro before _ _ ⟨⟩ - sound
  exact ⟨sound, holds⟩

theorem keeps_lift {outcome : Except CompileError α}
    (holds : ∀ expansion : Expansion, expansion.Sound scope limit → expansion.symbols.size ≤ limit →
      ∀ value, outcome = .ok value → result value) :
    Keeps scope limit result (liftM outcome : Step α) := by
  rintro before value _ ⟨⟩ small sound
  exact ⟨sound, holds before sound small value rfl⟩

theorem keeps_note (overflow : Bool) : Keeps scope limit (fun _ => True) (note overflow) := by
  rintro before _ _ ⟨⟩ - sound
  exact ⟨⟨sound.small, sound.room, sound.symbols, sound.rhs⟩, trivial⟩

theorem Keeps.bind {first : Step α} {next : α → Step β} (firstKeeps : Keeps scope limit result first)
    (nextGrows : ∀ value, Grows (next value))
    (nextKeeps : ∀ value, result value → Keeps scope limit final (next value)) :
    Keeps scope limit final (first >>= next) := by
  intro before value after succeeded small sound
  obtain ⟨middle, between, here, there⟩ := bind_eq_ok.1 succeeded
  have grown := nextGrows middle between value after there
  obtain ⟨betweenSound, holds⟩ := firstKeeps before middle between here
    (Nat.le_trans grown small) sound
  exact nextKeeps middle holds between value after there small betweenSound

end Combinators

/-- Nothing but the productions changes as productions are added. -/
theorem exists_addProductions_eq (expansion : Expansion) (lhs : Symbol)
    (alternatives : List Alternative) : ∃ productions,
      expansion.addProductions lhs alternatives = { expansion with productions } := by
  unfold addProductions
  induction alternatives generalizing expansion with
  | nil => exact ⟨_, rfl⟩
  | cons first rest induction =>
      rw [List.foldl_cons, addProduction]
      split
      · exact induction expansion
      · exact induction { expansion with productions := _ }

theorem symbols_addProductions (expansion : Expansion) (lhs : Symbol)
    (alternatives : List Alternative) :
    (expansion.addProductions lhs alternatives).symbols = expansion.symbols := by
  obtain ⟨productions, same⟩ := exists_addProductions_eq expansion lhs alternatives
  rw [same]

theorem overflowed_addProductions (expansion : Expansion) (lhs : Symbol)
    (alternatives : List Alternative) :
    (expansion.addProductions lhs alternatives).overflowed = expansion.overflowed := by
  obtain ⟨productions, same⟩ := exists_addProductions_eq expansion lhs alternatives
  rw [same]

theorem mem_addProduction {expansion : Expansion} {added production : PlainProduction} :
    production ∈ (expansion.addProduction added).productions ↔
      production ∈ expansion.productions ∨ production = added := by
  unfold addProduction
  split
  · next held =>
      refine (or_iff_left_of_imp ?_).symm
      rintro rfl
      exact Array.contains_iff_mem.1 held
  · exact Array.mem_push

theorem mem_addProductions {expansion : Expansion} {lhs : Symbol} {alternatives : List Alternative}
    {production : PlainProduction} :
    production ∈ (expansion.addProductions lhs alternatives).productions ↔
      production ∈ expansion.productions ∨
        ∃ alternative ∈ alternatives, production = alternative.toProduction lhs := by
  unfold addProductions
  induction alternatives generalizing expansion with
  | nil => simp
  | cons first rest induction =>
      rw [List.foldl_cons, induction, mem_addProduction, or_assoc, List.exists_mem_cons_iff]

/-- An expansion with further productions. -/
def append (expansion : Expansion) (productions : List PlainProduction) : Expansion :=
  { expansion with productions := expansion.productions ++ productions.toArray }

@[simp]
theorem productions_append (expansion : Expansion) (productions : List PlainProduction) :
    (expansion.append productions).productions.toList =
      expansion.productions.toList ++ productions := by
  simp [append]

theorem append_nil (expansion : Expansion) : expansion.append [] = expansion := by
  simp [append]

theorem append_append (expansion : Expansion) (earlier later : List PlainProduction) :
    (expansion.append earlier).append later = expansion.append (earlier ++ later) := by
  simp [append]

/-- Productions of which none is there twice are all appended. -/
theorem addProductions_of_nodup {expansion : Expansion} {lhs : Symbol}
    {alternatives : List Alternative} (distinct : (expansion.productions.toList ++
      alternatives.map (Alternative.toProduction lhs)).Nodup) :
    expansion.addProductions lhs alternatives =
      expansion.append (alternatives.map (Alternative.toProduction lhs)) := by
  unfold addProductions
  induction alternatives generalizing expansion with
  | nil => exact expansion.append_nil.symm
  | cons first rest induction =>
      have absent : expansion.productions.contains (first.toProduction lhs) = false := by
        refine Bool.eq_false_iff.2 fun held => ?_
        exact (List.nodup_append.1 distinct).2.2 _
          (Array.mem_toList_iff.2 (Array.contains_iff_mem.1 held)) _ List.mem_cons_self rfl
      have added : expansion.addProduction (first.toProduction lhs) =
          expansion.append [first.toProduction lhs] := by
        rw [addProduction, absent, if_neg Bool.false_ne_true]
        rfl
      rw [List.foldl_cons, added, induction (by simpa using distinct), append_append]
      rfl

/-- Rules add their productions one after the other if none of them is there twice and if their
alternatives are found without a change to anything else. -/
theorem expandRules_of_nodup {scope : Scope} {expansion : Expansion}
    {entries : List (Symbol × String × Rule)} {alternatives : Symbol → List Alternative}
    (expanded : ∀ entry ∈ entries, ∀ earlier : Expansion, earlier.overflowed = false →
      expand scope entry.2.1 entry.2.2 earlier = (.ok (alternatives entry.1), earlier))
    (inRange : expansion.overflowed = false)
    (distinct : (expansion.productions.toList ++ (entries.map Prod.fst).flatMap fun lhs =>
      (alternatives lhs).map (Alternative.toProduction lhs)).Nodup) :
    entries.forM (expandRule scope) expansion = (.ok (), expansion.append
      ((entries.map Prod.fst).flatMap fun lhs =>
        (alternatives lhs).map (Alternative.toProduction lhs))) := by
  induction entries generalizing expansion with
  | nil => exact congrArg (Prod.mk (Except.ok ())) expansion.append_nil.symm
  | cons entry rest induction =>
      obtain ⟨here, later⟩ := List.forall_mem_cons.1 expanded
      rw [List.map_cons, List.flatMap_cons, ← List.append_assoc] at distinct
      have added := addProductions_of_nodup (List.nodup_append.1 distinct).1
      have first : expandRule scope entry expansion = (.ok (), expansion.append _) :=
        bind_eq_ok.2 ⟨_, _, here expansion inRange, congrArg (Prod.mk (Except.ok ())) added⟩
      refine bind_eq_ok.2 ⟨(), _, first, ?_⟩
      rw [@induction (expansion.append _) later inRange (by rwa [productions_append]),
        append_append, List.map_cons, List.flatMap_cons]

theorem Sound.addProductions {scope : Scope} {limit : Nat} {expansion : Expansion}
    (sound : expansion.Sound scope limit)
    (lhs : Symbol) {alternatives : List Alternative}
    (inner : ∀ alternative ∈ alternatives, alternative.Inner limit) :
    (expansion.addProductions lhs alternatives).Sound scope limit := by
  refine ⟨sound.small, by rw [symbols_addProductions]; exact sound.room,
    by rw [symbols_addProductions]; exact sound.symbols, ?_⟩
  intro production member
  rcases mem_addProductions.1 member with before | ⟨alternative, listed, rfl⟩
  · exact sound.rhs production before
  · exact inner alternative listed

section Symbols

variable {scope : Scope} {limit : Nat}

theorem Scope.symbol?_inner {expansion : Expansion} (sound : expansion.Sound scope limit)
    (small : expansion.symbols.size ≤ limit) {name : String} {symbol : Symbol}
    (found : scope.symbol? name = some symbol) : symbol.Inner limit := by
  have room := sound.room
  have terminals : scope.terminalCount = scope.terminals.list.length + 1 := rfl
  unfold symbol? at found
  split at found
  · next index position =>
      obtain rfl := Option.some.inj found
      have inside := (List.findIdx?_eq_some_iff_getElem.1 position).1
      exact Symbol.inner_ofIndex sound.small (by omega) (by omega)
  · obtain ⟨index, position, rfl⟩ := Option.map_eq_some_iff.1 found
    have inside := (List.findIdx?_eq_some_iff_getElem.1 position).1
    exact Symbol.inner_ofIndex sound.small (Nat.succ_pos index) (by omega)

theorem Scope.terminal_inner {expansion : Expansion} (sound : expansion.Sound scope limit)
    (small : expansion.symbols.size ≤ limit) {owner : String} {rule : Rule} {symbol : Symbol}
    (found : scope.terminal owner rule = .ok symbol) : symbol.Inner limit := by
  have room := sound.room
  have terminals : scope.terminalCount = scope.terminals.list.length + 1 := rfl
  obtain ⟨⟨key, info⟩, -, rest⟩ := Except.bind_eq_ok.1 found
  dsimp only at rest
  split at rest
  · next index position =>
      cases rest
      have inside := (List.findIdx?_eq_some_iff_getElem.1 position).1
      exact Symbol.inner_ofIndex sound.small (Nat.succ_pos index) (by omega)
  · cases rest

/-- Whether no symbol of several alternatives is the end of the input. -/
def AllInner (limit : Nat) (alternatives : List Alternative) : Prop :=
  ∀ alternative ∈ alternatives, alternative.Inner limit

theorem allInner_single {symbol : Symbol} (inside : symbol.Inner limit) :
    AllInner limit [.single symbol] := by
  intro alternative member other otherMember
  obtain rfl := List.mem_singleton.1 member
  obtain rfl := List.mem_singleton.1 otherMember
  exact inside

theorem allInner_blank : AllInner limit [.blank] := by
  intro alternative member other otherMember
  obtain rfl := List.mem_singleton.1 member
  cases otherMember

theorem AllInner.append {left right : List Alternative} (leftInner : AllInner limit left)
    (rightInner : AllInner limit right) : AllInner limit (left ++ right) :=
  fun alternative member =>
    (List.mem_append.1 member).elim (leftInner alternative) (rightInner alternative)

theorem AllInner.product {left right : List Alternative} (leftInner : AllInner limit left)
    (rightInner : AllInner limit right) : AllInner limit (Alternative.product left right) := by
  intro alternative member
  obtain ⟨first, firstMember, inside⟩ := List.mem_flatMap.1 member
  obtain ⟨second, secondMember, rfl⟩ := List.mem_map.1 inside
  exact (leftInner first firstMember).append (rightInner second secondMember)

theorem keeps_terminal (owner : String) (rule : Rule) :
    Keeps scope limit (AllInner limit)
      (do return [Alternative.single (← scope.terminal owner rule)]) :=
  (keeps_lift fun _ sound small _ found => Scope.terminal_inner sound small found).bind
    (fun _ => grows_pure _) fun _ inside => keeps_pure (allInner_single inside)

theorem grows_addHelper (owner : String) : Grows (addHelper owner) := by
  rintro before _ _ ⟨⟩
  simp

theorem keeps_addHelper (owner : String) :
    Keeps scope limit (Symbol.Inner limit) (addHelper owner) := by
  rintro before _ _ ⟨⟩ small sound
  have room := sound.room
  have terminals : scope.terminalCount = scope.terminals.list.length + 1 := rfl
  simp only [Array.size_push] at small
  obtain ⟨added, same, kinds⟩ := sound.symbols
  refine ⟨⟨sound.small, ?_, ?_, sound.rhs⟩,
    Symbol.inner_ofIndex sound.small (by omega) (by omega)⟩
  · simp only [Array.size_push]
    omega
  · refine ⟨added ++ [_], by rw [Array.toList_push, same, List.append_assoc], ?_⟩
    intro info member
    rcases List.mem_append.1 member with old | new
    · exact kinds info old
    · rw [List.mem_singleton.1 new]

theorem grows_addRepetition (helper : Symbol) (alternatives : List Alternative) :
    Grows (addRepetition helper alternatives) := by
  rintro before _ _ ⟨⟩
  simp [symbols_addProductions]

theorem keeps_addRepetition {helper : Symbol} (inside : helper.Inner limit)
    {alternatives : List Alternative} (inner : AllInner limit alternatives) :
    Keeps scope limit (fun _ => True) (addRepetition helper alternatives) := by
  have single : (Alternative.single helper).Inner limit := by
    intro symbol member
    obtain rfl := List.mem_singleton.1 member
    exact inside
  have recursive : AllInner limit (alternatives.map (Alternative.single helper).append) :=
    List.forall_mem_map.2 fun alternative member => single.append (inner alternative member)
  rintro before _ _ ⟨⟩ - sound
  exact ⟨(sound.addProductions helper recursive).addProductions helper inner, trivial⟩

theorem grows_compositional : Compositional @Grows where
  pure := grows_pure
  bind := Grows.bind
  terminal _ _ _ := grows_lift _
  undefined _ _ := grows_lift (.error _)
  note := grows_note
  repetition owner _ _ grows := (grows_addHelper owner).bind fun helper =>
    grows.bind fun alternatives =>
      (grows_addRepetition helper alternatives).bind fun _ => grows_pure _

mutual

/-- The alternatives of a rule do not contain the end of the input. -/
theorem keeps_expand (scope : Scope) (owner : String) (rule : Rule) :
    Keeps scope limit (AllInner limit) (expand scope owner rule) := by
  cases rule with
  | blank => exact keeps_pure allInner_blank
  | string value => exact keeps_terminal owner _
  | pattern value flags => exact keeps_terminal owner _
  | token immediate content => exact keeps_terminal owner _
  | aliased value named content =>
      unfold expand
      split
      · exact keeps_terminal owner _
      · exact keeps_expand scope owner content
  | field name content => exact keeps_expand scope owner content
  | symbol name =>
      unfold expand
      split
      · next symbol found =>
          rintro before _ _ ⟨⟩ small sound
          exact ⟨sound, allInner_single (Scope.symbol?_inner sound small found)⟩
      · intro before value after failed
        cases failed
  | seq members => exact keeps_expandSeq scope owner allInner_blank members
  | choice members =>
      cases members with
      | nil => exact keeps_pure allInner_blank
      | cons first rest =>
          exact (keeps_expand scope owner first).bind
            (fun _ => (grows_compositional.expandChoice scope owner rest).bind fun _ => grows_pure _)
            fun _ firstInner => (keeps_expandChoice scope owner rest).bind (fun _ => grows_pure _)
              fun _ restInner => keeps_pure (firstInner.append restInner)
  | repetition atLeastOnce content =>
      refine (keeps_addHelper owner).bind
        (fun helper => (grows_compositional.expand scope owner content).bind fun alternatives =>
          (grows_addRepetition helper alternatives).bind fun _ => grows_pure _)
        fun helper inside => (keeps_expand scope owner content).bind
          (fun alternatives => (grows_addRepetition helper alternatives).bind fun _ => grows_pure _)
          fun alternatives inner => (keeps_addRepetition inside inner).bind
            (fun _ => grows_pure _) fun _ _ => ?_
      cases atLeastOnce with
      | true => exact keeps_pure (allInner_single inside)
      | false => exact keeps_pure (allInner_blank.append (allInner_single inside))
  | precedence kind value content =>
      cases kind with
      | static associativity =>
          exact (keeps_expand scope owner content).bind (fun _ => grows_pure _)
            fun _ inner => keeps_pure (List.forall_mem_map.2 inner)
      | dynamic =>
          exact (keeps_expand scope owner content).bind
            (fun _ => (grows_note _).bind fun _ => grows_pure _)
            fun _ inner => (keeps_note _).bind (fun _ => grows_pure _)
              fun _ _ => keeps_pure (List.forall_mem_map.2 inner)

theorem keeps_expandSeq (scope : Scope) (owner : String) {before : List Alternative}
    (beforeInner : AllInner limit before) (rules : List Rule) :
    Keeps scope limit (AllInner limit) (expandSeq scope owner before rules) := by
  cases rules with
  | nil => exact keeps_pure beforeInner
  | cons rule rest =>
      exact (keeps_expand scope owner rule).bind
        (fun _ => (grows_note _).bind fun _ => grows_compositional.expandSeq scope owner _ rest)
        fun _ inner => (keeps_note _).bind
          (fun _ => grows_compositional.expandSeq scope owner _ rest)
          fun _ _ => keeps_expandSeq scope owner (beforeInner.product inner) rest

theorem keeps_expandChoice (scope : Scope) (owner : String) (rules : List Rule) :
    Keeps scope limit (AllInner limit) (expandChoice scope owner rules) := by
  cases rules with
  | nil => exact keeps_pure fun alternative never => absurd never List.not_mem_nil
  | cons rule rest =>
      exact (keeps_expand scope owner rule).bind
        (fun _ => (grows_compositional.expandChoice scope owner rest).bind fun _ => grows_pure _)
        fun _ firstInner => (keeps_expandChoice scope owner rest).bind (fun _ => grows_pure _)
          fun _ restInner => keeps_pure (firstInner.append restInner)

end

theorem grows_addProductions (lhs : Symbol) (alternatives : List Alternative) :
    Grows (modify fun expansion : Expansion => expansion.addProductions lhs alternatives :
      Step Unit) := by
  rintro before _ _ ⟨⟩
  exact Nat.le_of_eq (congrArg Array.size (symbols_addProductions _ _ _)).symm

theorem keeps_expandRule (entry : Symbol × String × Rule) :
    Keeps scope limit (fun _ => True) (expandRule scope entry) := by
  refine (keeps_expand scope entry.2.1 entry.2.2).bind (fun _ => grows_addProductions _ _)
    fun alternatives inner => ?_
  rintro before _ _ ⟨⟩ - sound
  exact ⟨sound.addProductions _ inner, trivial⟩

theorem keeps_expandRules (entries : List (Symbol × String × Rule)) :
    Keeps scope limit (fun _ => True) (entries.forM (expandRule scope)) := by
  induction entries with
  | nil => exact keeps_pure trivial
  | cons entry rest induction =>
      exact (keeps_expandRule entry).bind
        (fun _ => grows_compositional.expandRules scope rest grows_addProductions)
        fun _ _ => induction

end Symbols

end Expansion

/-- What makes a plain grammar one that can be compiled: its symbols fit their ids and stand in
order, and everything that refers to a symbol refers to one of the right kind. -/
structure PlainGrammar.Sound (grammar : PlainGrammar) : Prop where
  /-- There are fewer symbols than ids. -/
  symbolCount : grammar.symbols.length < 65535
  /-- The terminals are symbols. -/
  terminalCount : grammar.terminalCount ≤ grammar.symbols.length
  /-- The end of the input, the terminals and the nonterminals stand in this order. -/
  symbols : ∃ terminals nonterminals,
    grammar.symbols = Description.endInfo :: terminals ++ nonterminals ∧
      terminals.length + 1 = grammar.terminalCount ∧
      (∀ info ∈ terminals, info.kind = .terminal ∨ info.kind = .external) ∧
      ∀ info ∈ nonterminals, info.kind = .nonterminal
  /-- The start symbol is a nonterminal. -/
  start : grammar.terminalCount ≤ grammar.start.index ∧ grammar.start.index < grammar.symbols.length
  /-- There is at most one lexical rule for each terminal. -/
  lexRuleCount : grammar.lexRules.length < grammar.terminalCount
  /-- The lexical rules stand for terminals that they recognise. -/
  lexRules : ∀ rule ∈ grammar.lexRules,
    (grammar.symbols[rule.symbol.index]?).map SymbolInfo.kind = some .terminal
  /-- The symbols on the right of productions. -/
  rhs : ∀ production ∈ grammar.productions, ∀ symbol ∈ production.rhs,
    symbol.Inner grammar.symbols.length
  /-- The extras. -/
  extras : ∀ symbol ∈ grammar.extras, symbol.Inner grammar.terminalCount

/-- The end of the input is a terminal. -/
theorem PlainGrammar.Sound.positive {grammar : PlainGrammar} (sound : grammar.Sound) :
    0 < grammar.terminalCount := by
  obtain ⟨terminals, -, -, count, -⟩ := sound.symbols
  exact count ▸ Nat.succ_pos terminals.length

/-- The terminal of a lexical rule is one that lexical rules recognise. -/
theorem Terminals.kind_of_lexRule {terminals : Terminals} (sound : terminals.Sound)
    (small : terminals.list.length < 65535) {rule : LexRule} (member : rule ∈ terminals.lexRules) :
    ((Description.endInfo :: terminals.list.map Terminal.info)[rule.symbol.index]?).map
      SymbolInfo.kind = some .terminal := by
  obtain ⟨⟨terminal, index⟩, listed, found⟩ := List.mem_filterMap.1 member
  obtain ⟨pattern, hasPattern, rfl⟩ := Option.map_eq_some_iff.1 found
  have place := List.mem_zipIdx_iff_getElem?.1 listed
  have inside := (List.getElem?_eq_some_iff.1 place).1
  have kind := sound.kinds terminal (List.mem_of_getElem? place)
  rw [Terminal.IsOfKind, hasPattern] at kind
  dsimp only
  rw [Symbol.index_ofIndex (by omega), List.getElem?_cons_succ, List.getElem?_map, place]
  exact congrArg some kind

/-- Every terminal has at most one lexical rule. -/
theorem Terminals.length_lexRules_le (terminals : Terminals) :
    terminals.lexRules.length ≤ terminals.list.length :=
  Nat.le_trans (List.length_filterMap_le _ _) (Nat.le_of_eq List.length_zipIdx)

/-- The symbols, names and rules of the nonterminals of a scope. -/
def Expansion.Scope.entries (scope : Expansion.Scope) (rules : List (String × Rule)) :
    List (Symbol × String × Rule) :=
  rules.zipIdx.map fun ((name, rule), index) =>
    (Symbol.ofIndex (scope.terminalCount + index), name, rule)

namespace Expansion

/-- The expansion of terminals and the rules of nonterminals before any rule is expanded. -/
def start (terminals : Terminals) (rules : List (String × Rule)) : Expansion :=
  ⟨(Description.endInfo :: terminals.list.map Terminal.info ++
    rules.map fun entry => Terminals.namedInfo entry.1 .nonterminal).toArray, #[], 0, false⟩

/-- The plain grammar of an expansion. -/
def plain (expansion : Expansion) (scope : Scope) (name : String)
    (expectedConflicts : List (List Symbol)) : PlainGrammar where
  name := name
  symbols := expansion.symbols.toList
  terminalCount := scope.terminalCount
  start := .ofIndex scope.terminalCount
  lexRules := scope.terminals.lexRules
  productions := expansion.productions.toList
  extras := scope.terminals.extras.map fun index => .ofIndex (index + 1)
  expectedConflicts := expectedConflicts

variable {scope : Scope} {terminals : Terminals} {rules : List (String × Rule)}

theorem size_start : (start terminals rules).symbols.size =
    Scope.terminalCount ⟨terminals, rules.map Prod.fst⟩ + rules.length := by
  simp [start, Scope.terminalCount]
  omega

theorem sound_start {limit : Nat} (small : limit < 65536) :
    (start terminals rules).Sound ⟨terminals, rules.map Prod.fst⟩ limit where
  small := small
  room := Nat.le_of_eq (by rw [size_start, List.length_map])
  symbols := ⟨_, rfl, List.forall_mem_map.2 fun _ _ => rfl⟩
  rhs _ never := absurd never (Array.not_mem_empty _)

/-- A sound expansion of sound terminals gives a sound plain grammar. -/
theorem Sound.plain {expansion : Expansion} (sound : expansion.Sound scope expansion.symbols.size)
    (terminals : scope.terminals.Sound) (nonterminals : scope.nonterminals ≠ [])
    (small : expansion.symbols.size < 65535) (name : String)
    (expectedConflicts : List (List Symbol)) :
    (expansion.plain scope name expectedConflicts).Sound := by
  obtain ⟨added, same, kinds⟩ := sound.symbols
  have room := sound.room
  have some_ := List.length_pos_of_ne_nil nonterminals
  have count : scope.terminalCount = scope.terminals.list.length + 1 := rfl
  have length : (expansion.plain scope name expectedConflicts).symbols.length =
      expansion.symbols.size := Array.length_toList
  constructor
  case symbolCount => exact length ▸ small
  case terminalCount => exact length ▸ Nat.le_trans (Nat.le_add_right ..) room
  case symbols =>
    refine ⟨_, _, same, by rw [List.length_map]; rfl, List.forall_mem_map.2 ?_, kinds⟩
    intro terminal listed
    have kind := terminals.kinds terminal listed
    rw [Terminal.IsOfKind] at kind
    split at kind
    · exact .inl kind
    · exact .inr kind
  case start =>
    have place : (Symbol.ofIndex scope.terminalCount).index = scope.terminalCount :=
      Symbol.index_ofIndex (by omega)
    rw [length]
    exact ⟨Nat.le_of_eq place.symm, Nat.lt_of_le_of_lt (Nat.le_of_eq place) (by omega)⟩
  case lexRuleCount => exact Nat.lt_succ_of_le scope.terminals.length_lexRules_le
  case lexRules =>
    intro rule member
    obtain ⟨info, found, kind⟩ := Option.map_eq_some_iff.1
      (Terminals.kind_of_lexRule terminals (by omega) member)
    dsimp only [Expansion.plain]
    rw [same, List.getElem?_append_left (List.getElem?_eq_some_iff.1 found).1, found]
    exact congrArg some kind
  case rhs =>
    intro production member
    rw [length]
    exact sound.rhs production (Array.mem_toList_iff.1 member)
  case extras =>
    refine List.forall_mem_map.2 fun index listed => ?_
    have bound := terminals.extras index listed
    have fits : scope.terminalCount < 65536 := by omega
    exact Symbol.inner_ofIndex fits (Nat.succ_pos index) (Nat.succ_lt_succ bound)

end Expansion

namespace Description

variable {description : Description} {plain : PlainGrammar}

/-- The first rule becomes a nonterminal. -/
theorem nonterminals_ne_nil (rules : description.rules.isEmpty = false) (terminals : Terminals) :
    description.nonterminals terminals ≠ [] := by
  unfold nonterminals
  obtain ⟨first, rest, same⟩ := List.exists_cons_of_ne_nil (List.isEmpty_eq_false_iff.1 rules)
  rw [same, List.zipIdx_cons, List.filter_cons_of_pos rfl]
  exact List.cons_ne_nil _ _

/-- The rules of a description are expanded under the names of its terminals and nonterminals. -/
theorem expansion_eq_ok {scope : Expansion.Scope} {outcome : Except CompileError Unit}
    {expansion : Expansion} (expanded : description.expansion = .ok (scope, outcome, expansion)) :
    ∃ named terminals, description.rules.isEmpty = false ∧
      Terminals.ofRules description = .ok named ∧
      description.collectTerminals named = .ok terminals ∧
      let rules := description.nonterminals named
      scope = ⟨terminals, rules.map Prod.fst⟩ ∧
      (scope.entries rules).forM (Expansion.expandRule scope) (Expansion.start terminals rules) =
        (outcome, expansion) := by
  unfold Description.expansion at expanded
  split at expanded
  · cases expanded
  · next rules =>
      obtain ⟨named, namedMade, expanded⟩ := Except.bind_eq_ok.1 expanded
      obtain ⟨terminals, terminalsMade, expanded⟩ := Except.bind_eq_ok.1 expanded
      obtain ⟨rfl, ran⟩ := Prod.mk.inj (Except.ok.inj expanded)
      exact ⟨named, terminals, Bool.eq_false_iff.2 rules, namedMade, terminalsMade, rfl, ran⟩

/-- What becomes of a description whose terminals are collected. -/
theorem expansion_of_terminals {named terminals : Terminals}
    (rules : description.rules.isEmpty = false)
    (namedMade : Terminals.ofRules description = .ok named)
    (terminalsMade : description.collectTerminals named = .ok terminals) :
    let rules := description.nonterminals named
    let scope : Expansion.Scope := ⟨terminals, rules.map Prod.fst⟩
    description.expansion = .ok (scope,
      (scope.entries rules).forM (Expansion.expandRule scope)
        (Expansion.start terminals rules)) := by
  unfold expansion
  rw [if_neg (Bool.eq_false_iff.1 rules)]
  exact Except.bind_eq_ok.2
    ⟨named, namedMade, Except.bind_eq_ok.2 ⟨terminals, terminalsMade, rfl⟩⟩

/-- A plain grammar comes of an expansion that succeeds and has not too many symbols. -/
theorem exists_expansion (made : description.toPlain = .ok plain) :
    ∃ scope expansion expectedConflicts, description.expansion = .ok (scope, .ok (), expansion) ∧
      expansion.symbols.size < 65535 ∧
      plain = expansion.plain scope description.name expectedConflicts := by
  obtain ⟨⟨scope, outcome, expansion⟩, expanded, rest⟩ := Except.bind_eq_ok.1 made
  obtain ⟨⟨⟩, succeeded, rest⟩ := Except.bind_eq_ok.1 rest
  dsimp only at succeeded rest
  split at rest
  · cases rest
  · next fits =>
      obtain ⟨conflicts, -, ⟨⟩⟩ := Except.bind_eq_ok.1 rest
      exact ⟨scope, expansion, conflicts, succeeded ▸ expanded, Nat.lt_of_not_le fits, rfl⟩

theorem toPlain_of_expansion {scope : Expansion.Scope} {expansion : Expansion}
    {expectedConflicts : List (List Symbol)}
    (expanded : description.expansion = .ok (scope, .ok (), expansion))
    (small : expansion.symbols.size < 65535)
    (conflicts : description.conflicts.mapM (conflictSymbols scope) = .ok expectedConflicts) :
    description.toPlain = .ok (expansion.plain scope description.name expectedConflicts) := by
  refine Except.bind_eq_ok.2 ⟨_, expanded, Except.bind_eq_ok.2 ⟨(), rfl, ?_⟩⟩
  dsimp only
  rw [if_neg (Nat.not_le.2 small)]
  exact Except.bind_eq_ok.2 ⟨expectedConflicts, conflicts, rfl⟩

/-- Every stage of a successful expansion succeeds. -/
theorem toPlain_eq_ok (made : description.toPlain = .ok plain) :
    ∃ named terminals expansion expectedConflicts, description.rules.isEmpty = false ∧
      Terminals.ofRules description = .ok named ∧
      description.collectTerminals named = .ok terminals ∧
      let rules := description.nonterminals named
      let scope : Expansion.Scope := ⟨terminals, rules.map Prod.fst⟩
      (scope.entries rules).forM (Expansion.expandRule scope) (Expansion.start terminals rules) =
        (.ok (), expansion) ∧
      expansion.symbols.size < 65535 ∧
      plain = expansion.plain scope description.name expectedConflicts := by
  obtain ⟨scope, expansion, conflicts, expanded, small, rfl⟩ := exists_expansion made
  obtain ⟨named, terminals, rules, namedMade, terminalsMade, rfl, ran⟩ := expansion_eq_ok expanded
  exact ⟨named, terminals, expansion, conflicts, rules, namedMade, terminalsMade, ran, small, rfl⟩

/-- What comes of expanding a description is sound. -/
theorem toPlain_sound (made : description.toPlain = .ok plain) : plain.Sound := by
  obtain ⟨named, terminals, expansion, conflicts, rules, namedMade, terminalsMade, expanded, small,
    rfl⟩ := toPlain_eq_ok made
  have collected :=
    Terminals.sound_collectTerminals (Terminals.sound_ofRules namedMade) terminalsMade
  have kept := Expansion.keeps_expandRules _ _ _ _ expanded (Nat.le_refl _)
  obtain ⟨sound, -⟩ := kept (Expansion.sound_start (Nat.lt_succ_of_lt small))
  refine sound.plain collected (fun none => ?_) small _ _
  exact nonterminals_ne_nil rules named (List.map_eq_nil_iff.1 none)

end Description

end IncrementalGlr
