import IncrementalGlr.Proofs.Plain.Rewriting
import IncrementalGlr.Proofs.Table.Compiled
import Mathlib.Algebra.Ring.Int.Defs

/-!
# Dynamic precedences

A rule stands for alternatives, each with the values of the dynamic precedences around its parts.
The expansion of the rules adds these values up in the course of its work, two at a time and in 32
bits; what it stores with a production is the lowest 32 bits of the sum for the alternative that the
production came of, however the values are nested.  That is the sum itself if it fits, and if no
addition on the way overflows.  A repetition is a helper of its own, so the values inside it are
those of its own alternatives.
-/

namespace IncrementalGlr

namespace Rule

/-- Whether the rule is a token of its own, with nothing around it.  The name that is given to a
token belongs to the token. -/
def isPart : Rule → Bool
  | string _ => true
  | pattern .. => true
  | token .. => true
  | aliased _ _ content => content.isToken
  | _ => false

mutual

/-- The contents of all repetitions outside tokens, each before those inside it. -/
def repeated : Rule → List Rule
  | blank => []
  | string _ => []
  | pattern .. => []
  | token .. => []
  | symbol _ => []
  | aliased _ _ content => if content.isToken then [] else content.repeated
  | field _ content => content.repeated
  | seq members => repeatedAll members
  | choice members => repeatedAll members
  | repetition _ content => content :: content.repeated
  | precedence _ _ content => content.repeated

/-- The contents of all repetitions of several rules. -/
def repeatedAll : List Rule → List Rule
  | [] => []
  | member :: rest => member.repeated ++ repeatedAll rest

end

end Rule

namespace Expansion

namespace Scope

mutual

/-- Whether a rule, whose helpers are numbered from an index on, has an alternative of the given
symbols, and which dynamic precedences are around the parts of the alternative. -/
inductive Reads (scope : Scope) (owner : String) :
    Nat → Rule → List Symbol → List Int → Prop
  /-- Nothing is the empty alternative. -/
  | blank {first : Nat} : Reads scope owner first .blank [] []
  /-- A token is its terminal. -/
  | part {first : Nat} {rule : Rule} {symbol : Symbol} :
      rule.isPart = true → scope.terminal owner rule = .ok symbol →
        Reads scope owner first rule [symbol] []
  /-- A name is its symbol. -/
  | symbol {first : Nat} {name : String} {symbol : Symbol} :
      scope.symbol? name = some symbol → Reads scope owner first (.symbol name) [symbol] []
  /-- The name of a field does not matter. -/
  | field {first : Nat} {name : String} {content : Rule} {symbols : List Symbol}
      {values : List Int} :
      Reads scope owner first content symbols values →
        Reads scope owner first (.field name content) symbols values
  /-- Another name does not matter. -/
  | aliased {first : Nat} {value : String} {named : Bool} {content : Rule} {symbols : List Symbol}
      {values : List Int} :
      content.isToken = false → Reads scope owner first content symbols values →
        Reads scope owner first (.aliased value named content) symbols values
  /-- The alternatives of the members of a sequence are put one after the other. -/
  | seq {first : Nat} {members : List Rule} {symbols : List Symbol} {values : List Int} :
      ReadsAll scope owner first members symbols values →
        Reads scope owner first (.seq members) symbols values
  /-- A choice among nothing is the empty alternative. -/
  | unchosen {first : Nat} : Reads scope owner first (.choice []) [] []
  /-- An alternative of a member of a choice is one of the choice. -/
  | chosen {first : Nat} {members : List Rule} {symbols : List Symbol} {values : List Int} :
      ReadsAny scope owner first members symbols values →
        Reads scope owner first (.choice members) symbols values
  /-- A repetition is its helper. -/
  | repeated {first : Nat} {atLeastOnce : Bool} {content : Rule} :
      Reads scope owner first (.repetition atLeastOnce content) [.ofIndex first] []
  /-- A repetition may be missing. -/
  | missing {first : Nat} {content : Rule} :
      Reads scope owner first (.repetition false content) [] []
  /-- Static precedences do not count. -/
  | static {first : Nat} {associativity : Option Associativity} {value : Int} {content : Rule}
      {symbols : List Symbol} {values : List Int} :
      Reads scope owner first content symbols values →
        Reads scope owner first (.precedence (.static associativity) value content) symbols values
  /-- A dynamic precedence is around every part of its content. -/
  | dynamic {first : Nat} {value : Int} {content : Rule} {symbols : List Symbol}
      {values : List Int} :
      Reads scope owner first content symbols values →
        Reads scope owner first (.precedence .dynamic value content) symbols (value :: values)

/-- Whether rules one after the other have an alternative. -/
inductive ReadsAll (scope : Scope) (owner : String) :
    Nat → List Rule → List Symbol → List Int → Prop
  /-- No rules have the empty alternative. -/
  | nil {first : Nat} : ReadsAll scope owner first [] [] []
  /-- The first rule and the others, whose helpers come later, have alternatives. -/
  | cons {first : Nat} {member : Rule} {rest : List Rule} {left right : List Symbol}
      {before after : List Int} :
      Reads scope owner first member left before →
        ReadsAll scope owner (first + member.repeated.length) rest right after →
          ReadsAll scope owner first (member :: rest) (left ++ right) (before ++ after)

/-- Whether any one of some rules has an alternative. -/
inductive ReadsAny (scope : Scope) (owner : String) :
    Nat → List Rule → List Symbol → List Int → Prop
  /-- The first rule has it. -/
  | here {first : Nat} {member : Rule} {rest : List Rule} {symbols : List Symbol}
      {values : List Int} :
      Reads scope owner first member symbols values →
        ReadsAny scope owner first (member :: rest) symbols values
  /-- One of the others has it. -/
  | later {first : Nat} {member : Rule} {rest : List Rule} {symbols : List Symbol}
      {values : List Int} :
      ReadsAny scope owner (first + member.repeated.length) rest symbols values →
        ReadsAny scope owner first (member :: rest) symbols values

end

/-- Whether one of the helpers of repetitions, which are numbered from an index on, has a production
for an alternative of its content: of the alternative alone or after the helper itself. -/
def Repeats (scope : Scope) (owner : String) (first : Nat) (contents : List Rule) (lhs : Symbol)
    (rhs : List Symbol) (values : List Int) : Prop :=
  ∃ place content form, contents[place]? = some content ∧ lhs = .ofIndex (first + place) ∧
    scope.Reads owner (first + place + 1) content form values ∧ (rhs = lhs :: form ∨ rhs = form)

/-- Whether rules have a production for an alternative with the given dynamic precedences around its
parts, as the production of the nonterminal of a rule or of a helper of one of its repetitions.  The
nonterminals are numbered from one index on and the helpers of all rules from another. -/
def Prefers (scope : Scope) (nonterminal helper : Nat) (rules : List (String × Rule)) (lhs : Symbol)
    (rhs : List Symbol) (values : List Int) : Prop :=
  ∃ index name rule, rules[index]? = some (name, rule) ∧
    let first := helper + (Rule.repeatedAll ((rules.take index).map Prod.snd)).length
    lhs = .ofIndex (nonterminal + index) ∧ scope.Reads name first rule rhs values ∨
      scope.Repeats name first rule.repeated lhs rhs values

end Scope

end Expansion

namespace Alternative

/-- What dynamic precedences come to: the lowest 32 bits of their sum, read with their sign. -/
def total (values : List Int) : Int := (Int32.ofInt values.sum).toInt

/-- It does not matter how the values are grouped: what is lost in between does not count in the
end. -/
theorem total_append (left right : List Int) :
    total (left ++ right) = sum (total left) (total right) := by
  rw [total, List.sum_append, sum, Int32.ofInt_add, Int32.ofInt_add, total, total,
    Int32.ofInt_toInt, Int32.ofInt_toInt]

theorem total_cons (value : Int) (values : List Int) :
    total (value :: values) = sum (total values) value := by
  rw [total, List.sum_cons, Int.add_comm, sum, Int32.ofInt_add, Int32.ofInt_add, total,
    Int32.ofInt_toInt]

/-- A sum that fits comes to itself, whatever is lost in between. -/
theorem total_eq_sum {values : List Int} (low : -2147483648 ≤ values.sum)
    (high : values.sum ≤ 2147483647) : total values = values.sum :=
  Int32.toInt_ofInt_of_le low (Int.lt_add_one_of_le high)

theorem sum_eq_add {left right : Int} (fits : overflows left right = false) :
    sum left right = left + right := by
  rw [overflows, decide_eq_false_iff_not, not_not] at fits
  exact fits

/-- Whether some alternatives are the ways to read a rule, each with what the dynamic precedences
around its parts come to.  If the additions were checked, that is their sum. -/
structure Weighs (checked : Prop) (alternatives : List Alternative)
    (reads : List Symbol → List Int → Prop) : Prop where
  /-- Every alternative is a way to read the rule. -/
  sound : ∀ alternative ∈ alternatives, ∃ values, reads alternative.symbols values ∧
    total values = alternative.dynamicPrecedence
  /-- Every way to read the rule is an alternative. -/
  complete : ∀ symbols values, reads symbols values → ∃ alternative ∈ alternatives,
    alternative.symbols = symbols ∧ alternative.dynamicPrecedence = total values
  /-- What was checked fits. -/
  exact : checked → ∀ symbols values, reads symbols values → total values = values.sum

section Weighs

variable {checked before : Prop} {alternatives others : List Alternative}
  {reads also : List Symbol → List Int → Prop}

theorem Weighs.congr (weighs : Weighs checked alternatives reads)
    (same : ∀ symbols values, also symbols values ↔ reads symbols values) :
    Weighs checked alternatives also := by
  have equal : also = reads := funext fun symbols => funext fun values =>
    propext (same symbols values)
  exact equal ▸ weighs

theorem Weighs.mono (weighs : Weighs before alternatives reads) (earlier : checked → before) :
    Weighs checked alternatives reads :=
  ⟨weighs.sound, weighs.complete, fun ran => weighs.exact (earlier ran)⟩

/-- A single alternative that nothing is around. -/
theorem weighs_alone (form : List Symbol) :
    Weighs checked [⟨form, none, 0⟩] fun symbols values => symbols = form ∧ values = [] where
  sound := List.forall_mem_singleton.2 ⟨[], ⟨rfl, rfl⟩, rfl⟩
  complete := by
    rintro symbols values ⟨rfl, rfl⟩
    exact ⟨_, List.mem_singleton_self _, rfl, rfl⟩
  exact := by
    rintro - symbols values ⟨rfl, rfl⟩
    rfl

/-- The helper of a repetition, which may be missing if the content may. -/
theorem weighs_repetition {atLeastOnce : Bool} {helper : Symbol} :
    Weighs checked (if atLeastOnce then [.single helper] else [.blank, .single helper])
      fun symbols values =>
        (atLeastOnce = false ∧ symbols = [] ∨ symbols = [helper]) ∧ values = [] := by
  refine ⟨fun alternative listed => ?_, ?_, ?_⟩
  · cases atLeastOnce with
    | true =>
        cases List.mem_singleton.1 listed
        exact ⟨[], ⟨.inr rfl, rfl⟩, rfl⟩
    | false =>
        obtain rfl | rfl := List.mem_pair.1 listed
        · exact ⟨[], ⟨.inl ⟨rfl, rfl⟩, rfl⟩, rfl⟩
        · exact ⟨[], ⟨.inr rfl, rfl⟩, rfl⟩
  · rintro symbols values ⟨⟨rfl, rfl⟩ | rfl, rfl⟩
    · exact ⟨.blank, List.mem_cons_self, rfl, rfl⟩
    · refine ⟨.single helper, ?_, rfl, rfl⟩
      cases atLeastOnce with
      | true => exact List.mem_singleton_self _
      | false => exact List.mem_cons_of_mem _ (List.mem_singleton_self _)
  · rintro - symbols values ⟨-, rfl⟩
    rfl

/-- What is put behind a helper weighs as much as it does alone. -/
theorem Weighs.after (weighs : Weighs checked alternatives reads) (helper : Symbol) :
    Weighs checked (alternatives.map (single helper).append) fun symbols values =>
      ∃ form, reads form values ∧ symbols = helper :: form where
  sound := List.forall_mem_map.2 fun alternative listed => by
    obtain ⟨values, read, same⟩ := weighs.sound alternative listed
    refine ⟨values, ⟨_, read, rfl⟩, (total_append [] values).trans ?_⟩
    rw [same]
    rfl
  complete := by
    rintro _ values ⟨form, read, rfl⟩
    obtain ⟨alternative, listed, rfl, same⟩ := weighs.complete form values read
    refine ⟨_, List.mem_map_of_mem listed, rfl, Eq.trans ?_ (total_append [] values).symm⟩
    rw [← same]
    rfl
  exact ran := by
    rintro _ values ⟨form, read, rfl⟩
    exact weighs.exact ran form values read

/-- Alternatives of two rules are those of either one. -/
theorem Weighs.append (left : Weighs checked alternatives reads)
    (right : Weighs checked others also) :
    Weighs checked (alternatives ++ others) fun symbols values =>
      reads symbols values ∨ also symbols values where
  sound := List.forall_mem_append.2
    ⟨fun alternative listed =>
      (left.sound alternative listed).imp fun _ found => found.imp_left .inl,
    fun alternative listed =>
      (right.sound alternative listed).imp fun _ found => found.imp_left .inr⟩
  complete symbols values := by
    rintro (read | read)
    · obtain ⟨alternative, listed, found⟩ := left.complete symbols values read
      exact ⟨alternative, List.mem_append_left _ listed, found⟩
    · obtain ⟨alternative, listed, found⟩ := right.complete symbols values read
      exact ⟨alternative, List.mem_append_right _ listed, found⟩
  exact ran symbols values :=
    Or.rec (left.exact ran symbols values) (right.exact ran symbols values)

/-- Alternatives one after the other add up. -/
theorem Weighs.product (left : Weighs before alternatives reads) (right : Weighs before others also)
    (earlier : checked → before ∧ productOverflows alternatives others = false) :
    Weighs checked (product alternatives others) fun symbols values =>
      ∃ first second inside later, reads first inside ∧ also second later ∧
        symbols = first ++ second ∧ values = inside ++ later where
  sound alternative listed := by
    obtain ⟨one, oneListed, listed⟩ := List.mem_flatMap.1 listed
    obtain ⟨other, otherListed, rfl⟩ := List.mem_map.1 listed
    obtain ⟨inside, read, same⟩ := left.sound one oneListed
    obtain ⟨later, readAlso, sameAlso⟩ := right.sound other otherListed
    refine ⟨_, ⟨_, _, inside, later, read, readAlso, rfl, rfl⟩, ?_⟩
    rw [total_append, same, sameAlso]
    rfl
  complete := by
    rintro _ _ ⟨first, second, inside, later, read, readAlso, rfl, rfl⟩
    obtain ⟨one, oneListed, rfl, same⟩ := left.complete first inside read
    obtain ⟨other, otherListed, rfl, sameAlso⟩ := right.complete second later readAlso
    refine ⟨one.append other,
      List.mem_flatMap.2 ⟨one, oneListed, List.mem_map_of_mem otherListed⟩, rfl, ?_⟩
    rw [total_append, ← same, ← sameAlso]
    rfl
  exact := by
    rintro ran _ _ ⟨first, second, inside, later, read, readAlso, rfl, rfl⟩
    obtain ⟨ranBefore, fits⟩ := earlier ran
    obtain ⟨one, oneListed, -, same⟩ := left.complete first inside read
    obtain ⟨other, otherListed, -, sameAlso⟩ := right.complete second later readAlso
    have inRange := List.any_eq_false.1
      (Bool.eq_false_iff.2 (List.any_eq_false.1 fits one oneListed)) other otherListed
    rw [total_append, ← same, ← sameAlso, sum_eq_add (Bool.eq_false_iff.2 inRange), same, sameAlso,
      left.exact ranBefore first inside read, right.exact ranBefore second later readAlso,
      List.sum_append]

/-- A dynamic precedence around a rule is added to each of its alternatives. -/
theorem Weighs.addDynamic (inner : Weighs before alternatives reads) {value : Int}
    (earlier : checked → before ∧ (alternatives.any fun alternative =>
      overflows alternative.dynamicPrecedence value) = false) :
    Weighs checked (alternatives.map (addDynamic value)) fun symbols values =>
      ∃ inside, reads symbols inside ∧ values = value :: inside where
  sound := List.forall_mem_map.2 fun alternative listed => by
    obtain ⟨inside, read, same⟩ := inner.sound alternative listed
    refine ⟨_, ⟨inside, read, rfl⟩, ?_⟩
    rw [total_cons, same]
    rfl
  complete := by
    rintro symbols _ ⟨inside, read, rfl⟩
    obtain ⟨alternative, listed, rfl, same⟩ := inner.complete symbols inside read
    refine ⟨_, List.mem_map_of_mem listed, rfl, ?_⟩
    rw [total_cons, ← same]
    rfl
  exact := by
    rintro ran symbols _ ⟨inside, read, rfl⟩
    obtain ⟨ranBefore, fits⟩ := earlier ran
    obtain ⟨alternative, listed, -, same⟩ := inner.complete symbols inside read
    have inRange := List.any_eq_false.1 fits alternative listed
    rw [total_cons, ← same, sum_eq_add (Bool.eq_false_iff.2 inRange), same,
      inner.exact ranBefore symbols inside read, List.sum_cons, Int.add_comm]

theorem Weighs.withPrecedence (inner : Weighs checked alternatives reads) (value : Int)
    (associativity : Option Associativity) :
    Weighs checked (alternatives.map (withPrecedence value associativity)) reads where
  sound := List.forall_mem_map.2 inner.sound
  complete symbols values read := by
    obtain ⟨alternative, listed, found⟩ := inner.complete symbols values read
    exact ⟨_, List.mem_map_of_mem listed, found⟩
  exact := inner.exact

end Weighs

end Alternative

namespace Expansion

/-- Whether an expansion has a production with the given dynamic precedence. -/
def Stores (expansion : Expansion) (lhs : Symbol) (rhs : List Symbol) (total : Int) : Prop :=
  ∃ production ∈ expansion.productions,
    production.lhs = lhs ∧ production.rhs = rhs ∧ production.dynamicPrecedence = total

/-- Whether an expansion goes on from another one by productions for some alternatives, each with
what the dynamic precedences around its parts come to. -/
structure Gains (prefers : Symbol → List Symbol → List Int → Prop) (before after : Expansion) :
    Prop where
  /-- The productions that are added. -/
  stores : ∀ lhs rhs weighed, after.Stores lhs rhs weighed ↔ before.Stores lhs rhs weighed ∨
    ∃ values, prefers lhs rhs values ∧ Alternative.total values = weighed
  /-- Without an overflow now there was none before. -/
  checked : after.overflowed = false → before.overflowed = false
  /-- Without an overflow all sums are exact. -/
  exact : after.overflowed = false → ∀ lhs rhs values, prefers lhs rhs values →
    Alternative.total values = values.sum

section Gains

variable {prefers others : Symbol → List Symbol → List Int → Prop} {before between after : Expansion}

theorem Gains.congr (gains : Gains prefers before after)
    (same : ∀ lhs rhs values, others lhs rhs values ↔ prefers lhs rhs values) :
    Gains others before after := by
  have equal : others = prefers := funext fun lhs => funext fun rhs => funext fun values =>
    propext (same lhs rhs values)
  exact equal ▸ gains

/-- Nothing is gained as long as there are the same productions. -/
theorem gains_nothing (same : after.productions = before.productions)
    (checked : after.overflowed = false → before.overflowed = false)
    (never : ∀ lhs rhs values, ¬ prefers lhs rhs values) : Gains prefers before after where
  stores lhs rhs weighed := by
    rw [Stores, Stores, same]
    exact (or_iff_left fun ⟨values, held, _⟩ => never lhs rhs values held).symm
  checked := checked
  exact _ lhs rhs values held := absurd held (never lhs rhs values)

theorem Gains.trans (here : Gains prefers before between) (there : Gains others between after) :
    Gains (fun lhs rhs values => prefers lhs rhs values ∨ others lhs rhs values) before after where
  stores lhs rhs weighed := by
    rw [there.stores, here.stores, or_assoc, ← exists_or]
    exact or_congr_right (exists_congr fun values => or_and_right.symm)
  checked ran := here.checked (there.checked ran)
  exact ran lhs rhs values :=
    Or.rec (here.exact (there.checked ran) lhs rhs values) (there.exact ran lhs rhs values)

/-- The productions that are added stand for the ways to read a rule. -/
theorem gains_addProductions {lhs : Symbol} {alternatives : List Alternative}
    {reads : List Symbol → List Int → Prop}
    (weighs : Alternative.Weighs (before.overflowed = false) alternatives reads) :
    Gains (fun symbol rhs values => symbol = lhs ∧ reads rhs values) before
      (before.addProductions lhs alternatives) := by
  have same := overflowed_addProductions before lhs alternatives
  refine ⟨fun symbol rhs weighed => ?_, fun ran => same ▸ ran,
    fun ran _ rhs values held => weighs.exact (same ▸ ran) rhs values held.2⟩
  simp only [Stores, mem_addProductions, or_and_right, exists_or]
  refine or_congr_right ⟨?_, ?_⟩
  · rintro ⟨_, ⟨alternative, listed, rfl⟩, rfl, rfl, rfl⟩
    obtain ⟨values, read, same⟩ := weighs.sound alternative listed
    exact ⟨values, ⟨rfl, read⟩, same⟩
  · rintro ⟨values, ⟨rfl, read⟩, rfl⟩
    obtain ⟨alternative, listed, rfl, same⟩ := weighs.complete rhs values read
    exact ⟨_, ⟨alternative, listed, rfl⟩, rfl, rfl, same⟩

/-- The productions of a helper stand for the ways to read its content, after the helper or alone. -/
theorem gains_addRepetition {helper : Symbol} {alternatives : List Alternative}
    {reads : List Symbol → List Int → Prop}
    (weighs : Alternative.Weighs (before.overflowed = false) alternatives reads)
    (made : addRepetition helper alternatives before = (.ok (), after)) :
    Gains (fun lhs rhs values => lhs = helper ∧
      ∃ form, reads form values ∧ (rhs = lhs :: form ∨ rhs = form)) before after := by
  cases made
  have first : Gains _ before (before.addProductions helper _) :=
    gains_addProductions (weighs.after helper)
  have same := overflowed_addProductions before helper (alternatives.map (.append (.single helper)))
  refine (first.trans (gains_addProductions (same ▸ weighs))).congr fun lhs rhs values => ?_
  rw [← and_or_left]
  refine and_congr_right fun equal => ⟨?_, ?_⟩
  · rintro ⟨form, read, rfl | rfl⟩
    · exact .inl ⟨form, read, equal ▸ rfl⟩
    · exact .inr read
  · rintro (⟨form, read, rfl⟩ | read)
    · exact ⟨form, read, .inl (equal ▸ rfl)⟩
    · exact ⟨rhs, read, .inr rfl⟩

end Gains

section Adds

variable {scope : Scope} {owner : String} {first : Nat}

namespace Scope

section Inversion

variable {symbols : List Symbol} {values : List Int}

theorem reads_blank_iff :
    scope.Reads owner first .blank symbols values ↔ symbols = [] ∧ values = [] := by
  constructor
  · intro reads
    cases reads with
    | blank => exact ⟨rfl, rfl⟩
    | part part _ => cases part
  · rintro ⟨rfl, rfl⟩
    exact .blank

theorem reads_part_iff {rule : Rule} (part : rule.isPart = true) {symbol : Symbol}
    (found : scope.terminal owner rule = .ok symbol) :
    scope.Reads owner first rule symbols values ↔ symbols = [symbol] ∧ values = [] := by
  constructor
  · intro reads
    cases reads with
    | part _ other =>
        cases found.symm.trans other
        exact ⟨rfl, rfl⟩
    | aliased other _ => exact absurd (part.symm.trans other) nofun
    | _ => cases part
  · rintro ⟨rfl, rfl⟩
    exact .part part found

theorem reads_symbol_iff {name : String} {symbol : Symbol}
    (known : scope.symbol? name = some symbol) :
    scope.Reads owner first (.symbol name) symbols values ↔ symbols = [symbol] ∧ values = [] := by
  constructor
  · intro reads
    cases reads with
    | part part _ => cases part
    | symbol other =>
        cases known.symm.trans other
        exact ⟨rfl, rfl⟩
  · rintro ⟨rfl, rfl⟩
    exact .symbol known

theorem reads_field_iff {name : String} {content : Rule} :
    scope.Reads owner first (.field name content) symbols values ↔
      scope.Reads owner first content symbols values := by
  refine ⟨fun reads => ?_, .field⟩
  cases reads with
  | part part _ => cases part
  | field inner => exact inner

theorem reads_aliased_iff {value : String} {named : Bool} {content : Rule}
    (other : content.isToken = false) :
    scope.Reads owner first (.aliased value named content) symbols values ↔
      scope.Reads owner first content symbols values := by
  refine ⟨fun reads => ?_, .aliased other⟩
  cases reads with
  | part token _ => exact absurd (other.symm.trans token) nofun
  | aliased _ inner => exact inner

theorem reads_seq_iff {members : List Rule} :
    scope.Reads owner first (.seq members) symbols values ↔
      scope.ReadsAll owner first members symbols values := by
  refine ⟨fun reads => ?_, .seq⟩
  cases reads with
  | part part _ => cases part
  | seq all => exact all

theorem readsAll_nil_iff :
    scope.ReadsAll owner first [] symbols values ↔ symbols = [] ∧ values = [] := by
  constructor
  · intro all
    cases all
    exact ⟨rfl, rfl⟩
  · rintro ⟨rfl, rfl⟩
    exact .nil

theorem readsAll_cons_iff {member : Rule} {rest : List Rule} :
    scope.ReadsAll owner first (member :: rest) symbols values ↔ ∃ left right before after,
      scope.Reads owner first member left before ∧
        scope.ReadsAll owner (first + member.repeated.length) rest right after ∧
          symbols = left ++ right ∧ values = before ++ after := by
  constructor
  · intro all
    cases all with
    | cons read others => exact ⟨_, _, _, _, read, others, rfl, rfl⟩
  · rintro ⟨left, right, before, after, read, others, rfl, rfl⟩
    exact .cons read others

theorem reads_choice_nil_iff :
    scope.Reads owner first (.choice []) symbols values ↔ symbols = [] ∧ values = [] := by
  constructor
  · intro reads
    cases reads with
    | part part _ => cases part
    | unchosen => exact ⟨rfl, rfl⟩
    | chosen any => cases any
  · rintro ⟨rfl, rfl⟩
    exact .unchosen

theorem reads_choice_cons_iff {member : Rule} {rest : List Rule} :
    scope.Reads owner first (.choice (member :: rest)) symbols values ↔
      scope.ReadsAny owner first (member :: rest) symbols values := by
  refine ⟨fun reads => ?_, .chosen⟩
  cases reads with
  | part part _ => cases part
  | chosen any => exact any

theorem readsAny_cons_iff {member : Rule} {rest : List Rule} :
    scope.ReadsAny owner first (member :: rest) symbols values ↔
      scope.Reads owner first member symbols values ∨
        scope.ReadsAny owner (first + member.repeated.length) rest symbols values := by
  constructor
  · intro any
    cases any with
    | here read => exact .inl read
    | later any => exact .inr any
  · rintro (read | any)
    · exact .here read
    · exact .later any

theorem reads_repetition_iff {atLeastOnce : Bool} {content : Rule} :
    scope.Reads owner first (.repetition atLeastOnce content) symbols values ↔
      (atLeastOnce = false ∧ symbols = [] ∨ symbols = [.ofIndex first]) ∧ values = [] := by
  constructor
  · intro reads
    cases reads with
    | part part _ => cases part
    | repeated => exact ⟨.inr rfl, rfl⟩
    | missing => exact ⟨.inl ⟨rfl, rfl⟩, rfl⟩
  · rintro ⟨⟨rfl, rfl⟩ | rfl, rfl⟩
    · exact .missing
    · exact .repeated

theorem reads_static_iff {associativity : Option Associativity} {value : Int} {content : Rule} :
    scope.Reads owner first (.precedence (.static associativity) value content) symbols values ↔
      scope.Reads owner first content symbols values := by
  refine ⟨fun reads => ?_, .static⟩
  cases reads with
  | part part _ => cases part
  | static inner => exact inner

theorem reads_dynamic_iff {value : Int} {content : Rule} :
    scope.Reads owner first (.precedence .dynamic value content) symbols values ↔
      ∃ inside, scope.Reads owner first content symbols inside ∧ values = value :: inside := by
  constructor
  · intro reads
    cases reads with
    | part part _ => cases part
    | dynamic inner => exact ⟨_, inner, rfl⟩
  · rintro ⟨inside, inner, rfl⟩
    exact .dynamic inner

end Inversion

theorem not_repeats_nil {lhs : Symbol} {rhs : List Symbol} {values : List Int} :
    ¬ scope.Repeats owner first [] lhs rhs values := by
  rintro ⟨place, content, form, found, -⟩
  cases found

theorem repeats_cons {content : Rule} {rest : List Rule} {lhs : Symbol} {rhs : List Symbol}
    {values : List Int} : scope.Repeats owner first (content :: rest) lhs rhs values ↔
      (lhs = .ofIndex first ∧ ∃ form, scope.Reads owner (first + 1) content form values ∧
        (rhs = lhs :: form ∨ rhs = form)) ∨
      scope.Repeats owner (first + 1) rest lhs rhs values := by
  constructor
  · rintro ⟨_ | place, other, form, found, same, reads, sides⟩
    · cases found
      exact .inl ⟨same, form, reads, sides⟩
    · rw [← Nat.add_assoc, Nat.add_right_comm first] at same reads
      exact .inr ⟨place, other, form, found, same, reads, sides⟩
  · rintro (⟨same, form, reads, sides⟩ | ⟨place, other, form, found, same, reads, sides⟩)
    · exact ⟨0, content, form, rfl, same, reads, sides⟩
    · rw [Nat.add_right_comm first, Nat.add_assoc first] at same reads
      exact ⟨place + 1, other, form, found, same, reads, sides⟩

theorem repeats_append {left right : List Rule} {lhs : Symbol} {rhs : List Symbol}
    {values : List Int} : scope.Repeats owner first (left ++ right) lhs rhs values ↔
      scope.Repeats owner first left lhs rhs values ∨
        scope.Repeats owner (first + left.length) right lhs rhs values := by
  induction left generalizing first with
  | nil => exact (or_iff_right not_repeats_nil).symm
  | cons content rest induction =>
      rw [List.cons_append, repeats_cons, induction, repeats_cons, or_assoc, List.length_cons,
        Nat.add_assoc, Nat.add_comm 1]

end Scope

/-- Whether an expansion goes on from another one by the helpers of repetitions with the given
contents. -/
structure Adds (scope : Scope) (owner : String) (contents : List Rule)
    (before after : Expansion) : Prop where
  /-- There is a helper for each repetition. -/
  size : after.symbols.size = before.symbols.size + contents.length
  /-- The productions of the helpers. -/
  gains : Gains (scope.Repeats owner before.symbols.size contents) before after

theorem Adds.nil (expansion : Expansion) : Adds scope owner [] expansion expansion :=
  ⟨rfl, gains_nothing rfl id fun _ _ _ => Scope.not_repeats_nil⟩

theorem Adds.append {left right : List Rule} {before between after : Expansion}
    (here : Adds scope owner left before between)
    (there : Adds scope owner right between after) :
    Adds scope owner (left ++ right) before after := by
  refine ⟨by rw [there.size, here.size, List.length_append, Nat.add_assoc], ?_⟩
  refine (here.gains.trans there.gains).congr fun lhs rhs values => ?_
  rw [here.size]
  exact Scope.repeats_append

/-- An overflow that is noted adds nothing. -/
theorem Adds.note {contents : List Rule} {overflow : Bool} {before between after : Expansion}
    (adds : Adds scope owner contents before between)
    (noted : Expansion.note overflow between = (.ok (), after)) :
    Adds scope owner contents before after ∧
      (after.overflowed = false → between.overflowed = false ∧ overflow = false) := by
  cases noted
  have parts := Bool.or_eq_false_iff (x := between.overflowed) (y := overflow)
  have nothing : Adds scope owner [] between
      { between with overflowed := between.overflowed || overflow } :=
    ⟨rfl, gains_nothing rfl (fun ran => (parts.1 ran).1) fun _ _ _ => Scope.not_repeats_nil⟩
  exact ⟨List.append_nil contents ▸ adds.append nothing, parts.1⟩

section Expand

/-- Every alternative of a rule is a way to read it, and its dynamic precedence is what those around
its parts come to. -/
structure Expands (scope : Scope) (owner : String) (rule : Rule) (before : Expansion)
    (alternatives : List Alternative) (after : Expansion) : Prop where
  /-- The repetitions of the rule are added. -/
  adds : Adds scope owner rule.repeated before after
  /-- The alternatives of the rule. -/
  weighs : Alternative.Weighs (after.overflowed = false) alternatives
    (scope.Reads owner before.symbols.size rule)

variable {before after : Expansion} {alternatives : List Alternative}

theorem expands_alone {rule : Rule} {form : List Symbol} (none : rule.repeated = [])
    (reads : ∀ symbols values,
      scope.Reads owner before.symbols.size rule symbols values ↔ symbols = form ∧ values = []) :
    Expands scope owner rule before [⟨form, .none, 0⟩] before :=
  ⟨none ▸ .nil before, (Alternative.weighs_alone form).congr reads⟩

theorem expands_part {rule : Rule} (part : rule.isPart = true) (none : rule.repeated = [])
    (made : (do return [Alternative.single (← scope.terminal owner rule)] :
      Step (List Alternative)) before = (.ok alternatives, after)) :
    Expands scope owner rule before alternatives after := by
  obtain ⟨symbol, between, lifted, ⟨⟩⟩ := bind_eq_ok.1 made
  obtain ⟨found, rfl⟩ := Prod.mk.inj lifted
  exact expands_alone none fun _ _ => Scope.reads_part_iff part found

theorem expands_name {name : String}
    (made : expand scope owner (.symbol name) before = (.ok alternatives, after)) :
    Expands scope owner (.symbol name) before alternatives after := by
  rw [expand] at made
  cases known : scope.symbol? name with
  | none =>
      rw [known] at made
      cases made
  | some symbol =>
      rw [known] at made
      cases made
      exact expands_alone rfl fun _ _ => Scope.reads_symbol_iff known

/-- A rule that is read as its content is expanded as its content. -/
theorem Expands.through {rule content : Rule}
    (inner : Expands scope owner content before alternatives after)
    (repeated : rule.repeated = content.repeated)
    (same : ∀ symbols values, scope.Reads owner before.symbols.size rule symbols values ↔
      scope.Reads owner before.symbols.size content symbols values) :
    Expands scope owner rule before alternatives after :=
  ⟨repeated ▸ inner.adds, inner.weighs.congr same⟩

/-- The helper of a repetition comes before those inside its content. -/
theorem Expands.repetition {atLeastOnce : Bool} {content : Rule} {helper : Symbol}
    {start middle : Expansion} (added : addHelper owner before = (.ok helper, start))
    (inner : Expands scope owner content start alternatives middle)
    (repeated : addRepetition helper alternatives middle = (.ok (), after)) :
    Expands scope owner (.repetition atLeastOnce content) before
      (if atLeastOnce then [.single helper] else [.blank, .single helper]) after := by
  have unchecked : start.overflowed = before.overflowed := by
    cases added
    rfl
  obtain ⟨rfl, size, productions⟩ := addHelper_eq_ok added
  have start : Gains (fun _ _ _ => False) before start :=
    gains_nothing productions (fun ran => unchecked ▸ ran) fun _ _ _ => id
  refine ⟨⟨?_, ?_⟩, Alternative.weighs_repetition.congr fun _ _ => Scope.reads_repetition_iff⟩
  · rw [(addRepetition_eq_ok repeated).1, inner.adds.size, size, Rule.repeated, List.length_cons]
    omega
  · refine ((start.trans inner.adds.gains).trans (gains_addRepetition inner.weighs repeated)).congr
      fun lhs rhs values => ?_
    rw [Rule.repeated, Scope.repeats_cons, size, false_or, or_comm]

/-- The value of a dynamic precedence is added to the alternatives of its content. -/
theorem Expands.dynamic {value : Int} {content : Rule} {between : Expansion}
    (inner : Expands scope owner content before alternatives between)
    (noted : note (alternatives.any fun alternative =>
      Alternative.overflows alternative.dynamicPrecedence value) between = (.ok (), after)) :
    Expands scope owner (.precedence .dynamic value content) before
      (alternatives.map (Alternative.addDynamic value)) after := by
  obtain ⟨adds, earlier⟩ := inner.adds.note noted
  exact ⟨adds, (inner.weighs.addDynamic earlier).congr fun _ _ => Scope.reads_dynamic_iff⟩

mutual

/-- The expansion of a rule finds every way to read it, with what the dynamic precedences come to. -/
theorem expands_expand {rule : Rule} {before after : Expansion} {alternatives : List Alternative}
    (made : expand scope owner rule before = (.ok alternatives, after)) :
    Expands scope owner rule before alternatives after := by
  cases rule with
  | blank =>
      cases made
      exact expands_alone rfl fun _ _ => Scope.reads_blank_iff
  | string value => exact expands_part rfl rfl made
  | pattern value flags => exact expands_part rfl rfl made
  | token immediate content => exact expands_part rfl rfl made
  | aliased value named content =>
      unfold expand at made
      split at made
      · next token => exact expands_part token (if_pos token) made
      · next other =>
          have inner : Expands scope owner content before alternatives after := expands_expand made
          exact inner.through (if_neg other) fun _ _ =>
            Scope.reads_aliased_iff (Bool.eq_false_iff.2 other)
  | field name content =>
      have inner : Expands scope owner content before alternatives after := expands_expand made
      exact inner.through rfl fun _ _ => Scope.reads_field_iff
  | symbol name => exact expands_name made
  | seq members =>
      obtain ⟨adds, weighs⟩ := expands_expandSeq (Alternative.weighs_alone []) made
      refine ⟨adds, weighs.congr fun symbols values => Scope.reads_seq_iff.trans ⟨fun all => ?_, ?_⟩⟩
      · exact ⟨[], symbols, [], values, ⟨rfl, rfl⟩, all, rfl, rfl⟩
      · rintro ⟨_, _, _, _, ⟨rfl, rfl⟩, all, rfl, rfl⟩
        exact all
  | choice members =>
      cases members with
      | nil =>
          cases made
          exact expands_alone rfl fun _ _ => Scope.reads_choice_nil_iff
      | cons member rest =>
          have joined : expandChoice scope owner (member :: rest) before =
              (.ok alternatives, after) := made
          obtain ⟨adds, weighs⟩ := expands_expandChoice joined
          exact ⟨adds, weighs.congr fun _ _ => Scope.reads_choice_cons_iff⟩
  | repetition atLeastOnce content =>
      obtain ⟨helper, start, middle, inside, added, expanded, repeated, rfl⟩ :=
        repetition_eq_ok made
      exact (expands_expand expanded).repetition added repeated
  | precedence kind value content =>
      cases kind with
      | static associativity =>
          obtain ⟨inside, between, expanded, ⟨⟩⟩ := bind_eq_ok.1 made
          obtain ⟨adds, weighs⟩ := expands_expand expanded
          exact ⟨adds, (weighs.withPrecedence value associativity).congr fun _ _ =>
            Scope.reads_static_iff⟩
      | dynamic =>
          obtain ⟨inside, between, expanded, rest⟩ := bind_eq_ok.1 made
          obtain ⟨⟨⟩, _, noted, ⟨⟩⟩ := bind_eq_ok.1 rest
          exact (expands_expand expanded).dynamic noted

/-- The expansion of a sequence finds every way to read it after what comes before. -/
theorem expands_expandSeq {members : List Rule} {given alternatives : List Alternative}
    {before after : Expansion} {reads : List Symbol → List Int → Prop}
    (weighs : Alternative.Weighs (before.overflowed = false) given reads)
    (made : expandSeq scope owner given members before = (.ok alternatives, after)) :
    Adds scope owner (Rule.repeatedAll members) before after ∧
      Alternative.Weighs (after.overflowed = false) alternatives fun symbols values =>
        ∃ first second inside later, reads first inside ∧
          scope.ReadsAll owner before.symbols.size members second later ∧
            symbols = first ++ second ∧ values = inside ++ later := by
  cases members with
  | nil =>
      cases made
      refine ⟨.nil before, weighs.congr fun symbols values => ⟨?_, fun read => ?_⟩⟩
      · rintro ⟨first, second, inside, later, read, all, rfl, rfl⟩
        obtain ⟨rfl, rfl⟩ := Scope.readsAll_nil_iff.1 all
        rwa [List.append_nil, List.append_nil]
      · exact ⟨symbols, [], values, [], read, .nil, (List.append_nil _).symm,
          (List.append_nil _).symm⟩
  | cons member rest =>
      obtain ⟨inside, between, expanded, there⟩ := bind_eq_ok.1 made
      obtain ⟨⟨⟩, noted, overflow, there⟩ := bind_eq_ok.1 there
      obtain ⟨inner, read⟩ := expands_expand expanded
      obtain ⟨adds, earlier⟩ := inner.note overflow
      obtain ⟨more, whole⟩ :=
        expands_expandSeq ((weighs.mono inner.gains.checked).product read earlier) there
      refine ⟨adds.append more, whole.congr fun symbols values => ?_⟩
      simp only [Scope.readsAll_cons_iff, adds.size]
      constructor
      · rintro ⟨first, _, inside, _, left, ⟨second, third, later, last, right, all, rfl, rfl⟩,
          rfl, rfl⟩
        exact ⟨_, third, _, last, ⟨first, second, inside, later, left, right, rfl, rfl⟩, all,
          (List.append_assoc ..).symm, (List.append_assoc ..).symm⟩
      · rintro ⟨_, third, _, last, ⟨first, second, inside, later, left, right, rfl, rfl⟩, all,
          rfl, rfl⟩
        exact ⟨first, _, inside, _, left, ⟨second, third, later, last, right, all, rfl, rfl⟩,
          List.append_assoc .., List.append_assoc ..⟩

/-- The expansion of a choice finds every way to read any of the members. -/
theorem expands_expandChoice {members : List Rule} {alternatives : List Alternative}
    {before after : Expansion}
    (made : expandChoice scope owner members before = (.ok alternatives, after)) :
    Adds scope owner (Rule.repeatedAll members) before after ∧
      Alternative.Weighs (after.overflowed = false) alternatives
        (scope.ReadsAny owner before.symbols.size members) := by
  cases members with
  | nil =>
      cases made
      refine ⟨.nil before, List.forall_mem_nil _, ?_, ?_⟩
      · intro symbols values any
        cases any
      · intro _ symbols values any
        cases any
  | cons member rest =>
      obtain ⟨inside, between, expanded, there⟩ := bind_eq_ok.1 made
      obtain ⟨others, last, joined, ⟨⟩⟩ := bind_eq_ok.1 there
      obtain ⟨adds, weighs⟩ := expands_expand expanded
      obtain ⟨more, others⟩ := expands_expandChoice joined
      exact ⟨adds.append more, ((weighs.mono more.gains.checked).append (adds.size ▸ others)).congr fun _ _ =>
        Scope.readsAny_cons_iff⟩

end

end Expand

section Rules

variable {lhs : Symbol} {rhs : List Symbol} {values : List Int} {nonterminal helper : Nat}

theorem Scope.not_prefers_nil : ¬ scope.Prefers nonterminal helper [] lhs rhs values := by
  rintro ⟨index, name, rule, found, -⟩
  cases found

theorem Scope.prefers_cons {name : String} {rule : Rule} {rest : List (String × Rule)} :
    scope.Prefers nonterminal helper ((name, rule) :: rest) lhs rhs values ↔
      (lhs = .ofIndex nonterminal ∧ scope.Reads name helper rule rhs values ∨
        scope.Repeats name helper rule.repeated lhs rhs values) ∨
      scope.Prefers (nonterminal + 1) (helper + rule.repeated.length) rest lhs rhs values := by
  constructor
  · rintro ⟨_ | index, other, otherRule, found, sides⟩
    · cases found
      exact .inl sides
    · refine .inr ⟨index, other, otherRule, found, ?_⟩
      rwa [List.take_succ_cons, List.map_cons, Rule.repeatedAll, List.length_append,
        ← Nat.add_assoc helper, Nat.add_comm index, ← Nat.add_assoc nonterminal] at sides
  · rintro (sides | ⟨index, other, otherRule, found, sides⟩)
    · exact ⟨0, name, rule, rfl, sides⟩
    · refine ⟨index + 1, other, otherRule, found, ?_⟩
      rwa [List.take_succ_cons, List.map_cons, Rule.repeatedAll, List.length_append,
        ← Nat.add_assoc helper, Nat.add_comm index, ← Nat.add_assoc nonterminal]

/-- What comes of expanding a rule: the productions of its nonterminal and of the helpers of its
repetitions. -/
theorem gains_expandRule {nonterminal : Symbol} {name : String} {rule : Rule}
    {before after : Expansion}
    (made : expandRule scope (nonterminal, name, rule) before = (.ok (), after)) :
    after.symbols.size = before.symbols.size + rule.repeated.length ∧
      Gains (fun lhs rhs values =>
        lhs = nonterminal ∧ scope.Reads name before.symbols.size rule rhs values ∨
          scope.Repeats name before.symbols.size rule.repeated lhs rhs values) before after := by
  obtain ⟨alternatives, stop, expanded, ⟨⟩⟩ := bind_eq_ok.1 made
  obtain ⟨adds, weighs⟩ := expands_expand expanded
  exact ⟨(congrArg Array.size (symbols_addProductions ..)).trans adds.size,
    (adds.gains.trans (gains_addProductions weighs)).congr fun _ _ _ => or_comm⟩

/-- What comes of expanding rules: productions for the alternatives of the rules. -/
theorem gains_expandRules {rules : List (String × Rule)} {offset : Nat} {before after : Expansion}
    (made : ((rules.zipIdx offset).map fun ((name, rule), index) =>
      (Symbol.ofIndex (scope.terminalCount + index), name, rule)).forM (expandRule scope) before =
        (.ok (), after)) :
    Gains (scope.Prefers (scope.terminalCount + offset) before.symbols.size rules) before after := by
  induction rules generalizing offset before with
  | nil =>
      cases made
      exact gains_nothing rfl id fun _ _ _ => Scope.not_prefers_nil
  | cons entry rest induction =>
      obtain ⟨name, rule⟩ := entry
      obtain ⟨⟨⟩, between, here, there⟩ := bind_eq_ok.1 made
      obtain ⟨size, gains⟩ := gains_expandRule here
      refine (gains.trans (induction there)).congr fun lhs rhs values => ?_
      rw [size]
      exact Scope.prefers_cons

end Rules

end Adds

end Expansion

namespace Description

/-- The dynamic precedences of the productions of a plain grammar are what those around the parts of
alternatives of the rules come to.  If no addition overflowed, they are the sums. -/
theorem toPlain_dynamicPrecedence {description : Description} {plain : PlainGrammar}
    (made : description.toPlain = .ok plain) :
    ∃ named terminals, Terminals.ofRules description = .ok named ∧
      description.collectTerminals named = .ok terminals ∧
      let rules := description.nonterminals named
      let scope : Expansion.Scope := ⟨terminals, rules.map Prod.fst⟩
      let prefers := scope.Prefers scope.terminalCount (scope.terminalCount + rules.length) rules
      (∀ lhs rhs weighed, (∃ source ∈ plain.productions, source.lhs = lhs ∧ source.rhs = rhs ∧
          source.dynamicPrecedence = weighed) ↔
        ∃ values, prefers lhs rhs values ∧ Alternative.total values = weighed) ∧
      (description.overflows = false → ∀ lhs rhs values, prefers lhs rhs values →
        Alternative.total values = values.sum) := by
  obtain ⟨scope, expansion, conflicts, expanded, -, rfl⟩ := exists_expansion made
  obtain ⟨named, terminals, -, namedMade, terminalsMade, rfl, ran⟩ := expansion_eq_ok expanded
  have gains := Expansion.gains_expandRules ran
  rw [Expansion.size_start] at gains
  refine ⟨named, terminals, namedMade, terminalsMade, fun lhs rhs weighed => ?_, fun checked => ?_⟩
  · have none : ¬ (Expansion.start terminals (description.nonterminals named)).Stores lhs rhs weighed :=
      fun ⟨_, member, _⟩ => Array.not_mem_empty _ member
    refine Iff.trans ?_ ((gains.stores lhs rhs weighed).trans (or_iff_right none))
    simp only [Expansion.plain, Array.mem_toList_iff, Expansion.Stores]
  · rw [overflows, expanded] at checked
    exact gains.exact checked

/-- The dynamic precedence that is stored with a production is the sum of those around the parts of
the alternative that the production came of, or the nearest one that fits, as long as the sum is one
of 32 bits; beyond them, the sum loses all bits but the lowest 32 before it is stored.  Every
alternative of the rules has its production.  If no addition overflows on the way, all sums are of 32
bits. -/
theorem compile_dynamicPrecedence {description : Description} {compiled : Compiled}
    (made : description.compile = .ok compiled) :
    ∃ named terminals plain, Terminals.ofRules description = .ok named ∧
      description.collectTerminals named = .ok terminals ∧ description.toPlain = .ok plain ∧
      let rules := description.nonterminals named
      let scope : Expansion.Scope := ⟨terminals, rules.map Prod.fst⟩
      let prefers := scope.Prefers scope.terminalCount (scope.terminalCount + rules.length) rules
      List.Forall₂ (fun source stored =>
        stored.lhs = source.lhs ∧ stored.length.toNat = source.rhs.length ∧
          ∃ values, prefers source.lhs source.rhs values ∧
            source.dynamicPrecedence = values.sum.bmod 4294967296 ∧
            stored.dynamicPrecedence.toInt =
              max (-32768) (min 32767 (values.sum.bmod 4294967296)) ∧
            (-2147483648 ≤ values.sum → values.sum ≤ 2147483647 →
              stored.dynamicPrecedence.toInt = max (-32768) (min 32767 values.sum)))
        plain.productions compiled.grammar.data.productions ∧
      (∀ lhs rhs values, prefers lhs rhs values → ∃ source ∈ plain.productions,
        source.lhs = lhs ∧ source.rhs = rhs ∧
          source.dynamicPrecedence = values.sum.bmod 4294967296) ∧
      (description.overflows = false → ∀ lhs rhs values, prefers lhs rhs values →
        -2147483648 ≤ values.sum ∧ values.sum ≤ 2147483647) := by
  obtain ⟨plain, table, plainMade, comes⟩ := compile_comesFrom made
  obtain ⟨named, terminals, namedMade, terminalsMade, prefers, checked⟩ :=
    toPlain_dynamicPrecedence plainMade
  refine ⟨named, terminals, plain, namedMade, terminalsMade, plainMade, ?_, ?_, ?_⟩
  · refine List.forall₂_iff_get.2 ⟨comes.productions.length_eq, fun index inside storedInside => ?_⟩
    have stored := comes.productions.get inside storedInside
    obtain ⟨lhs, length, precedence⟩ := PlainProduction.compile_eq_ok stored
    obtain ⟨values, read, weighed⟩ :=
      (prefers _ _ _).1 ⟨_, List.get_mem plain.productions ⟨index, inside⟩, rfl, rfl, rfl⟩
    rw [← weighed] at precedence
    refine ⟨lhs, length, values, read, weighed.symm.trans Int32.toInt_ofInt,
      precedence.trans (congrArg _ (congrArg _ Int32.toInt_ofInt)), fun low high => ?_⟩
    rwa [Alternative.total_eq_sum low high] at precedence
  · intro lhs rhs values read
    exact (prefers lhs rhs _).2 ⟨values, read, Int32.toInt_ofInt⟩
  · intro ran lhs rhs values read
    rw [← checked ran lhs rhs values read]
    exact ⟨Int32.le_toInt _, Int.le_of_lt_add_one (Int32.toInt_lt _)⟩

/-- Texts of an `a`, a `b` and any number of `c`, each of them with a dynamic precedence, two of which
are too large together. -/
def weighted : Description :=
  ⟨"weighted", [("s", .precedence .dynamic 5 (.seq [.precedence .dynamic 30000 (.string "a"),
    .precedence .dynamic 30000 (.string "b"),
    .repetition false (.precedence .dynamic (-7) (.string "c"))]))], [], [], []⟩

/-- The precedences around an `a` and a `b` are added up and stored as the largest one, that of a `c`
is stored with the productions of the helper. -/
theorem compile_dynamicPrecedence_weighted :
    ∃ compiled plain, weighted.compile = .ok compiled ∧ weighted.toPlain = .ok plain ∧
      (compiled.grammar.data.productions.map fun stored => stored.dynamicPrecedence.toInt) =
        [-7, -7, 32767, 32767] ∧
      ∃ source ∈ plain.productions, source.lhs = .ofIndex 4 ∧
        source.rhs = [.ofIndex 1, .ofIndex 2, .ofIndex 5] ∧ source.dynamicPrecedence = 60005 := by
  have computed : (weighted.compile.toOption.any fun compiled => decide
      ((compiled.grammar.data.productions.map fun stored => stored.dynamicPrecedence.toInt) =
        [-7, -7, 32767, 32767])) = true := by decide +kernel
  obtain ⟨compiled, made, precedences⟩ := Except.exists_of_any computed
  obtain ⟨named, terminals, plain, namedMade, terminalsMade, plainMade, -, every, -⟩ :=
    compile_dynamicPrecedence made
  cases namedMade
  cases terminalsMade
  refine ⟨compiled, plain, made, plainMade, of_decide_eq_true precedences,
    every (.ofIndex 4) _ [5, 30000, 30000] ⟨0, "s", _, rfl, .inl ⟨rfl, .dynamic (.seq ?_)⟩⟩⟩
  change Expansion.Scope.ReadsAll _ _ _ _ ([.ofIndex 1] ++ ([.ofIndex 2] ++ ([.ofIndex 5] ++ [])))
    ([30000] ++ ([30000] ++ ([] ++ [])))
  exact .cons (.dynamic (.part rfl rfl)) (.cons (.dynamic (.part rfl rfl)) (.cons .repeated .nil))

/-- Texts of an `a`, with the largest dynamic precedence and another one around it. -/
def brimming : Description :=
  ⟨"brimming", [("s", .precedence .dynamic 2147483647 (.seq [.precedence .dynamic 1 (.string "a")]))],
    [], [], []⟩

/-- The sum of the precedences around the `a` is too large for 32 bits.  What is left of it is
negative, so the smallest precedence is stored in place of the largest one. -/
theorem dynamicPrecedence_brimming :
    ∃ compiled named terminals, brimming.compile = .ok compiled ∧
      Terminals.ofRules brimming = .ok named ∧ brimming.collectTerminals named = .ok terminals ∧
      Expansion.Scope.Prefers ⟨terminals, ["s"]⟩ 2 3 (brimming.nonterminals named)
        (.ofIndex 2) [.ofIndex 1] [2147483647, 1] ∧
      (compiled.grammar.data.productions.map fun stored =>
        (stored.lhs, stored.dynamicPrecedence.toInt)) = [(.ofIndex 2, -32768)] ∧
      max (-32768) (min 32767 [2147483647, 1].sum) = (32767 : Int) ∧ brimming.overflows = true := by
  have computed : (brimming.compile.toOption.any fun compiled => decide
      ((compiled.grammar.data.productions.map fun stored =>
        (stored.lhs, stored.dynamicPrecedence.toInt)) = [(.ofIndex 2, -32768)])) = true := by
    decide +kernel
  obtain ⟨compiled, made, precedences⟩ := Except.exists_of_any computed
  have leaves : brimming.overflows = true := by decide +kernel
  refine ⟨compiled, _, _, made, rfl, rfl, ?_, of_decide_eq_true precedences, by decide, leaves⟩
  refine ⟨0, "s", _, rfl, .inl ⟨rfl, .dynamic (.seq ?_)⟩⟩
  change Expansion.Scope.ReadsAll _ _ _ _ ([.ofIndex 1] ++ []) ([1] ++ [])
  exact .cons (.dynamic (.part rfl rfl)) .nil

end Description

end IncrementalGlr
