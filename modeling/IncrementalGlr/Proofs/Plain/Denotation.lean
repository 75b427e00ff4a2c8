import IncrementalGlr.Proofs.Plain.Language
import IncrementalGlr.Proofs.Plain.Rewriting

/-!
# What rules denote

A rule expression denotes a language over the terminals of its description: sequences, choices and
repetitions are concatenation, union and iteration, and the rules of all nonterminals together
denote the least languages that satisfy them.  The productions that come of expanding the rules
derive exactly these languages.
-/

namespace IncrementalGlr

open scoped Computability

namespace Expansion

namespace Scope

variable (scope : Scope)

/-- The language of a token written inside a rule: just its terminal. -/
def tokenLanguage (owner : String) (rule : Rule) : Language Symbol :=
  match scope.terminal owner rule with
  | .ok symbol => {[symbol]}
  | .error _ => 0

/-- The language of a name, which is that of its nonterminal or just its terminal. -/
def nameLanguage (names : Nat → Language Symbol) (name : String) : Language Symbol :=
  match scope.nonterminals.findIdx? fun other => other == name with
  | some index => names index
  | none =>
    match scope.terminals.find? (.named name) with
    | some index => {[.ofIndex (index + 1)]}
    | none => 0

mutual

/-- The language of an expression in the rule of the given name, if the nonterminals have the given
ones. -/
def language (names : Nat → Language Symbol) (owner : String) : Rule → Language Symbol
  | .blank => 1
  | .string value => scope.tokenLanguage owner (.string value)
  | .pattern value flags => scope.tokenLanguage owner (.pattern value flags)
  | .token immediate content => scope.tokenLanguage owner (.token immediate content)
  | .aliased value named content =>
    if content.isToken then scope.tokenLanguage owner (.aliased value named content)
    else language names owner content
  | .field _ content => language names owner content
  | .symbol name => scope.nameLanguage names name
  | .seq members => languageSeq names owner members
  | .choice [] => 1
  | .choice (first :: rest) => language names owner first + languageChoice names owner rest
  | .repetition false content => (language names owner content)∗
  | .repetition true content => language names owner content * (language names owner content)∗
  | .precedence _ _ content => language names owner content

/-- The language of expressions one after the other. -/
def languageSeq (names : Nat → Language Symbol) (owner : String) : List Rule → Language Symbol
  | [] => 1
  | member :: rest => language names owner member * languageSeq names owner rest

/-- The language of a choice between expressions. -/
def languageChoice (names : Nat → Language Symbol) (owner : String) : List Rule → Language Symbol
  | [] => 0
  | member :: rest => language names owner member + languageChoice names owner rest

end

/-- Whether languages of the nonterminals have all that the rules call for. -/
def Satisfies (rules : List (String × Rule)) (names : Nat → Language Symbol) : Prop :=
  ∀ index name rule, rules[index]? = some (name, rule) →
    scope.language names name rule ≤ names index

/-- The languages that rules denote: the least ones that satisfy them. -/
def denotation (rules : List (String × Rule)) (index : Nat) : Language Symbol :=
  {word | ∀ names, scope.Satisfies rules names → word ∈ names index}

section Monotone

variable {scope : Scope} {smaller larger : Nat → Language Symbol}

theorem nameLanguage_mono
    (less : ∀ index < scope.nonterminals.length, smaller index ≤ larger index) (name : String) :
    scope.nameLanguage smaller name ≤ scope.nameLanguage larger name := by
  unfold nameLanguage
  split
  · next index position => exact less index (List.findIdx?_eq_some_iff_getElem.1 position).1
  · exact le_rfl

mutual

/-- Larger languages of the nonterminals make a larger language of an expression. -/
theorem language_mono
    (less : ∀ index < scope.nonterminals.length, smaller index ≤ larger index) {owner : String}
    (rule : Rule) : scope.language smaller owner rule ≤ scope.language larger owner rule := by
  cases rule with
  | blank => exact le_rfl
  | string value => exact le_rfl
  | pattern value flags => exact le_rfl
  | token immediate content => exact le_rfl
  | aliased value named content =>
      rw [language, language]
      by_cases token : content.isToken
      · rw [if_pos token, if_pos token]
      · rw [if_neg token, if_neg token]
        exact language_mono less content
  | field name content => exact language_mono less content
  | symbol name => exact nameLanguage_mono less name
  | seq members => exact languageSeq_mono less members
  | choice members =>
      cases members with
      | nil => exact le_rfl
      | cons first rest =>
          exact add_le_add (language_mono less first) (languageChoice_mono less rest)
  | repetition atLeastOnce content =>
      have part : scope.language smaller owner content ≤ scope.language larger owner content :=
        language_mono less content
      cases atLeastOnce with
      | true => exact mul_le_mul' part (kstar_mono part)
      | false => exact kstar_mono part
  | precedence kind value content => exact language_mono less content

theorem languageSeq_mono
    (less : ∀ index < scope.nonterminals.length, smaller index ≤ larger index) {owner : String}
    (rules : List Rule) :
    scope.languageSeq smaller owner rules ≤ scope.languageSeq larger owner rules := by
  cases rules with
  | nil => exact le_rfl
  | cons rule rest => exact mul_le_mul' (language_mono less rule) (languageSeq_mono less rest)

theorem languageChoice_mono
    (less : ∀ index < scope.nonterminals.length, smaller index ≤ larger index) {owner : String}
    (rules : List Rule) :
    scope.languageChoice smaller owner rules ≤ scope.languageChoice larger owner rules := by
  cases rules with
  | nil => exact le_rfl
  | cons rule rest => exact add_le_add (language_mono less rule) (languageChoice_mono less rest)

end

end Monotone

end Scope

/-- The language of several sequences of symbols with the given languages. -/
def sidesLanguage (meaning : Symbol → Language Symbol) (forms : List (List Symbol)) :
    Language Symbol :=
  (forms.map fun form => (form.map meaning).prod).sum

section Sides

variable {meaning : Symbol → Language Symbol}

theorem sidesLanguage_append (left right : List (List Symbol)) :
    sidesLanguage meaning (left ++ right) =
      sidesLanguage meaning left + sidesLanguage meaning right := by
  rw [sidesLanguage, List.map_append, List.sum_append]
  rfl

theorem sidesLanguage_blank : sidesLanguage meaning (Alternative.forms [.blank]) = 1 := by
  simp [sidesLanguage, Alternative.forms, Alternative.blank]

theorem sidesLanguage_single (symbol : Symbol) :
    sidesLanguage meaning (Alternative.forms [.single symbol]) = meaning symbol := by
  simp [sidesLanguage, Alternative.forms, Alternative.single]

theorem sidesLanguage_prefix (first : List Symbol) (forms : List (List Symbol)) :
    sidesLanguage meaning (forms.map (first ++ ·)) =
      (first.map meaning).prod * sidesLanguage meaning forms := by
  induction forms with
  | nil => simp [sidesLanguage]
  | cons form rest induction =>
      rw [sidesLanguage, sidesLanguage] at induction ⊢
      rw [List.map_cons, List.map_cons, List.sum_cons, induction, List.map_append,
        List.prod_append, List.map_cons, List.sum_cons, mul_add]

theorem sidesLanguage_product (left right : List (List Symbol)) :
    sidesLanguage meaning (left.flatMap fun first => right.map (first ++ ·)) =
      sidesLanguage meaning left * sidesLanguage meaning right := by
  induction left with
  | nil => simp [sidesLanguage]
  | cons first rest induction =>
      rw [List.flatMap_cons, sidesLanguage_append, sidesLanguage_prefix, induction, ← add_mul]
      rfl

end Sides

/-- Whether a comparison of languages goes through all ways to put languages together. -/
structure Compares (compares : Language Symbol → Language Symbol → Prop) : Prop where
  /-- Every language compares with itself. -/
  refl (language : Language Symbol) : compares language language
  /-- Comparisons are put one after the other. -/
  trans {first second third : Language Symbol} :
    compares first second → compares second third → compares first third
  /-- Unions are compared by their parts. -/
  add {first second third fourth : Language Symbol} :
    compares first second → compares third fourth → compares (first + third) (second + fourth)
  /-- Concatenations are compared by their parts. -/
  mul {first second third fourth : Language Symbol} :
    compares first second → compares third fourth → compares (first * third) (second * fourth)
  /-- Iterations are compared by their parts. -/
  star {first second : Language Symbol} : compares first second → compares first∗ second∗

theorem compares_le : Compares (· ≤ ·) :=
  ⟨le_refl, le_trans, add_le_add, mul_le_mul', fun less => kstar_mono less⟩

theorem compares_ge : Compares (· ≥ ·) :=
  ⟨le_refl, fun first second => second.trans first, add_le_add, mul_le_mul',
    fun less => kstar_mono less⟩

/-- Whether symbols have the languages that a scope gives them. -/
structure Interprets (scope : Scope) (meaning : Symbol → Language Symbol)
    (names : Nat → Language Symbol) : Prop where
  /-- Terminals have their own languages. -/
  terminal : ∀ index < scope.terminals.list.length,
    meaning (.ofIndex (index + 1)) = {[.ofIndex (index + 1)]}
  /-- Nonterminals have the given languages. -/
  nonterminal : ∀ index < scope.nonterminals.length,
    meaning (.ofIndex (scope.terminalCount + index)) = names index

/-- Whether the languages of the helpers of repetitions compare with the iterations that they stand
for. -/
def ComparesHelpers (scope : Scope) (compares : Language Symbol → Language Symbol → Prop)
    (rewrites : Symbol → List Symbol → Prop) (meaning : Symbol → Language Symbol) : Prop :=
  ∀ helper forms, scope.terminalCount ≤ helper.index →
    (∀ rhs, rewrites helper rhs ↔ ∃ form ∈ forms, rhs = helper :: form ∨ rhs = form) →
    compares (meaning helper) (sidesLanguage meaning forms * (sidesLanguage meaning forms)∗)

section Expand

variable {scope : Scope} {compares : Language Symbol → Language Symbol → Prop}
  {meaning : Symbol → Language Symbol} {names : Nat → Language Symbol}
  {rewrites : Symbol → List Symbol → Prop}

theorem Interprets.terminal_eq (interprets : Interprets scope meaning names) {owner : String}
    {rule : Rule} {symbol : Symbol} (found : scope.terminal owner rule = .ok symbol) :
    meaning symbol = scope.tokenLanguage owner rule := by
  rw [Scope.tokenLanguage, found]
  obtain ⟨⟨key, info⟩, -, rest⟩ := Except.bind_eq_ok.1 found
  dsimp only at rest
  split at rest
  · next index position =>
      cases rest
      exact interprets.terminal index (List.findIdx?_eq_some_iff_getElem.1 position).1
  · cases rest

theorem Interprets.name_eq (interprets : Interprets scope meaning names) {name : String}
    {symbol : Symbol} (found : scope.symbol? name = some symbol) :
    meaning symbol = scope.nameLanguage names name := by
  unfold Scope.symbol? at found
  unfold Scope.nameLanguage
  cases position : scope.nonterminals.findIdx? fun other => other == name with
  | some index =>
      rw [position] at found
      obtain rfl := Option.some.inj found
      exact interprets.nonterminal index (List.findIdx?_eq_some_iff_getElem.1 position).1
  | none =>
      rw [position] at found
      obtain ⟨index, listed, rfl⟩ := Option.map_eq_some_iff.1 found
      rw [listed]
      exact interprets.terminal index (List.findIdx?_eq_some_iff_getElem.1 listed).1

/-- Whether an expansion is part of a larger one, which may replace the helpers as it does. -/
structure Covers (scope : Scope) (rewrites : Symbol → List Symbol → Prop)
    (before after : Expansion) : Prop where
  /-- The symbols fit their ids. -/
  small : after.symbols.size ≤ 65535
  /-- Only symbols that exist are replaced at first. -/
  closed : before.Closed
  /-- Terminals are no helpers. -/
  terminals : scope.terminalCount ≤ before.symbols.size
  /-- The new helpers are replaced as in the larger expansion. -/
  same : ∀ symbol rhs, before.symbols.size ≤ symbol.index → symbol.index < after.symbols.size →
    (rewrites symbol rhs ↔ after.Rewrites symbol rhs)

section Covered

variable {before between after : Expansion}

theorem Covers.left (covers : Covers scope rewrites before after)
    (extends_ : between.Extends after) : Covers scope rewrites before between :=
  ⟨Nat.le_trans extends_.size covers.small, covers.closed, covers.terminals,
    fun symbol rhs new inside =>
      (covers.same symbol rhs new (Nat.lt_of_lt_of_le inside extends_.size)).trans
        (extends_.same symbol rhs inside)⟩

theorem Covers.right (covers : Covers scope rewrites before after)
    (extends_ : before.Extends between) : Covers scope rewrites between after :=
  ⟨covers.small, extends_.closed covers.closed, Nat.le_trans covers.terminals extends_.size,
    fun symbol rhs new inside => covers.same symbol rhs (Nat.le_trans extends_.size new) inside⟩

end Covered

/-- What surrounds the content of a repetition covers it, and the helper stands for the
iterations. -/
theorem Covers.repetition {owner : String} {helper : Symbol} {alternatives : List Alternative}
    {before start middle after : Expansion} (covers : Covers scope rewrites before after)
    (added : addHelper owner before = (.ok helper, start)) (extends_ : start.Extends middle)
    (repeated : addRepetition helper alternatives middle = (.ok (), after)) :
    Covers scope rewrites start middle ∧ helper.index = before.symbols.size ∧
      ∀ rhs, rewrites helper rhs ↔
        ∃ form ∈ Alternative.forms alternatives, rhs = helper :: form ∨ rhs = form := by
  obtain ⟨rfl, size, productions⟩ := addHelper_eq_ok added
  obtain ⟨symbols, replaced⟩ := addRepetition_eq_ok repeated
  have larger := extends_.size
  have small := covers.small
  rw [symbols] at small
  have place : (Symbol.ofIndex before.symbols.size).index = before.symbols.size :=
    Symbol.index_ofIndex (by omega)
  have startRewrites : ∀ symbol rhs, start.Rewrites symbol rhs ↔ before.Rewrites symbol rhs :=
    fun symbol rhs => by rw [Rewrites, Rewrites, productions]
  refine ⟨⟨small, fun symbol rhs held => ?_, ?_, fun symbol rhs new inside => ?_⟩, place,
    fun rhs => ?_⟩
  · have inside := covers.closed symbol rhs ((startRewrites symbol rhs).1 held)
    omega
  · have terminals := covers.terminals
    omega
  · rw [covers.same symbol rhs (by omega) (symbols ▸ inside), replaced]
    refine or_iff_left fun added => ?_
    rw [added.1, place] at new
    omega
  · rw [covers.same _ rhs place.ge (by rw [symbols, place]; omega), replaced,
      extends_.same _ rhs (by rw [place]; omega), startRewrites]
    refine (or_iff_right fun held => ?_).trans (and_iff_right rfl)
    have inside := covers.closed _ rhs held
    omega

/-- Whether the languages of the alternatives that a step gives compare with a language, if helpers
may be replaced as the step leaves them. -/
def Denotes (scope : Scope) (compares : Language Symbol → Language Symbol → Prop)
    (rewrites : Symbol → List Symbol → Prop) (meaning : Symbol → Language Symbol)
    (step : Step (List Alternative)) (language : Language Symbol) : Prop :=
  ∀ before after alternatives, step before = (.ok alternatives, after) →
    Covers scope rewrites before after →
      compares (sidesLanguage meaning (Alternative.forms alternatives)) language

section Constructors

variable (laws : Compares compares) {owner : String} {language others : Language Symbol}

include laws

theorem denotes_pure {alternatives : List Alternative}
    (same : sidesLanguage meaning (Alternative.forms alternatives) = language) :
    Denotes scope compares rewrites meaning (pure alternatives) language := by
  rintro before _ _ ⟨⟩ -
  exact same ▸ laws.refl _

theorem denotes_terminal (interprets : Interprets scope meaning names) (rule : Rule) :
    Denotes scope compares rewrites meaning
      (do return [Alternative.single (← scope.terminal owner rule)])
      (scope.tokenLanguage owner rule) := by
  intro before after alternatives expanded covers
  obtain ⟨symbol, between, found, ⟨⟩⟩ := bind_eq_ok.1 expanded
  rw [sidesLanguage_single, interprets.terminal_eq (congrArg Prod.fst found)]
  exact laws.refl _

theorem denotes_name (interprets : Interprets scope meaning names) (name : String) :
    Denotes scope compares rewrites meaning (expand scope owner (.symbol name))
      (scope.nameLanguage names name) := by
  unfold expand
  split
  · next symbol found =>
      exact denotes_pure laws ((sidesLanguage_single symbol).trans (interprets.name_eq found))
  · intro before after alternatives failed
    cases failed

/-- The alternatives of a choice are those of its members. -/
theorem denotes_union {first : Rule} {rest : List Rule}
    (here : Denotes scope compares rewrites meaning (expand scope owner first) language)
    (there : Denotes scope compares rewrites meaning (expandChoice scope owner rest) others) :
    Denotes scope compares rewrites meaning (expandChoice scope owner (first :: rest))
      (language + others) := by
  intro before after alternatives expanded covers
  obtain ⟨firstAlternatives, between, firstExpanded, expanded⟩ := bind_eq_ok.1 expanded
  obtain ⟨restAlternatives, _, restExpanded, ⟨⟩⟩ := bind_eq_ok.1 expanded
  have later := extending_expandChoice scope owner rest _ _ _ restExpanded covers.small
  have earlier := extending_expand scope owner first _ _ _ firstExpanded
    (Nat.le_trans later.size covers.small)
  rw [Alternative.forms_append, sidesLanguage_append]
  exact laws.add (here _ _ _ firstExpanded (covers.left later))
    (there _ _ _ restExpanded (covers.right earlier))

/-- A sequence goes on with the products of what is before it and its first member. -/
theorem denotes_concat {first : Rule} {rest : List Rule} {earlier : List Alternative}
    (here : Denotes scope compares rewrites meaning (expand scope owner first) language)
    (there : ∀ joined, Denotes scope compares rewrites meaning (expandSeq scope owner joined rest)
      (sidesLanguage meaning (Alternative.forms joined) * others)) :
    Denotes scope compares rewrites meaning (expandSeq scope owner earlier (first :: rest))
      (sidesLanguage meaning (Alternative.forms earlier) * (language * others)) := by
  intro before after alternatives expanded covers
  obtain ⟨inner, between, firstExpanded, expanded⟩ := bind_eq_ok.1 expanded
  obtain ⟨⟨⟩, noted, overflow, restExpanded⟩ := bind_eq_ok.1 expanded
  have later := (extends_note overflow).trans
    (extending_expandSeq scope owner _ rest _ _ _ restExpanded covers.small)
  have sooner := (extending_expand scope owner first _ _ _ firstExpanded
    (Nat.le_trans later.size covers.small)).trans (extends_note overflow)
  have part := here _ _ _ firstExpanded (covers.left later)
  have remains := there _ _ _ _ restExpanded (covers.right sooner)
  rw [Alternative.forms_product, sidesLanguage_product, mul_assoc] at remains
  exact laws.trans remains (laws.mul (laws.refl _) (laws.mul part (laws.refl _)))

/-- A repetition is its helper, which stands for the iterations. -/
theorem denotes_repetition (helpers : ComparesHelpers scope compares rewrites meaning)
    {atLeastOnce : Bool} {content : Rule}
    (inner : Denotes scope compares rewrites meaning (expand scope owner content)
      (scope.language names owner content)) :
    Denotes scope compares rewrites meaning (expand scope owner (.repetition atLeastOnce content))
      (scope.language names owner (.repetition atLeastOnce content)) := by
  intro before after alternatives expanded covers
  obtain ⟨helper, start, middle, alternatives, added, here, repeated, rfl⟩ :=
    repetition_eq_ok expanded
  have extends_ := extending_expand scope owner content _ _ _ here
    ((addRepetition_eq_ok repeated).1 ▸ covers.small)
  obtain ⟨covered, place, rewritten⟩ := covers.repetition added extends_ repeated
  have part := inner _ _ _ here covered
  have iterated := laws.trans (helpers helper _ (place ▸ covers.terminals) rewritten)
    (laws.mul part (laws.star part))
  cases atLeastOnce with
  | true =>
      rw [if_pos rfl, sidesLanguage_single]
      exact iterated
  | false =>
      have forms : Alternative.forms [.blank, .single helper] =
        Alternative.forms [.blank] ++ Alternative.forms [.single helper] := rfl
      rw [if_neg Bool.false_ne_true, forms, sidesLanguage_append, sidesLanguage_blank,
        sidesLanguage_single]
      have whole := laws.add (laws.refl 1) iterated
      rw [Language.one_add_self_mul_kstar_eq_kstar] at whole
      exact whole

omit laws in
/-- Precedences do not change what is read. -/
theorem denotes_precedence {kind : PrecedenceKind} {value : Int} {content : Rule}
    (inner : Denotes scope compares rewrites meaning (expand scope owner content) language) :
    Denotes scope compares rewrites meaning (expand scope owner (.precedence kind value content))
      language := by
  intro before after alternatives expanded covers
  cases kind with
  | static associativity =>
      obtain ⟨alternatives, _, here, ⟨⟩⟩ := bind_eq_ok.1 expanded
      rw [Alternative.forms_withPrecedence]
      exact inner _ _ _ here covers
  | dynamic =>
      obtain ⟨alternatives, between, here, expanded⟩ := bind_eq_ok.1 expanded
      obtain ⟨⟨⟩, _, overflow, ⟨⟩⟩ := bind_eq_ok.1 expanded
      rw [Alternative.forms_addDynamic]
      exact inner _ _ _ here (covers.left (extends_note overflow))

end Constructors

mutual

/-- The languages of the alternatives of an expression compare with the language of the
expression. -/
theorem compares_expand (laws : Compares compares) (interprets : Interprets scope meaning names)
    (helpers : ComparesHelpers scope compares rewrites meaning) {owner : String} (rule : Rule) :
    Denotes scope compares rewrites meaning (expand scope owner rule)
      (scope.language names owner rule) := by
  cases rule with
  | blank => exact denotes_pure laws sidesLanguage_blank
  | string value => exact denotes_terminal laws interprets _
  | pattern value flags => exact denotes_terminal laws interprets _
  | token immediate content => exact denotes_terminal laws interprets _
  | aliased value named content =>
      rw [expand, Scope.language]
      by_cases token : content.isToken
      · rw [if_pos token, if_pos token]
        exact denotes_terminal laws interprets _
      · rw [if_neg token, if_neg token]
        exact compares_expand laws interprets helpers content
  | field name content => exact compares_expand laws interprets helpers content
  | symbol name => exact denotes_name laws interprets name
  | seq members =>
      have whole : Denotes scope compares rewrites meaning (expandSeq scope owner [.blank] members)
          _ := compares_expandSeq laws interprets helpers members [.blank]
      rw [sidesLanguage_blank, one_mul] at whole
      exact whole
  | choice members =>
      cases members with
      | nil => exact denotes_pure laws sidesLanguage_blank
      | cons first rest =>
          exact denotes_union laws (compares_expand laws interprets helpers first)
            (compares_expandChoice laws interprets helpers rest)
  | repetition atLeastOnce content =>
      exact denotes_repetition laws helpers (compares_expand laws interprets helpers content)
  | precedence kind value content =>
      exact denotes_precedence (compares_expand laws interprets helpers content)

/-- The languages of a sequence compare with what is before and the language of the rest. -/
theorem compares_expandSeq (laws : Compares compares) (interprets : Interprets scope meaning names)
    (helpers : ComparesHelpers scope compares rewrites meaning) {owner : String}
    (rules : List Rule) (earlier : List Alternative) :
    Denotes scope compares rewrites meaning (expandSeq scope owner earlier rules)
      (sidesLanguage meaning (Alternative.forms earlier) *
        scope.languageSeq names owner rules) := by
  cases rules with
  | nil => exact denotes_pure laws (mul_one _).symm
  | cons rule rest =>
      exact denotes_concat laws (compares_expand laws interprets helpers rule) fun joined =>
        compares_expandSeq laws interprets helpers rest joined

/-- The languages of a choice compare with the language of its members. -/
theorem compares_expandChoice (laws : Compares compares)
    (interprets : Interprets scope meaning names)
    (helpers : ComparesHelpers scope compares rewrites meaning) {owner : String}
    (rules : List Rule) :
    Denotes scope compares rewrites meaning (expandChoice scope owner rules)
      (scope.languageChoice names owner rules) := by
  cases rules with
  | nil => exact denotes_pure laws rfl
  | cons rule rest =>
      exact denotes_union laws (compares_expand laws interprets helpers rule)
        (compares_expandChoice laws interprets helpers rest)

end

end Expand

end Expansion

end IncrementalGlr
