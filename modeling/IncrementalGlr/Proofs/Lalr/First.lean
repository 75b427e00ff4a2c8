import IncrementalGlr.Lalr.First
import IncrementalGlr.Proofs.FixedPoint
import IncrementalGlr.Proofs.Plain.Language
import IncrementalGlr.Proofs.SymbolSet
import Mathlib.Data.Finset.Prod

/-!
# First terminals of what symbols derive

The passes over the productions end at a solution of their conditions, and every solution has the
first terminal of all that a string of symbols derives.  They make nothing hold but what the
productions make of it, so the solution is the least one and says exactly what can be derived.
-/

namespace IncrementalGlr

namespace PlainGrammar

/-- Whether a terminal can begin what is derived from symbols. -/
def StartsWith (plain : PlainGrammar) (symbols : List Symbol) (terminal : Symbol) : Prop :=
  plain.isTerminal terminal = true ∧ ∃ others, plain.Derives symbols (terminal :: others)

variable {plain : PlainGrammar}

/-- What begins symbols begins those among which they come behind such as may be empty. -/
theorem StartsWith.among {symbols before : List Symbol} {terminal : Symbol}
    (starts : plain.StartsWith symbols terminal) (empty : plain.Derives before [])
    (after : List Symbol) : plain.StartsWith (before ++ (symbols ++ after)) terminal := by
  obtain ⟨isTerminal, others, derives⟩ := starts
  exact ⟨isTerminal, others ++ after, empty.concat (derives.append [] after)⟩

end PlainGrammar

namespace Lalr

namespace FirstSets

/-- Whether tables have a row for each symbol, and only terminals in them. -/
structure Sized (symbols terminals : Nat) (sets : FirstSets) : Prop where
  /-- Whether each symbol derives the empty string. -/
  nullable : sets.nullable.size = symbols
  /-- The terminals that can begin what each symbol derives. -/
  first : sets.first.size = symbols
  /-- Only terminals begin anything. -/
  below : ∀ (index : Nat) set, sets.first[index]? = some set → set.Below terminals

/-- The facts that tables state: that a terminal begins what a symbol derives or, in the column
after the last terminal, that the symbol derives the empty string. -/
def States (terminals : Nat) (sets : FirstSets) (fact : Nat × Nat) : Prop :=
  (∃ set, sets.first[fact.1]? = some set ∧ set.mask.testBit fact.2 = true) ∨
    fact.2 = terminals ∧ sets.nullable[fact.1]? = some true

variable {symbols terminals : Nat} {sets : FirstSets}

theorem states_first {index terminal : Nat}
    (inside : terminal < terminals) :
    sets.States terminals (index, terminal) ↔
      ∃ set, sets.first[index]? = some set ∧ set.mask.testBit terminal = true :=
  or_iff_left fun other => absurd other.1 (Nat.ne_of_lt inside)

theorem states_nullable (sized : sets.Sized symbols terminals) {index : Nat} :
    sets.States terminals (index, terminals) ↔ sets.nullable[index]? = some true := by
  refine (or_iff_right ?_).trans (and_iff_right rfl)
  rintro ⟨set, found, member⟩
  exact Nat.lt_irrefl _ (sized.below index set found terminals member)

theorem described (symbols terminals : Nat) :
    Described (Sized symbols terminals) (States terminals)
      (Finset.range symbols ×ˢ Finset.range (terminals + 1)) := by
  constructor
  case ext =>
    intro left right leftSized rightSized same
    obtain ⟨leftNullable, leftFirst⟩ := left
    obtain ⟨rightNullable, rightFirst⟩ := right
    have nullable : leftNullable = rightNullable := by
      refine Array.ext (leftSized.nullable.trans rightSized.nullable.symm) fun index inside other => ?_
      have both := (states_nullable leftSized).symm.trans ((same (index, terminals)).trans
        (states_nullable rightSized))
      simp only [Array.getElem?_eq_getElem inside, Array.getElem?_eq_getElem other,
        Option.some.injEq] at both
      exact Bool.eq_iff_iff.2 both
    have first : leftFirst = rightFirst := by
      refine Array.ext (leftSized.first.trans rightSized.first.symm) fun index inside other => ?_
      refine (leftSized.below index _ (Array.getElem?_eq_getElem inside)).ext
        (rightSized.below index _ (Array.getElem?_eq_getElem other)) fun terminal less => ?_
      have both := (states_first less).symm.trans ((same (index, terminal)).trans
        (states_first less))
      simp only [Array.getElem?_eq_getElem inside, Array.getElem?_eq_getElem other,
        Option.some.injEq, exists_eq_left'] at both
      exact Bool.eq_iff_iff.2 both
    rw [nullable, first]
  case inside =>
    rintro sets sized ⟨index, terminal⟩ (⟨set, found, member⟩ | ⟨last, found⟩)
    · have row := (Array.getElem?_eq_some_iff.1 found).1
      have column := sized.below index set found terminal member
      have size := sized.first
      simp only [Finset.mem_product, Finset.mem_range]
      omega
    · have row := (Array.getElem?_eq_some_iff.1 found).1
      have size := sized.nullable
      simp only [Finset.mem_product, Finset.mem_range]
      omega

theorem below_firstOf (sized : sets.Sized symbols terminals) (symbol : Symbol) :
    (sets.firstOf symbol).Below terminals := by
  unfold firstOf
  cases found : sets.first[symbol.index]? with
  | none => exact SymbolSet.below_empty
  | some set => exact sized.below _ set found

theorem sized_addFirst (sized : sets.Sized symbols terminals) (lhs : Symbol) {set : SymbolSet}
    (below : set.Below terminals) : (sets.addFirst lhs set).Sized symbols terminals := by
  refine ⟨sized.nullable, (Array.size_modify ..).trans sized.first, fun index found here => ?_⟩
  rw [addFirst, Array.getElem?_modify] at here
  split at here
  · obtain ⟨old, known, rfl⟩ := Option.map_eq_some_iff.1 here
    exact (sized.below index old known).union below
  · exact sized.below index found here

theorem states_addFirst (lhs : Symbol) (set : SymbolSet) {fact : Nat × Nat}
    (known : sets.States terminals fact) : (sets.addFirst lhs set).States terminals fact := by
  refine known.imp_left fun ⟨old, found, member⟩ => ?_
  rw [addFirst, Array.getElem?_modify, found]
  split
  · refine ⟨old.union set, rfl, ?_⟩
    rw [SymbolSet.union, Nat.testBit_or, member, Bool.true_or]
  · exact ⟨old, rfl, member⟩

theorem inflates_addNullable (lhs : Symbol) :
    Inflates (Sized symbols terminals) (States terminals) fun sets => sets.addNullable lhs := by
  constructor
  case keeps =>
    exact fun sized => ⟨(Array.size_setIfInBounds ..).trans sized.nullable, sized.first,
      sized.below⟩
  case grows =>
    rintro sets sized fact (known | ⟨last, found⟩)
    · exact .inl known
    · refine .inr ⟨last, ?_⟩
      rw [addNullable, Array.getElem?_setIfInBounds]
      split
      · next same => rw [same, if_pos (Array.getElem?_eq_some_iff.1 found).1]
      · exact found

theorem inflates_addFirst (lhs symbol : Symbol) :
    Inflates (Sized symbols terminals) (States terminals)
      fun sets => sets.addFirst lhs (sets.firstOf symbol) :=
  ⟨fun sized => sized_addFirst sized lhs (below_firstOf sized symbol),
    fun _ _ known => states_addFirst lhs _ known⟩

theorem inflates_absorb (lhs : Symbol) (rhs : List Symbol) :
    Inflates (Sized symbols terminals) (States terminals) fun sets => absorb lhs sets rhs := by
  induction rhs with
  | nil => exact inflates_addNullable lhs
  | cons symbol rest induction =>
      exact (inflates_addFirst lhs symbol).comp (induction.ite fun sets => sets.isNullable symbol)

/-- Whether a word may begin like a string that begins with the given terminals or, if it says so,
is empty. -/
def Starts (word : List Symbol) (string : SymbolSet × Bool) : Prop :=
  match word with
  | [] => string.2 = true
  | terminal :: _ => string.1.contains terminal = true

/-- Whether tables solve the conditions of a grammar. -/
structure Solves (plain : PlainGrammar) (sets : FirstSets) : Prop where
  /-- Terminals begin with themselves. -/
  terminal : ∀ symbol, plain.isTerminal symbol = true → (sets.firstOf symbol).contains symbol = true
  /-- What begins like a right side begins like the left side. -/
  production : ∀ production ∈ plain.productions, ∀ word,
    Starts word (sets.ofString production.rhs) →
      Starts word (sets.firstOf production.lhs, sets.isNullable production.lhs)

theorem starts_of_absorb_fixed (sized : sets.Sized symbols terminals) {lhs : Symbol}
    (exists_ : lhs.index < symbols) {rhs word : List Symbol}
    (fixed : absorb lhs sets rhs = sets) (starts : Starts word (sets.ofString rhs)) :
    Starts word (sets.firstOf lhs, sets.isNullable lhs) := by
  induction rhs with
  | nil =>
      cases word with
      | nil =>
          have inside : lhs.index < sets.nullable.size := sized.nullable ▸ exists_
          change (sets.nullable[lhs.index]?).getD false = true
          rw [← fixed, absorb, addNullable, Array.getElem?_setIfInBounds_self_of_lt inside]
          rfl
      | cons terminal rest => cases @SymbolSet.below_empty 0 terminal.index starts
  | cons symbol rest induction =>
      obtain ⟨added, later⟩ := (inflates_addFirst lhs symbol).comp_fixed
        ((inflates_absorb lhs rest).ite fun sets => sets.isNullable symbol)
        (described symbols terminals) sized fixed
      have begins : ∀ terminal, (sets.firstOf symbol).contains terminal = true →
          (sets.firstOf lhs).contains terminal = true := by
        intro terminal member
        have inside : lhs.index < sets.first.size := sized.first ▸ exists_
        rw [← added, firstOf, addFirst, Array.getElem?_modify, if_pos rfl,
          Array.getElem?_eq_getElem inside]
        exact SymbolSet.contains_union.2 (.inr member)
      rw [ofString] at starts
      split at starts
      · next nullable =>
          rw [if_pos nullable] at later
          cases word with
          | nil => exact induction later starts
          | cons terminal others =>
              exact (SymbolSet.contains_union.1 starts).elim (begins terminal)
                (induction later)
      · cases word with
        | nil => cases starts
        | cons terminal others => exact begins terminal starts

theorem inflates_pass (plain : PlainGrammar) :
    Inflates (Sized plain.symbols.length plain.terminalCount) (States plain.terminalCount)
      (pass plain.productions) :=
  .foldl fun production _ => inflates_absorb production.lhs production.rhs

theorem sized_initial {plain : PlainGrammar} (numbered : plain.Numbered) :
    (initial plain.symbols.length plain.terminalCount).Sized plain.symbols.length
      plain.terminalCount := by
  have fits := numbered.terminals
  have small := numbered.small
  refine ⟨Array.size_replicate, by simp [initial], fun index set found => ?_⟩
  obtain ⟨other, known, rfl⟩ := Option.map_eq_some_iff.1 ((Array.getElem?_map ..).symm.trans found)
  obtain ⟨inside, rfl⟩ := Array.getElem?_eq_some_iff.1 known
  rw [Array.getElem_range]
  split
  · next less =>
      refine SymbolSet.below_singleton ?_
      rwa [Symbol.index_ofIndex (by omega)]
  · exact SymbolSet.below_empty

theorem sized_ofGrammar {plain : PlainGrammar} (numbered : plain.Numbered) :
    (ofGrammar plain).Sized plain.symbols.length plain.terminalCount :=
  ((inflates_pass plain).untilStable _).keeps (sized_initial numbered)

/-- Another pass adds nothing to the tables of a grammar. -/
theorem pass_ofGrammar {plain : PlainGrammar} (numbered : plain.Numbered) :
    pass plain.productions (ofGrammar plain) = ofGrammar plain :=
  (inflates_pass plain).iterateUntilStable_fixed (described _ _) (sized_initial numbered) (by simp)

/-- The tables of a grammar solve its conditions. -/
theorem solves_ofGrammar {plain : PlainGrammar} (numbered : plain.Numbered) :
    (ofGrammar plain).Solves plain := by
  have start := sized_initial numbered
  have sized := sized_ofGrammar numbered
  have fixed := pass_ofGrammar numbered
  constructor
  case terminal =>
    intro symbol terminal
    have inside : symbol.index < plain.terminalCount := by
      simpa [PlainGrammar.isTerminal] using terminal
    have known : (initial plain.symbols.length plain.terminalCount).States plain.terminalCount
        (symbol.index, symbol.index) := by
      refine .inl ⟨.singleton symbol, ?_, SymbolSet.contains_singleton symbol⟩
      have exists_ := Nat.lt_of_lt_of_le inside numbered.terminals
      have same : Symbol.ofIndex symbol.index = symbol :=
        Symbol.index_inj (Symbol.index_ofIndex symbol.index_lt)
      simp [initial, exists_, inside, same]
    obtain ⟨set, found, member⟩ := (states_first inside).1
      (((inflates_pass plain).untilStable _).grows start _ known)
    unfold firstOf ofGrammar
    rw [found]
    exact member
  case production =>
    intro production member word
    exact starts_of_absorb_fixed sized (numbered.exist production member)
      (Inflates.foldl_fixed (fun other _ => inflates_absorb other.lhs other.rhs) (described _ _)
        sized fixed production member)

variable {plain : PlainGrammar}

section Strings

variable {left right : List Symbol} {symbol terminal : Symbol}

@[simp]
theorem contains_ofString_nil : (sets.ofString []).1.contains terminal = false :=
  SymbolSet.contains_empty terminal

@[simp]
theorem nullable_ofString_nil : (sets.ofString []).2 = true := rfl

@[simp]
theorem contains_ofString_cons :
    (sets.ofString (symbol :: right)).1.contains terminal = true ↔
      (sets.firstOf symbol).contains terminal = true ∨
        sets.isNullable symbol = true ∧ (sets.ofString right).1.contains terminal = true := by
  rw [ofString]
  split
  · next nullable => simp [SymbolSet.contains_union, nullable]
  · next solid => simp [solid]

@[simp]
theorem nullable_ofString_cons :
    (sets.ofString (symbol :: right)).2 = true ↔
      sets.isNullable symbol = true ∧ (sets.ofString right).2 = true := by
  rw [ofString]
  split
  · next nullable => simp [nullable]
  · next solid => simp [solid]

@[simp]
theorem contains_ofString_append :
    (sets.ofString (left ++ right)).1.contains terminal = true ↔
      (sets.ofString left).1.contains terminal = true ∨
        (sets.ofString left).2 = true ∧ (sets.ofString right).1.contains terminal = true := by
  induction left with
  | nil => simp
  | cons symbol rest induction => simp [induction, and_or_left, or_assoc, and_assoc]

@[simp]
theorem nullable_ofString_append :
    (sets.ofString (left ++ right)).2 = true ↔
      (sets.ofString left).2 = true ∧ (sets.ofString right).2 = true := by
  induction left with
  | nil => simp
  | cons symbol rest induction => simp [induction, and_assoc]

/-- What begins a string begins one of its symbols, behind such as may be empty. -/
theorem exists_of_contains_ofString {symbols : List Symbol}
    (member : (sets.ofString symbols).1.contains terminal = true) :
    ∃ before symbol after, symbols = before ++ symbol :: after ∧
      (∀ other ∈ before, sets.isNullable other = true) ∧
        (sets.firstOf symbol).contains terminal = true := by
  induction symbols with
  | nil => simp at member
  | cons symbol rest induction =>
      rcases contains_ofString_cons.1 member with here | ⟨nullable, later⟩
      · exact ⟨[], symbol, rest, rfl, nofun, here⟩
      · obtain ⟨before, other, after, rfl, empty, inside⟩ := induction later
        exact ⟨symbol :: before, other, after, rfl, List.forall_mem_cons.2 ⟨nullable, empty⟩, inside⟩

theorem nullable_of_mem_ofString {symbols : List Symbol}
    (nullable : (sets.ofString symbols).2 = true) :
    ∀ symbol ∈ symbols, sets.isNullable symbol = true := by
  induction symbols with
  | nil => exact nofun
  | cons symbol rest induction =>
      obtain ⟨here, later⟩ := nullable_ofString_cons.1 nullable
      exact List.forall_mem_cons.2 ⟨here, induction later⟩

end Strings

/-- Whatever is derived from symbols begins as their tables say, if it begins with a terminal. -/
theorem Solves.starts_of_derives (solves : sets.Solves plain) {symbols word : List Symbol}
    (derives : plain.Derives symbols word)
    (terminal : ∀ first ∈ word.head?, plain.isTerminal first = true) :
    Starts word (sets.ofString symbols) := by
  induction derives using Relation.ReflTransGen.head_induction_on with
  | refl =>
      cases word with
      | nil => rfl
      | cons first others =>
          exact contains_ofString_cons.2 (.inl (solves.terminal first (terminal first rfl)))
  | head produces _ induction =>
      obtain @⟨production, before, after, listed⟩ := produces
      have nullable := solves.production production listed []
      cases word with
      | nil =>
          simp only [Starts, nullable_ofString_append, nullable_ofString_cons]
            at induction nullable ⊢
          exact ⟨induction.1.1, nullable induction.1.2, induction.2⟩
      | cons first others =>
          have begins := solves.production production listed [first]
          simp only [Starts, contains_ofString_append, contains_ofString_cons,
            nullable_ofString_append] at induction nullable begins ⊢
          rcases induction with (here | ⟨empty, inside⟩) | ⟨⟨empty, vanishes⟩, behind⟩
          · exact .inl here
          · exact .inr ⟨empty, .inl (begins inside)⟩
          · exact .inr ⟨empty, .inr ⟨nullable vanishes, behind⟩⟩

/-! ## The least solution -/

/-- Whether the productions make nothing but what has given properties, of terminals that begin
symbols and of symbols that may be empty. -/
structure Admits (plain : PlainGrammar) (begins : Symbol → Symbol → Prop)
    (vanishes : Symbol → Prop) : Prop where
  /-- Terminals begin with themselves. -/
  terminal : ∀ symbol, plain.isTerminal symbol = true → begins symbol symbol
  /-- What begins a symbol of a right side begins the left side if the symbols before it may be
  empty. -/
  first : ∀ production ∈ plain.productions, ∀ before symbol after,
    production.rhs = before ++ symbol :: after → (∀ other ∈ before, vanishes other) →
      ∀ terminal, begins symbol terminal → begins production.lhs terminal
  /-- The left side may be empty if all symbols of a right side may be. -/
  empty : ∀ production ∈ plain.productions, (∀ symbol ∈ production.rhs, vanishes symbol) →
    vanishes production.lhs

/-- Whether tables state only what has given properties. -/
structure Within (begins : Symbol → Symbol → Prop) (vanishes : Symbol → Prop) (sets : FirstSets) :
    Prop where
  /-- What begins symbols. -/
  first : ∀ symbol terminal, (sets.firstOf symbol).contains terminal = true → begins symbol terminal
  /-- Which symbols may be empty. -/
  nullable : ∀ symbol, sets.isNullable symbol = true → vanishes symbol

section Least

variable {begins : Symbol → Symbol → Prop} {vanishes : Symbol → Prop}

theorem Within.addFirst (within : sets.Within begins vanishes) {lhs : Symbol}
    {terminals : SymbolSet}
    (added : ∀ terminal, terminals.contains terminal = true → begins lhs terminal) :
    (sets.addFirst lhs terminals).Within begins vanishes := by
  refine ⟨fun symbol terminal member => ?_, within.nullable⟩
  have old := within.first symbol terminal
  unfold firstOf at old member
  rw [FirstSets.addFirst, Array.getElem?_modify] at member
  split at member
  · next same =>
      obtain rfl := Symbol.index_inj same
      cases found : sets.first[lhs.index]? with
      | none => simp [found] at member
      | some known =>
          rw [found] at member old
          exact (SymbolSet.contains_union.1 member).elim old (added terminal)
  · exact old member

theorem Within.addNullable (within : sets.Within begins vanishes) {lhs : Symbol}
    (added : vanishes lhs) : (sets.addNullable lhs).Within begins vanishes := by
  refine ⟨within.first, fun symbol nullable => ?_⟩
  unfold isNullable at nullable
  rw [FirstSets.addNullable, Array.getElem?_setIfInBounds] at nullable
  split at nullable
  · next same => exact Symbol.index_inj same ▸ added
  · exact within.nullable symbol nullable

theorem Within.absorb (within : sets.Within begins vanishes) {lhs : Symbol} {rhs : List Symbol}
    (first : ∀ before symbol after, rhs = before ++ symbol :: after →
      (∀ other ∈ before, vanishes other) → ∀ terminal, begins symbol terminal → begins lhs terminal)
    (empty : (∀ symbol ∈ rhs, vanishes symbol) → vanishes lhs) :
    (absorb lhs sets rhs).Within begins vanishes := by
  induction rhs generalizing sets with
  | nil => exact within.addNullable (empty nofun)
  | cons symbol rest induction =>
      have added := within.addFirst fun terminal member =>
        first [] symbol rest rfl nofun terminal (within.first symbol terminal member)
      rw [FirstSets.absorb]
      split
      · next nullable =>
          have here := within.nullable symbol nullable
          refine induction added (fun before other after same others => ?_) fun others => ?_
          · exact first (symbol :: before) other after (congrArg (symbol :: ·) same)
              (List.forall_mem_cons.2 ⟨here, others⟩)
          · exact empty (List.forall_mem_cons.2 ⟨here, others⟩)
      · exact added

theorem Admits.within_initial (admits : Admits plain begins vanishes) :
    (initial plain.symbols.length plain.terminalCount).Within begins vanishes := by
  constructor
  case first =>
    intro symbol terminal member
    unfold firstOf initial at member
    dsimp only at member
    rw [Array.getElem?_map] at member
    cases found : (Array.range plain.symbols.length)[symbol.index]? with
    | none => simp [found] at member
    | some index =>
        obtain ⟨inside, rfl⟩ := Array.getElem?_eq_some_iff.1 found
        have same : Symbol.ofIndex symbol.index = symbol :=
          Symbol.index_inj (Symbol.index_ofIndex symbol.index_lt)
        simp only [found, Array.getElem_range, Option.map_some, Option.getD_some, same] at member
        split at member
        · next isTerminal =>
            obtain rfl := SymbolSet.contains_singleton_iff.1 member
            exact admits.terminal terminal (decide_eq_true isTerminal)
        · simp at member
  case nullable =>
    intro symbol nullable
    unfold isNullable initial at nullable
    rw [Array.getElem?_replicate] at nullable
    split at nullable <;> cases nullable

/-- The tables of a grammar state only what its productions make. -/
theorem Admits.within_ofGrammar (admits : Admits plain begins vanishes) :
    (ofGrammar plain).Within begins vanishes := by
  have passed : ∀ sets, Within begins vanishes sets →
      Within begins vanishes (pass plain.productions sets) := fun sets within =>
    List.foldlRecOn plain.productions _ within fun sets within production member =>
      within.absorb (admits.first production member) (admits.empty production member)
  unfold ofGrammar
  dsimp only
  rw [iterateUntilStable_eq]
  exact Function.Iterate.rec (Within begins vanishes) admits.within_initial passed _

end Least

/-- The productions make what can be derived by them. -/
theorem admits_derivations (plain : PlainGrammar) :
    Admits plain (fun symbol => plain.StartsWith [symbol])
      fun symbol => plain.Derives [symbol] [] := by
  constructor
  case terminal => exact fun symbol isTerminal => ⟨isTerminal, [], .refl⟩
  case first =>
    intro production member before symbol after spelled empty terminal starts
    obtain ⟨isTerminal, others, derives⟩ := starts.among (.nil_of_forall empty) after
    exact ⟨isTerminal, others, .head (.of_mem member) (spelled ▸ derives)⟩
  case empty =>
    intro production member empty
    exact .head (.of_mem member) (PlainGrammar.Derives.nil_of_forall empty)

/-- The tables say which terminals can begin what is derived from a string. -/
theorem contains_ofString_iff (numbered : plain.Numbered) {symbols : List Symbol}
    {terminal : Symbol} :
    ((ofGrammar plain).ofString symbols).1.contains terminal = true ↔
      plain.StartsWith symbols terminal := by
  have within := (admits_derivations plain).within_ofGrammar
  constructor
  · intro member
    obtain ⟨before, symbol, after, rfl, empty, inside⟩ := exists_of_contains_ofString member
    exact (within.first symbol terminal inside).among
      (.nil_of_forall fun other listed => within.nullable other (empty other listed)) after
  · rintro ⟨isTerminal, others, derives⟩
    exact (solves_ofGrammar numbered).starts_of_derives derives
      fun first same => Option.some.inj same ▸ isTerminal

/-- The tables say whether the empty sequence can be derived from a string. -/
theorem nullable_ofString_iff (numbered : plain.Numbered) {symbols : List Symbol} :
    ((ofGrammar plain).ofString symbols).2 = true ↔ plain.Derives symbols [] := by
  have within := (admits_derivations plain).within_ofGrammar
  constructor
  · exact fun nullable => .nil_of_forall fun symbol member =>
      within.nullable symbol (nullable_of_mem_ofString nullable symbol member)
  · exact fun derives => (solves_ofGrammar numbered).starts_of_derives derives nofun

/-- What begins symbols with a terminal behind them begins the symbols or, if they may be empty, is
the terminal. -/
theorem exists_starts_of_append (numbered : plain.Numbered) {symbols : List Symbol}
    {follower terminal : Symbol} (isTerminal : plain.isTerminal follower = true)
    (starts : plain.StartsWith (symbols ++ [follower]) terminal) :
    ∃ word : List Symbol, Starts word ((ofGrammar plain).ofString symbols) ∧
      terminal = word.headD follower := by
  rcases contains_ofString_append.1 ((contains_ofString_iff numbered).2 starts) with
    here | ⟨empty, behind⟩
  · exact ⟨[terminal], here, rfl⟩
  · obtain ⟨-, others, derives⟩ := (contains_ofString_iff numbered).1 behind
    have same := derives.eq_of_terminals numbered.defines
      (List.forall_mem_singleton.2 isTerminal)
    exact ⟨[], empty, (List.cons.inj same).1⟩

end FirstSets

end Lalr

end IncrementalGlr
