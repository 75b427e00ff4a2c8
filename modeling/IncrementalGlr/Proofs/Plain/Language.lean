import IncrementalGlr.PlainGrammar.Basic
import Mathlib.Computability.Language
import Mathlib.Logic.Relation
import Mathlib.Order.CompletePartialOrder

/-!
# The languages of a plain grammar

A production replaces its symbol anywhere in a sequence of symbols.  The language of a symbol holds
the sequences of terminals that it can be replaced by.  A sequence is in it if and only if there is
a derivation tree for it, so the language is the limit of those with trees of bounded height.
-/

namespace IncrementalGlr

namespace PlainGrammar

/-- One replacement of a symbol by the right side of one of its productions. -/
inductive Produces (plain : PlainGrammar) : List Symbol → List Symbol → Prop
  /-- The symbol on the left of a production is replaced. -/
  | replace {production : PlainProduction} (before after : List Symbol)
      (member : production ∈ plain.productions) :
    Produces plain (before ++ production.lhs :: after) (before ++ production.rhs ++ after)

/-- Any number of replacements. -/
def Derives (plain : PlainGrammar) : List Symbol → List Symbol → Prop :=
  Relation.ReflTransGen plain.Produces

/-- The sequences of terminals that can be derived from a symbol. -/
def language (plain : PlainGrammar) (symbol : Symbol) : Language Symbol :=
  {word | (∀ terminal ∈ word, plain.isTerminal terminal = true) ∧ plain.Derives [symbol] word}

/-- Whether only nonterminals are defined by productions. -/
def DefinesNonterminals (plain : PlainGrammar) : Prop :=
  ∀ production ∈ plain.productions, plain.isTerminal production.lhs = false

/-- Whether the symbols of a plain grammar are numbered as they should be: terminals first, and all
symbols that productions define. -/
structure Numbered (plain : PlainGrammar) : Prop where
  /-- The end of the input is a terminal. -/
  positive : 0 < plain.terminalCount
  /-- The terminals are symbols. -/
  terminals : plain.terminalCount ≤ plain.symbols.length
  /-- The symbols have ids. -/
  small : plain.symbols.length < 65536
  /-- Only nonterminals are defined. -/
  defines : plain.DefinesNonterminals
  /-- What is defined is a symbol. -/
  exist : ∀ production ∈ plain.productions, production.lhs.index < plain.symbols.length

/-- The sequences of terminals that have derivation trees of at most a height. -/
def languageIn (plain : PlainGrammar) : Nat → Symbol → Language Symbol
  | 0, symbol => if plain.isTerminal symbol then {[symbol]} else 0
  | height + 1, symbol =>
    if plain.isTerminal symbol then {[symbol]}
    else ((plain.productions.filter fun production => production.lhs = symbol).map
      fun production => (production.rhs.map (languageIn plain height)).prod).sum

variable {plain : PlainGrammar}

/-- The symbol on the left of a production is replaced by those on its right. -/
theorem Produces.of_mem {production : PlainProduction} (member : production ∈ plain.productions) :
    plain.Produces [production.lhs] production.rhs := by
  have replaced := Produces.replace [] [] member
  rwa [List.nil_append, List.nil_append, List.append_nil] at replaced

section Derivations

variable {left right before after first second word : List Symbol}

theorem Produces.append (produces : plain.Produces left right) (before after : List Symbol) :
    plain.Produces (before ++ left ++ after) (before ++ right ++ after) := by
  obtain ⟨start, rest, member⟩ := produces
  have replaced := Produces.replace (before ++ start) (rest ++ after) member
  simpa only [List.append_assoc, List.cons_append] using replaced

theorem Derives.append (derives : plain.Derives left right) (before after : List Symbol) :
    plain.Derives (before ++ left ++ after) (before ++ right ++ after) := by
  induction derives with
  | refl => exact .refl
  | tail earlier produces induction => exact induction.tail (produces.append before after)

/-- Derivations of parts are put together. -/
theorem Derives.concat (one : plain.Derives left first) (other : plain.Derives right second) :
    plain.Derives (left ++ right) (first ++ second) := by
  have begins := one.append [] right
  have ends := other.append first []
  simp only [List.nil_append, List.append_nil] at begins ends
  exact begins.trans ends

/-- The empty sequence can be derived from symbols if it can be from each of them. -/
theorem Derives.nil_of_forall {symbols : List Symbol}
    (each : ∀ symbol ∈ symbols, plain.Derives [symbol] []) : plain.Derives symbols [] := by
  induction symbols with
  | nil => exact .refl
  | cons symbol rest induction =>
      obtain ⟨here, later⟩ := List.forall_mem_cons.1 each
      exact here.concat (induction later)

end Derivations

/-- Nothing but themselves can be derived from terminals. -/
theorem Derives.eq_of_terminals (defines : plain.DefinesNonterminals) {symbols word : List Symbol}
    (terminals : ∀ terminal ∈ symbols, plain.isTerminal terminal = true)
    (derives : plain.Derives symbols word) : word = symbols := by
  rcases derives.cases_head with same | ⟨next, produces, -⟩
  · exact same.symm
  · obtain @⟨production, before, after, listed⟩ := produces
    have isTerminal := terminals production.lhs
      (List.mem_append_right before List.mem_cons_self)
    rw [defines production listed] at isTerminal
    cases isTerminal

theorem mem_sum_map {α : Type} {languages : α → Language Symbol} {values : List α}
    {word : List Symbol} :
    word ∈ (values.map languages).sum ↔ ∃ value ∈ values, word ∈ languages value := by
  induction values with
  | nil => simp
  | cons value rest induction => simp [Language.mem_add, induction]

theorem languageIn_terminal {symbol : Symbol} (terminal : plain.isTerminal symbol = true)
    (height : Nat) : plain.languageIn height symbol = {[symbol]} := by
  cases height <;> exact if_pos terminal

theorem languageIn_zero {symbol : Symbol} (nonterminal : plain.isTerminal symbol = false) :
    plain.languageIn 0 symbol = 0 :=
  if_neg (by rw [nonterminal]; exact Bool.false_ne_true)

theorem mem_languageIn_succ {symbol : Symbol} (nonterminal : plain.isTerminal symbol = false)
    {height : Nat} {word : List Symbol} :
    word ∈ plain.languageIn (height + 1) symbol ↔
      ∃ production ∈ plain.productions, production.lhs = symbol ∧
        word ∈ (production.rhs.map (plain.languageIn height)).prod := by
  rw [languageIn, if_neg (by rw [nonterminal]; exact Bool.false_ne_true), mem_sum_map]
  simp only [List.mem_filter, decide_eq_true_eq, and_assoc]

/-- Larger languages of the parts make a larger language of the whole. -/
theorem prod_map_mono {smaller larger : Symbol → Language Symbol} {symbols : List Symbol}
    (less : ∀ symbol ∈ symbols, smaller symbol ≤ larger symbol) :
    (symbols.map smaller).prod ≤ (symbols.map larger).prod := by
  induction symbols with
  | nil => exact le_refl _
  | cons symbol rest induction =>
      rw [List.map_cons, List.map_cons, List.prod_cons, List.prod_cons]
      exact mul_le_mul' (less symbol List.mem_cons_self)
        (induction fun other member => less other (List.mem_cons_of_mem symbol member))

theorem languageIn_mono {lower higher : Nat} (less : lower ≤ higher) (symbol : Symbol) :
    plain.languageIn lower symbol ≤ plain.languageIn higher symbol := by
  induction lower generalizing higher symbol with
  | zero =>
      cases terminal : plain.isTerminal symbol with
      | true => rw [languageIn_terminal terminal, languageIn_terminal terminal]
      | false =>
          rw [languageIn_zero terminal]
          exact bot_le
  | succ lower induction =>
      cases terminal : plain.isTerminal symbol with
      | true => rw [languageIn_terminal terminal, languageIn_terminal terminal]
      | false =>
          obtain ⟨higher, rfl⟩ := Nat.exists_eq_add_of_lt (Nat.lt_of_succ_le less)
          intro word member
          obtain ⟨production, listed, same, inside⟩ := (mem_languageIn_succ terminal).1 member
          exact (mem_languageIn_succ terminal).2 ⟨production, listed, same,
            prod_map_mono (fun other _ => induction (Nat.le_add_right lower higher) other) inside⟩

/-- What can be derived from symbols part by part can be derived from them. -/
theorem derives_of_mem_prod {symbols word : List Symbol}
    (member : word ∈ (symbols.map plain.language).prod) :
    (∀ terminal ∈ word, plain.isTerminal terminal = true) ∧ plain.Derives symbols word := by
  induction symbols generalizing word with
  | nil =>
      obtain rfl : word = [] := member
      exact ⟨nofun, .refl⟩
  | cons symbol rest induction =>
      rw [List.map_cons, List.prod_cons] at member
      obtain ⟨first, firstMember, second, secondMember, rfl⟩ := Language.mem_mul.1 member
      obtain ⟨firstTerminals, firstDerives⟩ := firstMember
      obtain ⟨secondTerminals, secondDerives⟩ := induction secondMember
      exact ⟨fun terminal listed => (List.mem_append.1 listed).elim (firstTerminals terminal)
        (secondTerminals terminal), firstDerives.concat secondDerives⟩

/-- The languages of symbols are closed under the productions. -/
theorem prod_le_language {production : PlainProduction} (member : production ∈ plain.productions) :
    (production.rhs.map plain.language).prod ≤ plain.language production.lhs := by
  intro word inside
  obtain ⟨terminals, derives⟩ := derives_of_mem_prod inside
  exact ⟨terminals, .head (.of_mem member) derives⟩

theorem language_terminal_le {symbol : Symbol} (terminal : plain.isTerminal symbol = true) :
    ({[symbol]} : Language Symbol) ≤ plain.language symbol := by
  rintro _ rfl
  refine ⟨fun other member => ?_, .refl⟩
  rw [List.mem_singleton.1 member]
  exact terminal

/-- What has a tree is a sequence of terminals that can be derived. -/
theorem languageIn_le_language (height : Nat) (symbol : Symbol) :
    plain.languageIn height symbol ≤ plain.language symbol := by
  induction height generalizing symbol with
  | zero =>
      cases terminal : plain.isTerminal symbol with
      | true =>
          rw [languageIn_terminal terminal]
          exact language_terminal_le terminal
      | false =>
          rw [languageIn_zero terminal]
          exact bot_le
  | succ height induction =>
      cases terminal : plain.isTerminal symbol with
      | true =>
          rw [languageIn_terminal terminal]
          exact language_terminal_le terminal
      | false =>
          intro word member
          obtain ⟨production, listed, rfl, inside⟩ := (mem_languageIn_succ terminal).1 member
          exact prod_le_language listed (prod_map_mono (fun other _ => induction other) inside)

/-- What can be derived from symbols has trees, one for each of them. -/
theorem Derives.exists_height (defines : plain.DefinesNonterminals) {symbols word : List Symbol}
    (derives : plain.Derives symbols word)
    (terminals : ∀ terminal ∈ word, plain.isTerminal terminal = true) :
    ∃ height, word ∈ (symbols.map (plain.languageIn height)).prod := by
  induction derives using Relation.ReflTransGen.head_induction_on with
  | refl =>
      refine ⟨0, ?_⟩
      induction word with
      | nil => exact Language.nil_mem_one
      | cons terminal rest induction =>
          rw [List.map_cons, List.prod_cons]
          refine Language.append_mem_mul (a := [terminal]) ?_
            (induction fun other member => terminals other (List.mem_cons_of_mem terminal member))
          rw [languageIn_terminal (terminals terminal List.mem_cons_self)]
          rfl
  | head produces derives induction =>
      obtain ⟨height, member⟩ := induction
      obtain @⟨production, before, after, listed⟩ := produces
      refine ⟨height + 1, ?_⟩
      have higher : ∀ other, plain.languageIn height other ≤ plain.languageIn (height + 1) other :=
        languageIn_mono (Nat.le_succ height)
      have replaced : (production.rhs.map (plain.languageIn height)).prod ≤
          plain.languageIn (height + 1) production.lhs := fun word inside =>
        (mem_languageIn_succ (defines production listed)).2 ⟨production, listed, rfl, inside⟩
      rw [List.append_assoc, List.map_append, List.prod_append, List.map_append,
        List.prod_append] at member
      rw [List.map_append, List.prod_append, List.map_cons, List.prod_cons]
      exact mul_le_mul' (prod_map_mono fun other _ => higher other)
        (mul_le_mul' replaced (prod_map_mono fun other _ => higher other)) member

/-- A sequence of terminals can be derived if and only if it has a tree. -/
theorem mem_language_iff (defines : plain.DefinesNonterminals) {symbol : Symbol}
    {word : List Symbol} :
    word ∈ plain.language symbol ↔ ∃ height, word ∈ plain.languageIn height symbol := by
  constructor
  · rintro ⟨terminals, derives⟩
    obtain ⟨height, member⟩ := Derives.exists_height defines derives terminals
    rw [List.map_singleton, List.prod_singleton] at member
    exact ⟨height, member⟩
  · rintro ⟨height, member⟩
    exact languageIn_le_language height symbol member

end PlainGrammar

end IncrementalGlr
