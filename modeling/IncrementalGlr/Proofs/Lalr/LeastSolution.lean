import IncrementalGlr.Proofs.Lalr.First
import IncrementalGlr.Proofs.Plain.Lowering

/-!
# The least solution

The productions are passed over again for as long as something new is noted: a set of terminals that
grows, or a symbol that turns out to be nullable.  This loop ends, and what the tables say then is
what can be derived from the symbols and from strings of them.
-/

namespace IncrementalGlr

/-- Two steps change something if and only if one of them does. -/
theorem Inflates.comp_changes_iff {α γ : Type} {valid : α → Prop} {holds : α → γ → Prop}
    {facts : Finset γ} {first second : α → α} (left : Inflates valid holds first)
    (right : Inflates valid holds second) (described : Described valid holds facts) {value : α}
    (known : valid value) :
    second (first value) ≠ value ↔ first value ≠ value ∨ second (first value) ≠ first value := by
  rw [← not_and_or, not_iff_not]
  constructor
  · intro fixed
    have same := (left.comp_fixed right described known fixed).1
    exact ⟨same, fixed.trans same.symm⟩
  · rintro ⟨same, fixed⟩
    exact fixed.trans same

namespace Lalr

namespace FirstSets

/-! ## Noting changes -/

/-- What the rest of a right-hand side adds to its left-hand side, together with whether anything
was new so far. -/
def absorbNoting (lhs : Symbol) (changed : Bool) (sets : FirstSets) :
    List Symbol → Bool × FirstSets
  | [] => (changed || !sets.isNullable lhs, sets.addNullable lhs)
  | symbol :: rest =>
    let grew := ((sets.firstOf lhs).unionGrow (sets.firstOf symbol)).1
    let added := sets.addFirst lhs (sets.firstOf symbol)
    if added.isNullable symbol then absorbNoting lhs (changed || grew) added rest
    else (changed || grew, added)

/-- One pass over productions, together with whether anything was new so far. -/
def passNoting (changed : Bool) (sets : FirstSets) : List PlainProduction → Bool × FirstSets
  | [] => (changed, sets)
  | production :: rest =>
    let noted := absorbNoting production.lhs changed sets production.rhs
    passNoting noted.1 noted.2 rest

/-- Whether the passes from the first tables on end with the others: a pass without anything new is
the last one. -/
inductive Settles (productions : List PlainProduction) : FirstSets → FirstSets → Prop
  /-- Nothing is new. -/
  | still {sets : FirstSets} : (passNoting false sets productions).1 = false →
    Settles productions sets (passNoting false sets productions).2
  /-- Something is new, so there is another pass. -/
  | further {sets final : FirstSets} : (passNoting false sets productions).1 = true →
    Settles productions (passNoting false sets productions).2 final →
      Settles productions sets final

variable {symbols terminals : Nat} {sets : FirstSets} {lhs : Symbol}

/-- A set grows if and only if adding to it changes the tables. -/
theorem unionGrow_iff (sized : sets.Sized symbols terminals) (inside : lhs.index < symbols)
    (added : SymbolSet) :
    ((sets.firstOf lhs).unionGrow added).1 = true ↔ sets.addFirst lhs added ≠ sets := by
  have row : lhs.index < sets.first.size := sized.first ▸ inside
  have here : sets.firstOf lhs = sets.first[lhs.index] := by
    rw [firstOf, Array.getElem?_eq_getElem row, Option.getD_some]
  rw [SymbolSet.unionGrow, decide_eq_true_eq, here, not_iff_not]
  constructor
  · intro same
    have first : sets.first.modify lhs.index (fun set => set.union added) = sets.first := by
      refine Array.ext_getElem? fun index => ?_
      rw [Array.getElem?_modify]
      split
      · next equal => rw [← equal, Array.getElem?_eq_getElem row, Option.map_some, same]
      · rfl
    rw [addFirst, first]
  · intro same
    have cell := congrArg (fun tables : FirstSets => tables.first[lhs.index]?) same
    simpa [addFirst, Array.getElem?_modify, Array.getElem?_eq_getElem row] using cell

/-- A symbol was not nullable before if and only if calling it so changes the tables. -/
theorem not_isNullable_iff (sized : sets.Sized symbols terminals) (inside : lhs.index < symbols) :
    (!sets.isNullable lhs) = true ↔ sets.addNullable lhs ≠ sets := by
  have row : lhs.index < sets.nullable.size := sized.nullable ▸ inside
  have here : sets.isNullable lhs = sets.nullable[lhs.index] := by
    rw [isNullable, Array.getElem?_eq_getElem row, Option.getD_some]
  rw [Bool.not_eq_true', ← Bool.not_eq_true, here, not_iff_not]
  constructor
  · intro same
    have nullable : sets.nullable.setIfInBounds lhs.index true = sets.nullable := by
      refine Array.ext_getElem? fun index => ?_
      rw [Array.getElem?_setIfInBounds]
      split
      · next equal => rw [← equal, Array.getElem?_eq_getElem row, same]
      · rfl
    rw [addNullable, nullable]
  · intro same
    have cell := congrArg (fun tables : FirstSets => tables.nullable[lhs.index]?) same
    simpa [addNullable, Array.getElem?_setIfInBounds_self_of_lt row,
      Array.getElem?_eq_getElem row] using cell.symm

/-- Something new is noted of a right-hand side if and only if it changes the tables. -/
theorem absorbNoting_spec (sized : sets.Sized symbols terminals) (inside : lhs.index < symbols)
    (changed : Bool) (rhs : List Symbol) :
    (absorbNoting lhs changed sets rhs).2 = absorb lhs sets rhs ∧
      ((absorbNoting lhs changed sets rhs).1 = true ↔
        changed = true ∨ absorb lhs sets rhs ≠ sets) := by
  induction rhs generalizing changed sets with
  | nil =>
      refine ⟨rfl, ?_⟩
      rw [absorbNoting, Bool.or_eq_true, not_isNullable_iff sized inside, absorb]
  | cons symbol rest induction =>
      have first : Inflates (Sized symbols terminals) (States terminals)
          fun sets => sets.addFirst lhs (sets.firstOf symbol) := inflates_addFirst lhs symbol
      have grew := unionGrow_iff sized inside (sets.firstOf symbol)
      have both := first.comp_changes_iff
        ((inflates_absorb lhs rest).ite fun sets => sets.isNullable symbol)
        (described symbols terminals) sized
      rw [absorbNoting, absorb]
      split
      · next nullable =>
          rw [if_pos nullable] at both
          obtain ⟨same, noted⟩ := induction (first.keeps sized)
            (changed || ((sets.firstOf lhs).unionGrow (sets.firstOf symbol)).1)
          refine ⟨same, noted.trans ?_⟩
          rw [Bool.or_eq_true, grew, or_assoc, both]
      · exact ⟨rfl, by rw [Bool.or_eq_true, grew]⟩

/-- Something new is noted in a pass if and only if it changes the tables. -/
theorem passNoting_spec {productions : List PlainProduction}
    (sized : sets.Sized symbols terminals)
    (exist : ∀ production ∈ productions, production.lhs.index < symbols) (changed : Bool) :
    (passNoting changed sets productions).2 = pass productions sets ∧
      ((passNoting changed sets productions).1 = true ↔
        changed = true ∨ pass productions sets ≠ sets) := by
  induction productions generalizing changed sets with
  | nil => simp [passNoting, pass]
  | cons production rest induction =>
      obtain ⟨inside, others⟩ := List.forall_mem_cons.1 exist
      obtain ⟨same, noted⟩ := absorbNoting_spec sized inside changed production.rhs
      have first : Inflates (Sized symbols terminals) (States terminals)
          fun sets => absorb production.lhs sets production.rhs :=
        inflates_absorb production.lhs production.rhs
      have remaining : Inflates (Sized symbols terminals) (States terminals) (pass rest) :=
        .foldl fun other _ => inflates_absorb other.lhs other.rhs
      have both := first.comp_changes_iff remaining (described symbols terminals) sized
      obtain ⟨last, later⟩ := induction (same ▸ first.keeps sized) others
        (absorbNoting production.lhs changed sets production.rhs).1
      rw [same] at last later
      rw [passNoting, same]
      refine ⟨last, later.trans ?_⟩
      rw [noted, or_assoc, ← both]
      exact Iff.rfl

theorem Settles.of_fixed {plain : PlainGrammar} (numbered : plain.Numbered)
    (sized : sets.Sized plain.symbols.length plain.terminalCount)
    (fixed : pass plain.productions sets = sets) : Settles plain.productions sets sets := by
  obtain ⟨same, noted⟩ := passNoting_spec sized numbered.exist false
  have nothing : (passNoting false sets plain.productions).1 = false := by
    rw [← Bool.not_eq_true, noted, not_or, not_not]
    exact ⟨Bool.false_ne_true, fixed⟩
  have last := Settles.still nothing
  rwa [same, fixed] at last

/-- Tables that are left after enough passes are those with which the passes end. -/
theorem settles_iterateUntilStable {plain : PlainGrammar} (numbered : plain.Numbered)
    (sized : sets.Sized plain.symbols.length plain.terminalCount) (bound : Nat)
    (fixed : pass plain.productions (iterateUntilStable (pass plain.productions) bound sets) =
      iterateUntilStable (pass plain.productions) bound sets) :
    Settles plain.productions sets
      (iterateUntilStable (pass plain.productions) bound sets) := by
  induction bound generalizing sets with
  | zero => exact .of_fixed numbered sized fixed
  | succ bound induction =>
      rw [iterateUntilStable] at fixed ⊢
      split
      · next stable => exact .of_fixed numbered sized (beq_iff_eq.1 stable)
      · next moves =>
          rw [if_neg moves] at fixed
          have changes : pass plain.productions sets ≠ sets :=
            fun stable => moves (beq_iff_eq.2 stable)
          obtain ⟨same, noted⟩ := passNoting_spec sized numbered.exist false
          refine .further (noted.2 (.inr changes)) ?_
          rw [same]
          exact induction ((inflates_pass plain).keeps sized) fixed

/-- The passes over the productions of a plain grammar end, and the tables that are left say exactly
what can be derived: which symbols and strings of symbols derive the empty string, and which
terminals begin something that they derive. -/
theorem ofGrammar_exact {description : Description} {plain : PlainGrammar}
    (made : description.toPlain = .ok plain) :
    let sets := ofGrammar plain
    Settles plain.productions (initial plain.symbols.length plain.terminalCount) sets ∧
      (∀ symbol, (sets.isNullable symbol = true ↔ plain.Derives [symbol] []) ∧
        ∀ terminal, ((sets.firstOf symbol).contains terminal = true ↔
          plain.isTerminal terminal = true ∧
            ∃ others, plain.Derives [symbol] (terminal :: others))) ∧
      ∀ symbols, ((sets.ofString symbols).2 = true ↔ plain.Derives symbols []) ∧
        ∀ terminal, ((sets.ofString symbols).1.contains terminal = true ↔
          plain.isTerminal terminal = true ∧
            ∃ others, plain.Derives symbols (terminal :: others)) := by
  have numbered := Description.toPlain_numbered made
  refine ⟨settles_iterateUntilStable numbered (sized_initial numbered) _
    (pass_ofGrammar numbered), fun symbol => ⟨?_, fun terminal => ?_⟩, fun symbols =>
      ⟨nullable_ofString_iff numbered, fun terminal => contains_ofString_iff numbered⟩⟩
  · rw [← nullable_ofString_iff numbered, nullable_ofString_cons]
    simp
  · have alone : ((ofGrammar plain).ofString [symbol]).1.contains terminal = true ↔
        ((ofGrammar plain).firstOf symbol).contains terminal = true := by simp
    exact alone.symm.trans (contains_ofString_iff numbered)

end FirstSets

end Lalr

/-- Statements, each of which may have marks before it and is empty or a block. -/
def Description.statements : Description :=
  ⟨"statements", [("s", .seq [.symbol "marks", .symbol "body"]),
    ("marks", .repetition false (.string "@")),
    ("body", .choice [.string ";", .seq [.string "[", .repetition false (.symbol "s"),
      .string "]"]])], [], [], []⟩

/-- A statement may begin with a semicolon, because the marks before it may be missing, but not with
a closing bracket. -/
theorem Lalr.FirstSets.ofGrammar_exact_statements :
    ∃ plain, Description.statements.toPlain = .ok plain ∧
      plain.Derives [.ofIndex 6] [] ∧ ¬ plain.Derives [.ofIndex 5] [] ∧
      (∃ others, plain.Derives [.ofIndex 5] (.ofIndex 2 :: others)) ∧
      ¬ ∃ others, plain.Derives [.ofIndex 5] (.ofIndex 4 :: others) := by
  have computed : (Description.statements.toPlain.toOption.any fun plain =>
      decide ((ofGrammar plain).isNullable (.ofIndex 6) = true ∧
        (ofGrammar plain).isNullable (.ofIndex 5) = false ∧
        ((ofGrammar plain).firstOf (.ofIndex 5)).contains (.ofIndex 2) = true ∧
        ((ofGrammar plain).firstOf (.ofIndex 5)).contains (.ofIndex 4) = false ∧
        plain.isTerminal (.ofIndex 4) = true)) = true := by
    decide +kernel
  obtain ⟨plain, made, facts⟩ := Except.exists_of_any computed
  obtain ⟨marks, statement, semicolon, bracket, terminal⟩ := of_decide_eq_true facts
  obtain ⟨-, single, -⟩ := ofGrammar_exact made
  obtain ⟨empty, begins⟩ := single (.ofIndex 5)
  refine ⟨plain, made, (single _).1.1 marks, fun derives => ?_,
    ((begins _).1 semicolon).2, fun derives => ?_⟩
  · rw [empty.2 derives] at statement
    cases statement
  · rw [(begins _).2 ⟨terminal, derives⟩] at bracket
    cases bracket

end IncrementalGlr
