import IncrementalGlr.Proofs.Derivation.Session
import IncrementalGlr.Proofs.Search.Machine
import IncrementalGlr.Proofs.Search.Parse

/-!
# The best tree

A parse without an earlier tree finds the best of all trees that nondeterministic runs accept, and
never takes to recovery if there is one.
-/

namespace IncrementalGlr

open Erasable
open Version (Accepts)

theorem ParseStack.shape_erase (stack : ParseStack) : shape (erase stack) = stack.shape := by
  simp [shape, erase_list, Function.comp_def]

namespace ParseRun

variable {job : ParseJob} {run raw : ParseRun} {store after : Store} {memory : Memory}

/-- Whether a parse without an earlier tree has to condense a run at some time. -/
def Condenses (job : ParseJob) (store : Store) (raw : ParseRun) : Prop :=
  ∃ run held advanced, Visits job (.start none) store run held ∧
    run.advanced? (m := StateM Store) job = some advanced ∧ raw = (advanced held).1

/-- Up to ids all that is condensed without a store is condensed on a valid store. -/
theorem Condenses.of_reaches (valid : store.Valid memory)
    (reaches : Reaches job (.start none) run)
    (advanced : run.advanced? (m := Id) job = some raw) :
    ∃ original, Condenses job store original ∧ erase original = raw := by
  obtain ⟨visited, held, visits, rfl⟩ := Visits.of_reaches valid start_known reaches
  obtain ⟨-, larger, heldValid, known⟩ := visits.reaches valid start_known
  have mirrored := mirrors_advanced? job known
  cases found : visited.advanced? (m := StateM Store) job with
  | none =>
      rw [found] at mirrored
      rw [advanced] at mirrored
      cases mirrored
  | some step =>
      rw [found] at mirrored
      obtain ⟨image, imageFound, mirrors⟩ := mirrored
      obtain ⟨-, -, -, -, erased⟩ := mirrors held heldValid
      rw [advanced] at imageFound
      exact ⟨_, ⟨visited, held, step, visits, found, rfl⟩,
        erased.trans (Option.some.inj imageFound).symm⟩

theorem Aligned.of_erase (aligned : Aligned (erase run)) : run.Aligned := by
  intro left leftMember right rightMember agrees
  have same := aligned (erase left) (List.mem_map_of_mem leftMember) (erase right)
    (List.mem_map_of_mem rightMember) (by rw [Version.agrees_erase]; exact agrees)
  rwa [Version.erase_stack, Version.erase_stack, ParseStack.shape_erase,
    ParseStack.shape_erase] at same

theorem Aligned.erase (aligned : run.Aligned) : Aligned (erase run) := by
  intro left leftMember right rightMember agrees
  obtain ⟨left, leftListed, rfl⟩ := List.mem_map.1 leftMember
  obtain ⟨right, rightListed, rfl⟩ := List.mem_map.1 rightMember
  rw [Version.agrees_erase] at agrees
  rw [Version.erase_stack, Version.erase_stack, ParseStack.shape_erase, ParseStack.shape_erase]
  exact aligned left leftListed right rightListed agrees

instance : DecidablePred Aligned := fun run =>
  inferInstanceAs (Decidable (∀ left ∈ run.versions, ∀ right ∈ run.versions,
    left.agrees right = true → left.stack.shape = right.stack.shape))

/-- What is condensed on a valid store is, up to ids, condensed without a store. -/
theorem Condenses.reaches (valid : store.Valid memory) (condenses : Condenses job store raw) :
    ∃ run, Reaches job (.start none) run ∧
      run.advanced? (m := Id) job = some (erase raw : ParseRun) := by
  obtain ⟨visited, held, step, visits, advanced, rfl⟩ := condenses
  obtain ⟨reached, larger, heldValid, known⟩ := visits.reaches valid start_known
  have mirrored := mirrors_advanced? job known
  rw [advanced] at mirrored
  obtain ⟨image, imageFound, mirrors⟩ := mirrored
  obtain ⟨-, -, -, -, erased⟩ := mirrors held heldValid
  rw [erased]
  exact ⟨erase visited, reached, imageFound⟩

/-- All that is condensed on a valid store passes the tests that the run without a store passes. -/
theorem Condenses.test {test : ParseRun → Bool} {bound : Nat} (valid : store.Valid memory)
    (condenses : Condenses job store raw) (passed : passes job test bound (.start none) = true) :
    test (erase raw) = true := by
  obtain ⟨run, reaches, advanced⟩ := condenses.reaches valid
  exact test_of_passes passed reaches advanced

/-- A parse goes on like a search without ids. -/
theorem Visits.searches {plain : PlainGrammar} {items : StateId → Lalr.Item → Prop}
    (acts : job.grammar.ActsOn plain items) (valid : store.Valid memory) {root : Subtree}
    (accepts : Accepts job .start root)
    (roomy : ∀ raw, Condenses job store raw → raw.promising.length ≤ maxVersions)
    (aligned : ∀ raw, Condenses job store raw → raw.Aligned) {last : ParseRun}
    (visits : Visits job (.start none) store last after) : Searches job (erase last) := by
  obtain ⟨reached, -⟩ := visits.reaches valid start_known
  refine Reaches.searches acts ⟨root, accepts, Int.le_refl _⟩ ?_ ?_ reached
  · intro run raw reaches advanced
    obtain ⟨original, condenses, rfl⟩ := Condenses.of_reaches valid reaches advanced
    rw [promising_erase, erase_list, List.length_map]
    exact roomy original condenses
  · intro run raw reaches advanced
    obtain ⟨original, condenses, rfl⟩ := Condenses.of_reaches valid reaches advanced
    exact (aligned original condenses).erase

end ParseRun

/-- If some nondeterministic run accepts, a parse without an earlier tree that has room for all its
versions, and only merges those that hold extras at the same places, never recovers from an error.
If it comes to its end, the tree has no errors, is accepted by a nondeterministic run, and has the
largest dynamic precedence of all trees that are. -/
theorem Session.fresh_parse_best {description : Description} {compiled : Compiled}
    (made : description.compile = .ok compiled) {plain : PlainGrammar}
    (lowered : description.toPlain = .ok plain) (apart : compiled.grammar.ExtrasApart plain)
    {external : Option ExternalScanner} {parser : Parser} {trees : List SyntaxTree}
    (session : Session compiled.grammar external parser trees) (text : Text) (edits : List Edit)
    {root : Subtree} (accepts : Accepts ⟨⟨compiled.grammar, external⟩, text⟩ .start root)
    (roomy : ∀ raw, ParseRun.Condenses ⟨⟨compiled.grammar, external⟩, text⟩ parser.store.trim raw →
      raw.promising.length ≤ ParseRun.maxVersions)
    (aligned : ∀ raw,
      ParseRun.Condenses ⟨⟨compiled.grammar, external⟩, text⟩ parser.store.trim raw →
        raw.Aligned) :
    let job : ParseJob := ⟨⟨compiled.grammar, external⟩, text⟩
    let tree := (parser.parse text none edits).1.tree
    (∀ run store, ParseRun.Visits job (.start none) parser.store.trim run store →
      run.lastRecovery = none) ∧
    ((parser.parse text none edits).1.status = .complete →
      tree.root.errorCount = 0 ∧ Accepts job .start tree.root.erase ∧
        ∀ other, Accepts job .start other →
          other.dynamicPrecedence ≤ tree.root.dynamicPrecedence) := by
  intro job tree
  obtain ⟨source, table, sourceLowered, comes⟩ := Description.compile_comesFrom made
  rw [lowered] at sourceLowered
  obtain rfl := Except.ok.inj sourceLowered
  obtain ⟨automaton, madeFrom⟩ := Lalr.Table.madeFrom_of_ofGrammar comes.sound comes.built
  have acts : job.grammar.ActsOn plain _ := comes.actsOn madeFrom apart
  obtain ⟨grammar, scanner, memory, valid, -⟩ := session.valid
  have fresh := parser.parse_fresh text edits
  rw [grammar, scanner] at fresh
  obtain ⟨run, store, visits, same, complete⟩ := fresh
  have searches {last : ParseRun} {after : Store}
      (visits : ParseRun.Visits job (.start none) parser.store.trim last after) :
      ParseRun.Searches job (erase last) :=
    visits.searches acts valid.trim accepts roomy aligned
  refine ⟨fun last after visits => (searches visits).calm, fun status => ?_⟩
  have ended : (erase run).versions = [] := by
    rw [ParseRun.erase_versions, complete status]
    rfl
  obtain ⟨best, found, accepted, greatest⟩ :=
    (searches visits).best acts ⟨root, accepts, Int.le_refl _⟩ ended
  obtain ⟨-, larger, afterValid, known⟩ := visits.reaches valid.trim ParseRun.start_known
  obtain ⟨-, -, -, -, erased⟩ := ParseRun.mirrors_result job known store afterValid
  have returned : tree.root.erase = best.root := by
    rw [show tree.root = _ from same]
    refine erased.trans ?_
    rw [ParseRun.result, found]
    rfl
  rw [← returned] at accepted greatest
  refine ⟨?_, accepted, fun other otherAccepts => ?_⟩
  · rw [← tree.root.erase_errorCount]
    exact accepted.errorCount acts
  · rw [← tree.root.erase_dynamicPrecedence]
    exact greatest other otherAccepts

/-- Texts of one word that may be read as a noun or as a verb, but rather as a verb. -/
def Description.homonyms : Description :=
  ⟨"homonyms", [("source", .choice [.symbol "noun", .symbol "verb"]), ("noun", .symbol "word"),
    ("verb", .precedence .dynamic 1 (.symbol "word")), ("word", .string "w")], [.string " "], [],
    []⟩

/-- Of the two readings of a word the one with the larger dynamic precedence is found. -/
theorem fresh_parse_best_homonyms :
    ∃ compiled, Description.homonyms.compile = .ok compiled ∧
      let parser := Parser.ofGrammar compiled.grammar none .standard 0
      let output := (parser.parse (.ofString " w") none []).1
      output.status = .complete ∧ output.tree.root.errorCount = 0 ∧
        1 ≤ output.tree.root.dynamicPrecedence := by
  have computed : (Description.homonyms.compile.toOption.any fun compiled =>
      let job : ParseJob := ⟨⟨compiled.grammar, none⟩, .ofString " w"⟩
      (Description.homonyms.toPlain.toOption.any fun plain =>
        compiled.grammar.ExtrasApart plain) &&
      (Version.start.acceptedWithin job 8).any (1 ≤ ·.dynamicPrecedence) &&
      (Parser.runJob (m := Id) job .standard none).2.1 = .complete &&
      (ParseRun.start none).passes job (fun raw =>
        raw.promising.length ≤ ParseRun.maxVersions && raw.Aligned) 8) = true := by
    decide +kernel
  obtain ⟨compiled, made, facts⟩ := Except.exists_of_any computed
  simp only [Bool.and_eq_true, decide_eq_true_eq] at facts
  obtain ⟨⟨⟨extras, accepted⟩, ends⟩, passes⟩ := facts
  obtain ⟨plain, lowered, apart⟩ := Except.exists_of_any extras
  obtain ⟨root, listed, preferred⟩ := List.any_eq_true.1 accepted
  have session := @Session.new compiled.grammar none .standard 0
  obtain ⟨-, -, memory, valid, -⟩ := session.valid
  have condensed := fun raw (condenses : ParseRun.Condenses _ _ raw) =>
    condenses.test valid.trim passes
  simp only [Bool.and_eq_true, decide_eq_true_eq] at condensed
  obtain ⟨-, best⟩ := Session.fresh_parse_best made lowered (of_decide_eq_true apart) session
    (.ofString " w") [] (Version.accepts_of_acceptedWithin listed)
    (fun raw condenses => by
      have room := (condensed raw condenses).1
      rwa [ParseRun.promising_erase, erase_list, List.length_map] at room)
    (fun raw condenses => .of_erase (condensed raw condenses).2)
  have image := Parser.parse_fresh_eq valid (.ofString " w") []
  have complete := (congrArg (fun outcome => outcome.2.1) image).trans ends
  obtain ⟨noErrors, -, greatest⟩ := best complete
  exact ⟨compiled, made, complete, noErrors,
    Int.le_trans (of_decide_eq_true preferred)
      (greatest root (Version.accepts_of_acceptedWithin listed))⟩

/-- Texts in which an extra may stand within a token, so that stacks with the same states may hold
extras at different places. -/
def Description.straddling : Description :=
  ⟨"straddling", [("s", .seq [.symbol "l", .symbol "m"]),
    ("l", .choice [.seq [.symbol "p", .string "n", .string "ba"], .seq [.symbol "q", .string "n"]]),
    ("p", .seq [.string "k"]), ("q", .seq [.string "k"]),
    ("m", .choice [.seq [.symbol "x", .symbol "m", .string "y"], .seq [.symbol "x", .string "y"]]),
    ("x", .pattern "abc|b" none)], [.string "c"], [], []⟩

/-- Versions with the same states are merged even if they hold extras at different places.  Then the
reading without errors may be lost, although there is room for all versions. -/
theorem fresh_parse_recovers_straddling :
    ∃ compiled plain root, Description.straddling.compile = .ok compiled ∧
      Description.straddling.toPlain = .ok plain ∧ compiled.grammar.ExtrasApart plain ∧
      let job : ParseJob := ⟨⟨compiled.grammar, none⟩, .ofString "knbabcyy"⟩
      let parser := Parser.ofGrammar compiled.grammar none .standard 0
      let output := (parser.parse job.text none []).1
      Accepts job .start root ∧
        (∀ raw, ParseRun.Condenses job parser.store.trim raw →
          raw.promising.length ≤ ParseRun.maxVersions) ∧
        output.status = .complete ∧ output.tree.root.errorCount ≠ 0 ∧
        ∃ run store, ParseRun.Visits job (.start none) parser.store.trim run store ∧
          run.lastRecovery ≠ none := by
  have computed : (Description.straddling.compile.toOption.any fun compiled =>
      let job : ParseJob := ⟨⟨compiled.grammar, none⟩, .ofString "knbabcyy"⟩
      let image := Parser.runJob (m := Id) job .standard none
      (Description.straddling.toPlain.toOption.any fun plain =>
        compiled.grammar.ExtrasApart plain) &&
      (Version.start.acceptedWithin job 20).any (fun _ => true) &&
      image.2.1 = .complete && image.1.errorCount ≠ 0 &&
      (ParseRun.afterSteps job 18 (.start none)).lastRecovery.isSome &&
      (ParseRun.start none).passes job (fun raw =>
        raw.promising.length ≤ ParseRun.maxVersions) 24) = true := by
    decide +kernel
  obtain ⟨compiled, made, facts⟩ := Except.exists_of_any computed
  simp only [Bool.and_eq_true, decide_eq_true_eq] at facts
  obtain ⟨⟨⟨⟨⟨extras, accepted⟩, ends⟩, errors⟩, recovers⟩, passes⟩ := facts
  obtain ⟨plain, lowered, apart⟩ := Except.exists_of_any extras
  obtain ⟨root, listed, -⟩ := List.any_eq_true.1 accepted
  have valid := Store.valid_fromId 0
  have image := @Parser.parse_fresh_eq _ (.ofGrammar compiled.grammar none .standard 0) valid
    (.ofString "knbabcyy") []
  refine ⟨compiled, plain, root, made, lowered, of_decide_eq_true apart,
    Version.accepts_of_acceptedWithin listed, fun raw condenses => ?_,
    (congrArg (fun outcome => outcome.2.1) image).trans ends, ?_, ?_⟩
  · have room := of_decide_eq_true (condenses.test valid.trim passes)
    rwa [ParseRun.promising_erase, erase_list, List.length_map] at room
  · rw [← Subtree.erase_errorCount, show Subtree.erase _ = _ from congrArg Prod.fst image]
    exact errors
  · obtain ⟨run, store, visits, same⟩ := ParseRun.Visits.of_reaches valid.trim
      ParseRun.start_known (ParseRun.reaches_afterSteps _ 18 (.start none))
    refine ⟨run, store, visits, fun calm => ?_⟩
    rw [← same, ParseRun.erase_lastRecovery, calm] at recovers
    cases recovers

end IncrementalGlr
