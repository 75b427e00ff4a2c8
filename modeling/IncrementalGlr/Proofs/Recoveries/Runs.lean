import IncrementalGlr.Proofs.Limit
import IncrementalGlr.Proofs.Recoveries.Steps
import IncrementalGlr.Proofs.Table.Loaded
import Mathlib.Algebra.BigOperators.Group.Finset.Basic
import Mathlib.Algebra.Order.BigOperators.Group.Finset

/-!
# Runs that recover

A run with an earlier tree does not recover until it has started again.  From then on no version
falls back, so the places of its recoveries never decrease, and a second recovery at one place leads
past it.

The recoveries of a parse are those of its run, which differ in nothing from those of the run
without a store.  A grammar that was loaded never has a lexical rule for the end of the input, so
without a scanner the tokens that are skipped are never empty, and the recoveries make progress.
-/

namespace IncrementalGlr

open Erasable

/-! ## Runs -/

namespace ParseRun

/-- The places of the recoveries within a number of steps of a run, in the order of the steps. -/
def recoveries (job : ParseJob) : Nat → ParseRun → List Nat
  | 0, _ => []
  | steps + 1, run =>
    match run.step? (m := Id) job with
    | none => []
    | some next => (run.recovery? job).toList ++ recoveries job steps next

/-- Whether places of recoveries make progress from an offset on in a text of a size: they never
decrease, and none of them occurs more than twice, the recovery before included. -/
structure Progress (size low : Nat) (last : Option Nat) (places : List Nat) : Prop where
  /-- They never decrease. -/
  sorted : places.Pairwise (· ≤ ·)
  /-- They are inside the text. -/
  between : ∀ place ∈ places, low ≤ place ∧ place ≤ size
  /-- None of them occurs more than twice. -/
  twice : ∀ place, places.count place ≤ 2
  /-- The place of the recovery before occurs once at most. -/
  once : ∀ place ∈ last, places.count place ≤ 1

namespace Progress

variable {size low place : Nat} {last : Option Nat} {places : List Nat}

theorem nil (size low : Nat) (last : Option Nat) : Progress size low last [] :=
  ⟨.nil, nofun, fun _ => Nat.zero_le 2, fun _ _ => Nat.zero_le 1⟩

/-- A place that comes before all others does not occur among them. -/
theorem count_of_lt (progress : Progress size low last places) (before : place < low) :
    places.count place = 0 :=
  List.count_eq_zero.2 fun member => Nat.not_le_of_lt before (progress.between place member).1

/-- One more recovery comes before those that make progress from its place on.  If the one before
was at the same place, the others must be past it. -/
theorem cons (rest : Progress size place (some place) places) (bound : place ≤ size)
    (above : low ≤ place) (lately : ∀ earlier ∈ last, earlier ≤ low)
    (past : last = some place → ∀ other ∈ places, place < other) :
    Progress size low last (place :: places) where
  sorted := List.pairwise_cons.2 ⟨fun other member => (rest.between other member).1, rest.sorted⟩
  between := List.forall_mem_cons.2
    ⟨⟨above, bound⟩, fun other member => (rest.between other member).imp_left above.trans⟩
  twice other := by
    have occurs := rest.twice other
    have here := rest.once place rfl
    rw [List.count_cons]
    split_ifs with same
    · rw [beq_iff_eq] at same
      subst same
      omega
    · exact occurs
  once earlier lastly := by
    have early := (lately earlier lastly).trans above
    rw [List.count_cons]
    split_ifs with same
    · rw [beq_iff_eq] at same
      subst same
      have gone : places.count place = 0 :=
        List.count_eq_zero.2 fun member => Nat.lt_irrefl _ (past lastly place member)
      omega
    · have before : earlier < place := early.lt_of_ne fun equal => same (beq_iff_eq.2 equal.symm)
      rw [rest.count_of_lt before]
      exact Nat.zero_le 1

/-- There are at most two recoveries for each offset of the text and its end. -/
theorem length_le (progress : Progress size low last places) : places.length ≤ 2 * (size + 1) := by
  have inside : places.toFinset ⊆ Finset.range (size + 1) := fun place member =>
    Finset.mem_range.2 (Nat.lt_succ_of_le (progress.between place (List.mem_toFinset.1 member)).2)
  calc places.length
      = ∑ place ∈ places.toFinset, places.count place :=
        (List.sum_toFinset_count_eq_length places).symm
    _ ≤ places.toFinset.card * 2 :=
        Finset.sum_le_card_nsmul _ _ 2 fun place _ => progress.twice place
    _ ≤ (Finset.range (size + 1)).card * 2 := Nat.mul_le_mul_right 2 (Finset.card_le_card inside)
    _ = 2 * (size + 1) := by rw [Finset.card_range, Nat.mul_comm]

end Progress

variable {job : ParseJob} {run next : ParseRun} {low : Nat}

/-- The recoveries of a run without an earlier tree make progress. -/
theorem PlacedFrom.progress (finds : job.FindsTokens) (placed : run.PlacedFrom job.text low)
    (lately : ∀ place ∈ run.lastRecovery, place ≤ low) (steps : Nat) :
    Progress job.text.size low run.lastRecovery (recoveries job steps run) := by
  induction steps generalizing run low with
  | zero => exact .nil _ _ _
  | succ steps induction =>
      rw [recoveries]
      cases stepped : run.step? (m := Id) job with
      | none => exact .nil _ _ _
      | some next =>
          obtain ⟨idle, same, nextPlaced⟩ |
              ⟨place, above, bound, recovers, marked, nextPlaced, past⟩ :=
            step?_recovery finds placed stepped
          · have later := induction nextPlaced (same ▸ lately)
            rw [same] at later
            simpa only [idle, Option.toList_none, List.nil_append] using later
          · have there : ∀ other ∈ next.lastRecovery, other = place := fun other lastly =>
              (Option.some.inj (marked.symm.trans lastly)).symm
            have later := induction nextPlaced fun other lastly => (there other lastly).le
            rw [marked] at later
            simp only [recovers]
            refine later.cons bound above lately fun again other member => ?_
            have behind := induction (past again) fun other lastly =>
              (there other lastly).le.trans (Nat.le_succ place)
            exact (behind.between other member).1

/-- A run with an earlier tree does not recover.  It keeps the tree or starts again. -/
theorem step?_reusing (reusing : run.reuse.isSome = true)
    (stepped : run.step? (m := Id) job = some next) :
    run.recovery? job = none ∧ (next.IsRestart ∨
      next.reuse.isSome = true ∧ next.lastRecovery = run.lastRecovery) := by
  obtain ⟨before, version, after, -, -, made, recovery⟩ := exists_of_step? stepped
  rw [recovery]
  cases advance_handles job before.length version { run with versions := before ++ after } with
  | goesOn same =>
      refine ⟨same none, (step?_continues stepped).symm.imp_right fun continues =>
        ⟨continues.reuse.trans reusing, ?_⟩⟩
      rw [made, condense_lastRecovery]
      exact same _
  | restarts _ again =>
      refine ⟨(again none).start.lastRecovery, .inl ?_⟩
      rw [made]
      exact (again _).condense
  | recovers _ fresh =>
      rw [show run.reuse = none from fresh] at reusing
      cases reusing

/-- The recoveries of a run with an earlier tree make progress once it has started again. -/
theorem progress_of_reusing (finds : job.FindsTokens) (reusing : run.reuse.isSome = true)
    (unmarked : run.lastRecovery = none) (steps : Nat) :
    Progress job.text.size 0 none (recoveries job steps run) := by
  induction steps generalizing run with
  | zero => exact .nil _ _ _
  | succ steps induction =>
      rw [recoveries]
      cases stepped : run.step? (m := Id) job with
      | none => exact .nil _ _ _
      | some next =>
          obtain ⟨idle, restart | ⟨still, same⟩⟩ := step?_reusing reusing stepped
          · have nextUnmarked : next.lastRecovery = none := restart.start.lastRecovery
            have later := (PlacedFrom.of_start restart.start job.text).progress finds
              (fun place lastly => by rw [nextUnmarked] at lastly; cases lastly) steps
            rw [nextUnmarked] at later
            simpa only [idle, Option.toList_none, List.nil_append] using later
          · have later := induction still (same.trans unmarked)
            simpa only [idle, Option.toList_none, List.nil_append] using later

/-- The recoveries of a run make progress, whatever earlier tree it starts with. -/
theorem progress_start (finds : job.FindsTokens) (reuse : Option ReuseCursor) (steps : Nat) :
    Progress job.text.size 0 none (recoveries job steps (.start reuse)) := by
  cases reuse with
  | none =>
      have placed : (start none).PlacedFrom job.text 0 := .of_start ⟨rfl, rfl, rfl, rfl⟩ job.text
      exact placed.progress finds nofun steps
  | some cursor => exact progress_of_reusing finds rfl rfl steps

end ParseRun

/-! ## Parses -/

/-- Without a scanner a loaded grammar finds tokens wherever it looks for them. -/
theorem Grammar.IsLoaded.findsTokens {job : ParseJob} (loaded : job.grammar.IsLoaded)
    (unscanned : job.lexer.external = none) : job.FindsTokens := by
  intro offset bound lexState
  refine Lexer.tokenAt_standsAt loaded.lexRule_ne loaded.length_patterns
    (fun before token found => ?_) bound
  rw [unscanned] at found
  cases found

namespace ParseRun

variable {job : ParseJob} {run : ParseRun} {store : Store} {memory : Memory}

/-- The place at which the next step of a run on a store recovers from an error, if it does.  As
without a store, this is what the step leaves behind if there has been no recovery before. -/
def recoveryOn? (job : ParseJob) (run : ParseRun) (store : Store) : Option Nat :=
  ({ run with lastRecovery := none }.step? (m := StateM Store) job).bind fun step =>
    lastRecovery (step store).1

/-- The places of the recoveries within a number of steps of a run on a store, in the order of the
steps. -/
def recoveriesOn (job : ParseJob) : Nat → ParseRun → Store → List Nat
  | 0, _, _ => []
  | steps + 1, run, store =>
    match run.step? (m := StateM Store) job with
    | none => []
    | some step => (run.recoveryOn? job store).toList ++
        recoveriesOn job steps (step store).1 (step store).2

/-- A run on a store recovers where the run without it does. -/
theorem recoveryOn?_eq (valid : store.Valid memory) (known : Known memory run) :
    run.recoveryOn? job store = recovery? job (erase run) := by
  have mirrored := @mirrors_step? memory job { run with lastRecovery := none } known
  unfold recoveryOn? recovery?
  cases found : step? (m := StateM Store) job { run with lastRecovery := none } with
  | none =>
      rw [found] at mirrored
      rw [show step? (m := Id) job { erase run with lastRecovery := none } = none from mirrored]
      rfl
  | some step =>
      rw [found] at mirrored
      obtain ⟨image, imageFound, mirrors⟩ := mirrored
      obtain ⟨-, -, -, -, erased⟩ := mirrors store valid
      rw [show step? (m := Id) job { erase run with lastRecovery := none } = some image from
        imageFound]
      exact (erase_lastRecovery _).symm.trans (congrArg lastRecovery erased)

theorem recoveriesOn_eq (valid : store.Valid memory) (known : Known memory run) (steps : Nat) :
    recoveriesOn job steps run store = recoveries job steps (erase run) := by
  induction steps generalizing run store memory with
  | zero => rfl
  | succ steps induction =>
      have mirrored := mirrors_step? job known
      rw [recoveriesOn, recoveries]
      cases found : run.step? (m := StateM Store) job with
      | none =>
          rw [found] at mirrored
          rw [show step? (m := Id) job (erase run) = none from mirrored]
      | some step =>
          rw [found] at mirrored
          obtain ⟨image, imageFound, mirrors⟩ := mirrored
          obtain ⟨larger, -, afterValid, afterKnown, erased⟩ := mirrors store valid
          rw [imageFound]
          dsimp only
          rw [recoveryOn?_eq valid known, induction afterValid afterKnown]
          exact congrArg (fun next => _ ++ recoveries job steps next) erased

end ParseRun

/-- The places of the recoveries within a number of steps of the run of a parse.  There is no run if
the earlier tree fits as it is. -/
def Parser.recoveries (parser : Parser) (text : Text) (previous : Option SyntaxTree)
    (edits : List Edit) (steps : Nat) : List Nat :=
  let (earlier, store) := parser.considered text previous edits
  (Earlier.cursor? earlier).elim [] fun reuse =>
    ParseRun.recoveriesOn ⟨⟨parser.grammar, parser.external⟩, text⟩ steps (.start reuse) store

/-- The recoveries of a parse are those of a run from the start without a store, perhaps with an
earlier tree, unless there is no run. -/
theorem Parser.recoveries_eq {memory : Memory} {parser : Parser}
    (valid : parser.store.Valid memory) {previous : Option SyntaxTree}
    (known : ∀ tree ∈ previous, memory.Knows tree.root) (text : Text) (edits : List Edit)
    (steps : Nat) :
    parser.recoveries text previous edits steps = [] ∨
      ∃ reuse, parser.recoveries text previous edits steps =
        ParseRun.recoveries ⟨⟨parser.grammar, parser.external⟩, text⟩ steps (.start reuse) := by
  obtain ⟨larger, -, consideredValid, sound⟩ :=
    consider_sound valid.trim parser.grammar parser.options parser.last known text edits
  unfold recoveries considered
  generalize consider parser.grammar parser.options parser.last previous text edits
    parser.store.trim = outcome at consideredValid sound
  obtain ⟨tree | root | _, store⟩ := outcome
  · exact .inl rfl
  · refine .inr ⟨some (.ofRoot root.erase), ?_⟩
    have cursorKnown : Known larger (some (ReuseCursor.ofRoot root)) :=
      known_some.2 (known_cons.2 ⟨sound.1, known_nil⟩)
    exact ParseRun.recoveriesOn_eq consideredValid (ParseRun.known_start cursorKnown) steps
  · exact .inr ⟨none,
      ParseRun.recoveriesOn_eq consideredValid (ParseRun.known_start known_none) steps⟩

/-- The recoveries of a parse without an earlier tree are those of a run without one. -/
theorem Parser.recoveries_fresh {memory : Memory} {parser : Parser}
    (valid : parser.store.Valid memory) (text : Text) (edits : List Edit) (steps : Nat) :
    parser.recoveries text none edits steps =
      ParseRun.recoveries ⟨⟨parser.grammar, parser.external⟩, text⟩ steps (.start none) :=
  ParseRun.recoveriesOn_eq valid.trim (ParseRun.known_start known_none) steps

/-- Whatever has happened to parsers and trees before, and whatever tree and edits are given: if the
grammar of a parser was loaded, however odd its table is, and there is no scanner, then error
recovery makes progress in every parse.  The places of the recoveries never decrease, and none of
them occurs more than twice; so there are at most two for each offset of the text and its end. -/
theorem History.recoveries_progress {nextId : Nat} {parsers : List Parser}
    {trees : List SyntaxTree} (history : History nextId parsers trees) {parser : Parser}
    (listed : parser ∈ parsers) {data : GrammarData}
    (loaded : Grammar.ofData data = .ok parser.grammar) (unscanned : parser.external = none)
    (text : Text) {previous : Option SyntaxTree} (earlier : ∀ tree ∈ previous, tree ∈ trees)
    (edits : List Edit) (steps : Nat) :
    let places := (parser.continueFrom nextId).recoveries text previous edits steps
    places.Pairwise (· ≤ ·) ∧ (∀ place ∈ places, place ≤ text.size) ∧
      (∀ place, places.count place ≤ 2) ∧ places.length ≤ 2 * (text.size + 1) := by
  intro places
  obtain ⟨memory, -, stores, known⟩ := history.coherent
  have finds : ParseJob.FindsTokens ⟨⟨parser.grammar, parser.external⟩, text⟩ :=
    Grammar.IsLoaded.findsTokens (Grammar.isLoaded_of_ofData loaded).2 unscanned
  have progress : ParseRun.Progress text.size 0 none places := by
    obtain none | ⟨reuse, same⟩ := @Parser.recoveries_eq memory (parser.continueFrom nextId)
      (stores parser listed) previous (fun tree member => known tree (earlier tree member)) text
      edits steps
    · rw [show places = [] from none]
      exact .nil _ _ _
    · rw [show places = _ from same]
      exact ParseRun.progress_start finds reuse steps
  exact ⟨progress.sorted, fun place member => (progress.between place member).2, progress.twice,
    progress.length_le⟩

/-- Contents that no grammar is compiled to: in the state in which a text begins nothing is reduced
to a text because of a `y`, though no `y` can follow it. -/
def GrammarData.hasty : GrammarData where
  name := "hasty"
  symbols := [⟨"end", .endOfInput, false, true, false⟩, ⟨"x", .terminal, true, false, false⟩,
    ⟨"y", .terminal, true, false, false⟩, ⟨"s", .nonterminal, true, true, false⟩]
  terminalCount := 3
  startSymbol := ⟨3⟩
  lexRules := [⟨⟨1⟩, .literal "x", 0⟩, ⟨⟨2⟩, .literal "y", 0⟩]
  productions := [⟨⟨3⟩, 0, 0⟩]
  lexStates := [[⟨0⟩, ⟨1⟩, ⟨2⟩]]
  states := [⟨⟨0⟩, [(⟨1⟩, [.shift ⟨1⟩]), (⟨2⟩, [.reduce ⟨0⟩])], [(⟨3⟩, ⟨2⟩)]⟩, ⟨⟨0⟩, [], []⟩,
    ⟨⟨0⟩, [(⟨0⟩, [.accept])], []⟩]

/-- Each `y` is recovered from twice: the state in which the text begins seems to go on with it,
but after the reduction there is an error again. -/
theorem recoveries_progress_hasty :
    ∃ grammar, Grammar.ofData .hasty = .ok grammar ∧
      let places := (Parser.ofGrammar grammar none .standard 0).recoveries (.ofString "xyxy")
        none [] 20
      places = [1, 1, 3, 3] ∧ places.Pairwise (· ≤ ·) ∧ (∀ place, places.count place ≤ 2) ∧
        places.length ≤ 10 := by
  have computed : ((Grammar.ofData .hasty).toOption.any fun grammar =>
      ParseRun.recoveries ⟨⟨grammar, none⟩, .ofString "xyxy"⟩ 20 (.start none) = [1, 1, 3, 3]) =
        true := by
    decide +kernel
  obtain ⟨grammar, loaded, recovers⟩ := Except.exists_of_any computed
  have history := History.nothing.new grammar none .standard
  obtain ⟨memory, -, stores, -⟩ := history.coherent
  obtain ⟨sorted, -, twice, few⟩ := History.recoveries_progress history List.mem_cons_self loaded
    rfl (.ofString "xyxy") (fun tree (found : tree ∈ none) => nomatch found) [] 20
  refine ⟨grammar, loaded, ?_, sorted, twice, few⟩
  exact (Parser.recoveries_fresh (stores _ List.mem_cons_self) _ [] 20).trans
    (of_decide_eq_true recovers)

end IncrementalGlr
