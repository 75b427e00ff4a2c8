import IncrementalGlr.Parse.Parser
import IncrementalGlr.Proofs.Moves

/-!
# Starting again

A run that has an earlier tree keeps it until it starts again, and what is left then is the run at
the start of the text up to its stats.  No step depends on the stats.  So a run that has started
again ends like one that never had an earlier tree.
-/

namespace IncrementalGlr

namespace ParseRun

/-- Whether two runs differ at most in their stats. -/
structure Alike (left right : ParseRun) : Prop where
  /-- The earlier tree is the same. -/
  reuse : left.reuse = right.reuse
  /-- The versions are the same. -/
  versions : left.versions = right.versions
  /-- The accepted trees are the same. -/
  finished : left.finished = right.finished
  /-- The latest recovery is the same. -/
  lastRecovery : left.lastRecovery = right.lastRecovery

namespace Alike

variable {left right : ParseRun}

theorem insertAt (alike : left.Alike right) (index : Nat) (versions : List Version) :
    (left.insertAt index versions).Alike (right.insertAt index versions) := by
  obtain ⟨reuse, same, finished, lastRecovery⟩ := alike
  refine ⟨reuse, ?_, finished, lastRecovery⟩
  rw [ParseRun.insertAt, ParseRun.insertAt, same]

theorem countReuse (alike : left.Alike right) (lookahead : Lookahead) :
    (left.countReuse lookahead).Alike (right.countReuse lookahead) := by
  obtain ⟨reuse, versions, finished, lastRecovery⟩ := alike
  cases lookahead <;> exact ⟨reuse, versions, finished, lastRecovery⟩

theorem condense (alike : left.Alike right) : left.condense.Alike right.condense := by
  obtain ⟨reuse, versions, finished, stats, lastRecovery⟩ := left
  obtain ⟨_, _, _, _, _⟩ := right
  obtain ⟨rfl, rfl, rfl, rfl⟩ := alike
  unfold ParseRun.condense survivors promising
  dsimp only
  split <;> exact ⟨rfl, rfl, rfl, rfl⟩

section Id

variable {job : ParseJob} {grammar : Grammar}

theorem nextLookahead (alike : left.Alike right) (job : ParseJob) (version : Version) :
    (ParseRun.nextLookahead job version left).1.Alike (ParseRun.nextLookahead job version right).1 ∧
      (ParseRun.nextLookahead job version left).2 = (ParseRun.nextLookahead job version right).2 := by
  obtain ⟨reuse, versions, finished, lastRecovery⟩ := alike
  unfold ParseRun.nextLookahead
  rw [reuse, versions]
  dsimp only
  split <;> exact ⟨⟨rfl, rfl, finished, lastRecovery⟩, rfl⟩

theorem apply (alike : left.Alike right) (grammar : Grammar) (version : Version)
    (lookahead : Lookahead) (fragile : Bool) (action : Action) :
    let image := ParseRun.apply (m := Id) grammar version lookahead fragile left action
    let other := ParseRun.apply (m := Id) grammar version lookahead fragile right action
    image.1.Alike other.1 ∧ image.2 = other.2 := by
  cases action with
  | shift next => exact ⟨alike.countReuse lookahead, rfl⟩
  | reduce production => exact ⟨alike, rfl⟩
  | accept =>
      obtain ⟨reuse, versions, finished, lastRecovery⟩ := alike
      exact ⟨⟨reuse, versions, congrArg (· ++ _) finished, lastRecovery⟩, rfl⟩

theorem applyAll (alike : left.Alike right) (grammar : Grammar) (version : Version)
    (lookahead : Lookahead) (fragile : Bool) (alternative : Nat) (actions : List Action) :
    let image := ParseRun.applyAll (m := Id) grammar version lookahead fragile alternative left
      actions
    let other := ParseRun.applyAll (m := Id) grammar version lookahead fragile alternative right
      actions
    image.1.Alike other.1 ∧ image.2 = other.2 := by
  induction actions generalizing alternative left right with
  | nil => exact ⟨alike, rfl⟩
  | cons action rest induction =>
      obtain ⟨first, result⟩ := alike.apply grammar
        { version with path := version.path ++ [alternative] } lookahead fragile action
      obtain ⟨others, results⟩ := induction first (alternative + 1)
      exact ⟨others, (congrArg (fun found => Option.toList found ++ _) result).trans
        (congrArg (fun found => Option.toList _ ++ found) results)⟩

theorem recover (alike : left.Alike right) (job : ParseJob) (version : Version) :
    (ParseRun.recover (m := Id) job version left).Alike
      (ParseRun.recover (m := Id) job version right) := by
  obtain ⟨reuse, versions, finished, lastRecovery⟩ := alike
  unfold ParseRun.recover
  rw [lastRecovery]
  dsimp only
  split
  · exact ⟨reuse, congrArg (· ++ _) versions, finished, rfl⟩
  · split
    · exact ⟨reuse, versions, congrArg (· ++ _) finished, rfl⟩
    · split
      · exact ⟨reuse, congrArg (· ++ _) versions, finished, rfl⟩
      · exact ⟨reuse, versions, finished, rfl⟩

theorem withoutAction (alike : left.Alike right) (job : ParseJob) (index : Nat) (version : Version)
    (lookahead : Lookahead) :
    (ParseRun.withoutAction (m := Id) job index version lookahead left).Alike
      (ParseRun.withoutAction (m := Id) job index version lookahead right) := by
  unfold ParseRun.withoutAction
  rw [alike.reuse, alike.versions, alike.finished]
  dsimp only
  split
  · exact (alike.countReuse lookahead).insertAt index _
  · split
    · split
      · exact ⟨rfl, rfl, rfl, rfl⟩
      · exact alike.recover job _
    · exact alike

theorem act (alike : left.Alike right) (job : ParseJob) (index : Nat) (version : Version)
    (lookahead : Lookahead) :
    (ParseRun.act (m := Id) job index version lookahead left).Alike
      (ParseRun.act (m := Id) job index version lookahead right) := by
  unfold ParseRun.act
  rw [alike.versions]
  dsimp only
  split
  · exact alike.withoutAction job index version lookahead
  · next action _ =>
      obtain ⟨applied, result⟩ := alike.apply job.grammar version lookahead
        (!right.versions.isEmpty) action
      simp only [bind, pure]
      rw [result]
      exact applied.insertAt index _
  · obtain ⟨applied, results⟩ := alike.applyAll job.grammar version lookahead true 0
        (job.grammar.actions version.state lookahead.symbol)
    simp only [bind, pure]
    rw [results]
    exact applied.insertAt index _

theorem reuseNode (alike : left.Alike right) (grammar : Grammar) (index : Nat) (version : Version)
    (node : Subtree) :
    (ParseRun.reuseNode (m := Id) grammar index version node left).Alike
      (ParseRun.reuseNode (m := Id) grammar index version node right) := by
  have counted : Alike
      { left with versions := right.versions, stats := left.stats.countReused }
      { right with stats := right.stats.countReused } :=
    ⟨alike.reuse, rfl, alike.finished, alike.lastRecovery⟩
  have rejected : Alike
      { left with versions := right.versions, reuse := left.reuse.map ReuseCursor.reject }
      { right with reuse := right.reuse.map ReuseCursor.reject } :=
    ⟨congrArg (Option.map ReuseCursor.reject) alike.reuse, rfl, alike.finished,
      alike.lastRecovery⟩
  unfold ParseRun.reuseNode
  rw [alike.versions]
  dsimp only
  split
  · exact counted.insertAt index _
  · exact alike.insertAt index _
  · exact rejected.insertAt index _

theorem onLookahead (alike : left.Alike right) (job : ParseJob) (index : Nat) (version : Version)
    (lookahead : Lookahead) :
    (ParseRun.onLookahead (m := Id) job index version lookahead left).Alike
      (ParseRun.onLookahead (m := Id) job index version lookahead right) := by
  cases lookahead with
  | token => exact alike.act job index version _
  | reused node =>
      unfold ParseRun.onLookahead
      dsimp only
      split
      · exact alike.act job index version _
      · exact alike.reuseNode job.grammar index version node

theorem advance (alike : left.Alike right) (job : ParseJob) (index : Nat) (version : Version) :
    (ParseRun.advance (m := Id) job index version left).Alike
      (ParseRun.advance (m := Id) job index version right) := by
  cases pending : version.lookahead with
  | some lookahead =>
      rw [advance_of_pending pending, advance_of_pending pending]
      exact alike.onLookahead job index _ lookahead
  | none =>
      obtain ⟨next, same⟩ := alike.nextLookahead job version
      rw [advance_of_unknown pending, advance_of_unknown pending, same]
      exact next.onLookahead job index _ _

/-- Runs that are alike have steps that are alike. -/
theorem step (alike : left.Alike right) {next : ParseRun}
    (stepped : left.step? (m := Id) job = some next) :
    ∃ other, right.step? (m := Id) job = some other ∧ next.Alike other := by
  unfold step? at stepped ⊢
  rw [alike.versions] at stepped
  obtain ⟨index, indexFound, rest⟩ := Option.bind_eq_some_iff.1 stepped
  obtain ⟨version, found, same⟩ := Option.bind_eq_some_iff.1 rest
  obtain rfl := Option.some.inj same
  have taken : Alike { left with versions := right.versions.eraseIdx index }
      { right with versions := right.versions.eraseIdx index } :=
    ⟨alike.reuse, rfl, alike.finished, alike.lastRecovery⟩
  refine ⟨_, ?_, (taken.advance job index version).condense⟩
  rw [indexFound, Option.bind_eq_bind, Option.bind_some, found]
  rfl

theorem step?_eq_none (alike : left.Alike right) (stuck : left.step? (m := Id) job = none) :
    right.step? (m := Id) job = none := by
  rw [ParseRun.step?_eq_none] at stuck ⊢
  rw [← alike.versions, stuck]

theorem runFor (alike : left.Alike right) (job : ParseJob) (deadline : Option Nat)
    (made operations : Nat) :
    let image := ParseRun.runFor (m := Id) job deadline made operations left
    let other := ParseRun.runFor (m := Id) job deadline made operations right
    image.1.Alike other.1 ∧ image.2 = other.2 := by
  induction operations generalizing made left right with
  | zero =>
      refine ⟨alike, ?_⟩
      unfold ParseRun.runFor
      cases stepped : left.step? (m := Id) job with
      | none =>
          have stuck := alike.step?_eq_none stepped
          simp only [stuck]
          rfl
      | some next =>
          obtain ⟨other, otherStepped, -⟩ := alike.step stepped
          simp only [otherStepped]
          rfl
  | succ operations induction =>
      unfold ParseRun.runFor
      cases stepped : left.step? (m := Id) job with
      | none =>
          have stuck := alike.step?_eq_none stepped
          rw [stuck]
          exact ⟨alike, rfl⟩
      | some next =>
          obtain ⟨other, otherStepped, nextAlike⟩ := alike.step stepped
          rw [otherStepped]
          dsimp only
          split
          · exact ⟨alike, rfl⟩
          · exact induction nextAlike (made + 1)

theorem result (alike : left.Alike right) (job : ParseJob) :
    ParseRun.result (m := Id) job left = ParseRun.result (m := Id) job right := by
  unfold ParseRun.result
  rw [alike.finished, alike.versions]

end Id

end Alike

@[simp]
theorem condense_stats (run : ParseRun) : run.condense.stats = run.stats := by
  unfold condense
  split <;> rfl

/-- Whether a run still has an earlier tree if it had one, and has not started again. -/
structure Continues (run next : ParseRun) : Prop where
  /-- An earlier tree is kept. -/
  reuse : next.reuse.isSome = run.reuse.isSome
  /-- The parse is as full as it was. -/
  full : next.stats.full = run.stats.full

namespace Continues

variable {job : ParseJob} {run current next : ParseRun}

theorem refl (run : ParseRun) : run.Continues run := ⟨rfl, rfl⟩

theorem trans (first : run.Continues current) (second : current.Continues next) :
    run.Continues next :=
  ⟨second.reuse.trans first.reuse, second.full.trans first.full⟩

theorem insertAt (continues : run.Continues next) (index : Nat) (versions : List Version) :
    run.Continues (next.insertAt index versions) :=
  ⟨continues.reuse, continues.full⟩

theorem condense (continues : run.Continues next) : run.Continues next.condense := by
  refine ⟨?_, ?_⟩
  · rw [condense_reuse]
    exact continues.reuse
  · rw [condense_stats]
    exact continues.full

theorem countReuse (lookahead : Lookahead) (run : ParseRun) :
    run.Continues (run.countReuse lookahead) := by
  cases lookahead <;> exact ⟨rfl, rfl⟩

theorem nextLookahead (job : ParseJob) (version : Version) (run : ParseRun) :
    run.Continues (ParseRun.nextLookahead job version run).1 := by
  unfold ParseRun.nextLookahead
  dsimp only
  split <;> refine ⟨?_, rfl⟩ <;> dsimp only <;> split <;> simp

theorem apply (grammar : Grammar) (version : Version) (lookahead : Lookahead) (fragile : Bool)
    (run : ParseRun) (action : Action) :
    run.Continues (ParseRun.apply (m := Id) grammar version lookahead fragile run action).1 := by
  cases action with
  | shift next => exact countReuse lookahead run
  | reduce production => exact refl run
  | accept => exact ⟨rfl, rfl⟩

theorem applyAll (grammar : Grammar) (version : Version) (lookahead : Lookahead) (fragile : Bool)
    (alternative : Nat) (run : ParseRun) (actions : List Action) :
    run.Continues
      (ParseRun.applyAll (m := Id) grammar version lookahead fragile alternative run actions).1 := by
  induction actions generalizing alternative run with
  | nil => exact refl run
  | cons action rest induction =>
      exact (apply grammar _ lookahead fragile run action).trans (induction (alternative + 1) _)

theorem recover (job : ParseJob) (version : Version) (run : ParseRun) :
    run.Continues (ParseRun.recover (m := Id) job version run) := by
  unfold ParseRun.recover
  dsimp only
  split
  · exact ⟨rfl, rfl⟩
  · split
    · exact ⟨rfl, rfl⟩
    · split <;> exact ⟨rfl, rfl⟩

theorem reuseNode (grammar : Grammar) (index : Nat) (version : Version) (node : Subtree)
    (run : ParseRun) :
    run.Continues (ParseRun.reuseNode (m := Id) grammar index version node run) := by
  unfold ParseRun.reuseNode
  dsimp only
  split
  · exact ⟨rfl, rfl⟩
  · exact ⟨rfl, rfl⟩
  · exact ⟨Option.isSome_map, rfl⟩

end Continues

/-- Whether nothing but its stats is left of a run. -/
structure IsRestart (run : ParseRun) : Prop where
  /-- It is at the start of the text. -/
  start : run.Alike (start none)
  /-- It does without the earlier tree. -/
  full : run.stats.full = true

section Step

variable {job : ParseJob} {run next : ParseRun}

theorem withoutAction_continues (job : ParseJob) (index : Nat) (version : Version)
    (lookahead : Lookahead) (run : ParseRun) :
    let image := withoutAction (m := Id) job index version lookahead run
    run.Continues image ∨ image.IsRestart := by
  unfold withoutAction
  dsimp only
  split
  · exact .inl ((Continues.countReuse lookahead run).insertAt index _)
  · split
    · split
      · exact .inr ⟨⟨rfl, rfl, rfl, rfl⟩, rfl⟩
      · exact .inl (.recover job _ run)
    · exact .inl (.refl run)

theorem act_continues (job : ParseJob) (index : Nat) (version : Version) (lookahead : Lookahead)
    (run : ParseRun) :
    let image := act (m := Id) job index version lookahead run
    run.Continues image ∨ image.IsRestart := by
  unfold act
  dsimp only
  split
  · exact withoutAction_continues job index version lookahead run
  · exact .inl ((Continues.apply job.grammar version lookahead _ run _).insertAt index _)
  · exact .inl ((Continues.applyAll job.grammar version lookahead true 0 run _).insertAt index _)

theorem onLookahead_continues (job : ParseJob) (index : Nat) (version : Version)
    (lookahead : Lookahead) (run : ParseRun) :
    let image := onLookahead (m := Id) job index version lookahead run
    run.Continues image ∨ image.IsRestart := by
  cases lookahead with
  | token => exact act_continues job index version _ run
  | reused node =>
      unfold onLookahead
      dsimp only
      split
      · exact act_continues job index version _ run
      · exact .inl (Continues.reuseNode job.grammar index version node run)

theorem advance_continues (job : ParseJob) (index : Nat) (version : Version) (run : ParseRun) :
    let image := advance (m := Id) job index version run
    run.Continues image ∨ image.IsRestart := by
  cases pending : version.lookahead with
  | some lookahead =>
      rw [advance_of_pending pending]
      exact onLookahead_continues job index _ lookahead run
  | none =>
      have looked := Continues.nextLookahead job version run
      rw [advance_of_unknown pending]
      exact (onLookahead_continues job index _ _ _).imp_left looked.trans

theorem IsRestart.condense (restart : run.IsRestart) : run.condense.IsRestart := by
  refine ⟨restart.start.condense, ?_⟩
  rw [condense_stats]
  exact restart.full

/-- A step keeps the earlier tree or starts again. -/
theorem step?_continues (stepped : run.step? (m := Id) job = some next) :
    run.Continues next ∨ next.IsRestart := by
  unfold step? at stepped
  obtain ⟨index, indexFound, rest⟩ := Option.bind_eq_some_iff.1 stepped
  obtain ⟨version, found, same⟩ := Option.bind_eq_some_iff.1 rest
  obtain rfl := Option.some.inj same
  have taken : run.Continues { run with versions := run.versions.eraseIdx index } := ⟨rfl, rfl⟩
  exact (advance_continues job index version { run with
    versions := run.versions.eraseIdx index }).imp
      (fun continues => (taken.trans continues).condense) IsRestart.condense

section Bounded

variable {deadline : Option Nat} {made : Nat}

/-- A run goes on with a step while there is time. -/
theorem runFor_succ (stepped : run.step? (m := Id) job = some next)
    (soon : ParseOptions.isOver deadline made = false) (operations : Nat) :
    runFor (m := Id) job deadline made (operations + 1) run =
      runFor (m := Id) job deadline (made + 1) operations next := by
  rw [runFor, stepped]
  exact if_neg (Bool.eq_false_iff.1 soon)

/-- A run that comes to its end does so with any larger number of operations. -/
theorem runFor_mono {fewer more : Nat} (enough : fewer ≤ more)
    (complete : (runFor (m := Id) job deadline made fewer run).2 = .complete) :
    runFor (m := Id) job deadline made more run = runFor (m := Id) job deadline made fewer run := by
  induction fewer generalizing run more made with
  | zero =>
      have stuck : run.step? (m := Id) job = none := (runFor_reaches deadline made 0 run).2 complete
      cases more with
      | zero => rfl
      | succ more =>
          unfold runFor
          rw [stuck]
          rfl
  | succ fewer induction =>
      obtain ⟨more, rfl⟩ := Nat.exists_eq_add_of_lt (Nat.lt_of_succ_le enough)
      unfold runFor at complete ⊢
      cases stepped : run.step? (m := Id) job with
      | none => rfl
      | some next =>
          rw [stepped] at complete
          dsimp only at complete ⊢
          split
          · rfl
          · next soon =>
              rw [if_neg soon] at complete
              exact induction (Nat.le_add_right fewer more) complete

/-- A run that may make no more steps than there is time for does not know of the deadline. -/
theorem runFor_timely {operations : Nat} (early : ∀ due ∈ deadline, made + operations ≤ due)
    (other : Nat) : runFor (m := Id) job deadline made operations run =
      runFor (m := Id) job none other operations run := by
  induction operations generalizing run made other with
  | zero => rfl
  | succ operations induction =>
      cases stepped : run.step? (m := Id) job with
      | none => rw [runFor, runFor, stepped]
      | some next =>
          have soon : ParseOptions.isOver deadline made = false :=
            ParseOptions.isOver_eq_false fun due member =>
              Nat.lt_of_lt_of_le (Nat.lt_add_of_pos_right operations.succ_pos) (early due member)
          rw [Nat.add_comm operations, ← Nat.add_assoc] at early
          rw [runFor_succ stepped soon, runFor_succ stepped (ParseOptions.isOver_none other)]
          exact induction early (other + 1)

/-- A run that comes to its end in time does so if it begins earlier: then the clock is only looked
at when the time was not over either. -/
theorem runFor_earlier {sooner operations : Nat} (earlier : sooner ≤ made)
    (early : ∀ before < made, ParseOptions.isOver deadline before = false)
    (complete : (runFor (m := Id) job deadline made operations run).2 = .complete) :
    runFor (m := Id) job deadline sooner operations run =
      runFor (m := Id) job deadline made operations run := by
  induction operations generalizing run made sooner with
  | zero => rfl
  | succ operations induction =>
      cases stepped : run.step? (m := Id) job with
      | none => rw [runFor, runFor, stepped]
      | some next =>
          cases soon : ParseOptions.isOver deadline made with
          | true =>
              rw [runFor, stepped] at complete
              dsimp only at complete
              rw [if_pos soon] at complete
              cases complete
          | false =>
              have timely : ∀ before < made + 1, ParseOptions.isOver deadline before = false :=
                Nat.forall_lt_succ_right.2 ⟨early, soon⟩
              rw [runFor_succ stepped soon] at complete ⊢
              rw [runFor_succ stepped (timely sooner (Nat.lt_succ_of_le earlier))]
              exact induction (Nat.succ_le_succ earlier) timely complete

/-- A run with an earlier tree that comes to its end without it has started again on the way. -/
theorem runFor_full {operations : Nat} (partly : run.stats.full = false)
    (early : ∀ before < made, ParseOptions.isOver deadline before = false)
    (complete : (runFor (m := Id) job deadline made operations run).2 = .complete)
    (full : (runFor (m := Id) job deadline made operations run).1.stats.full = true) :
    ∃ restart : ParseRun, restart.IsRestart ∧ ∃ later, ∃ fewer ≤ operations,
      (∀ before < later, ParseOptions.isOver deadline before = false) ∧
      runFor (m := Id) job deadline made operations run =
        runFor (m := Id) job deadline later fewer restart := by
  induction operations generalizing run made with
  | zero =>
      rw [show run.stats.full = true from full] at partly
      cases partly
  | succ operations induction =>
      unfold runFor at complete full
      cases stepped : run.step? (m := Id) job with
      | none =>
          rw [stepped] at full
          rw [show run.stats.full = true from full] at partly
          cases partly
      | some next =>
          rw [stepped] at complete full
          dsimp only at complete full
          split at complete
          · cases complete
          · next soon =>
              rw [if_neg soon] at full
              have timely : ∀ before < made + 1, ParseOptions.isOver deadline before = false :=
                Nat.forall_lt_succ_right.2 ⟨early, Bool.eq_false_iff.2 soon⟩
              rw [runFor_succ stepped (Bool.eq_false_iff.2 soon)]
              rcases step?_continues stepped with continues | restart
              · obtain ⟨restart, isRestart, later, fewer, less, inTime, same⟩ :=
                  induction (continues.full.trans partly) timely complete full
                exact ⟨restart, isRestart, later, fewer, Nat.le_succ_of_le less, inTime, same⟩
              · exact ⟨next, restart, made + 1, operations, Nat.le_succ operations, timely, rfl⟩

end Bounded

end Step

end ParseRun

/-- A parse that comes to its end without an earlier tree gives what it would have given if it had
never had one. -/
theorem Parser.runJob_full {job : ParseJob} {options : ParseOptions} {reuse : Option ReuseCursor}
    (complete : (runJob (m := Id) job options reuse).2.1 = .complete)
    (full : (runJob (m := Id) job options reuse).2.2.full = true) :
    (runJob (m := Id) job options none).1 = (runJob (m := Id) job options reuse).1 ∧
      (runJob (m := Id) job options none).2.1 = .complete := by
  cases reuse with
  | none => exact ⟨rfl, complete⟩
  | some cursor =>
      have ends : (ParseRun.runFor (m := Id) job options.deadline 0
          (options.maxOperations.getD maxOperations) (.start (some cursor))).2 = .complete := complete
      obtain ⟨restart, isRestart, later, fewer, less, early, same⟩ := ParseRun.runFor_full rfl
        (fun before never => absurd never (Nat.not_lt_zero before)) ends full
      obtain ⟨alike, status⟩ := isRestart.start.runFor job options.deadline later fewer
      rw [same] at ends
      -- Without the earlier tree the parse begins where this one starts again, but has its time from
      -- the beginning.
      have sooner := ParseRun.runFor_earlier (Nat.zero_le later) early (status.symm.trans ends)
      have finishes := (congrArg Prod.snd sooner).trans (status.symm.trans ends)
      have enough := (ParseRun.runFor_mono less finishes).trans sooner
      have results := alike.result job
      rw [← enough, ← same] at results
      refine ⟨results.symm, ?_⟩
      change (ParseRun.runFor (m := Id) job options.deadline 0
          (options.maxOperations.getD maxOperations) (.start none)).2 = .complete
      rw [enough]
      exact status.symm.trans ends

end IncrementalGlr
