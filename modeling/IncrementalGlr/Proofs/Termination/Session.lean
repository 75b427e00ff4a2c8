import IncrementalGlr.Proofs.Coverage.Session
import IncrementalGlr.Proofs.Derivation.Session
import IncrementalGlr.Proofs.Recoveries.Steps
import IncrementalGlr.Proofs.Search.Machine
import IncrementalGlr.Proofs.Search.Step
import IncrementalGlr.Proofs.Termination.Effort
import Mathlib.Data.Multiset.DershowitzManna

/-!
# Parses come to an end

Without an earlier tree, an operation limit and a deadline a parse comes to its end after finitely
many steps, unless the grammar has cycles or hidden left recursion.

With either of these it need not.  A version that is alone goes on forever if all it can do is a
reduction that leads back to the same state.  Accepted trees do not stop it, for it has no more
errors than they.
-/

namespace IncrementalGlr

open Grammar.ComesFrom (ItemsOf)

/-!
## Runs that come to an end

A step that does not recover replaces a version by versions that cost more effort and are not
further behind.  A recovery leaves the version past the place of the error, or at this place but only
once.  So there are finitely many recoveries and finitely many steps between two of them.
-/

namespace ParseRun

variable {job : ParseJob} {plain : PlainGrammar} {items : StateId → Lalr.Item → Prop}
  {version : Version} {run next : ParseRun}

/-- The place of the version furthest behind; a place behind a text of a size if none is alive. -/
def front (size : Nat) (run : ParseRun) : Nat :=
  ((run.versions.map Version.position).min?).getD (size + 1)

/-- As many recoveries as may still come at most: two for each place, and one for the place of the
latest one. -/
def chances (size : Nat) (run : ParseRun) : Nat :=
  2 * (size + 1 - run.front size) + if run.lastRecovery = some (run.front size) then 0 else 1

/-- What each version may still spend until its effort reaches a bound. -/
def slack (bound : Nat) (run : ParseRun) : Multiset Nat :=
  run.versions.map fun version => bound - version.effort

section Front

variable {size place : Nat}

theorem front_le (member : version ∈ run.versions) : run.front size ≤ version.position := by
  unfold front
  cases least : (run.versions.map Version.position).min? with
  | none =>
      rw [List.min?_eq_none_iff, List.map_eq_nil_iff] at least
      rw [least] at member
      cases member
  | some first => exact (List.min?_eq_some_iff.1 least).2 _ (List.mem_map_of_mem member)

theorem le_front (inside : place ≤ size + 1)
    (ahead : ∀ version ∈ run.versions, place ≤ version.position) : place ≤ run.front size := by
  unfold front
  cases least : (run.versions.map Version.position).min? with
  | none => exact inside
  | some first =>
      obtain ⟨version, member, rfl⟩ := List.mem_map.1 (List.min?_mem least)
      exact ahead version member

/-- As long as no version falls behind there are no more recoveries. -/
theorem chances_le (bound : run.front size ≤ size) (ahead : run.front size ≤ next.front size)
    (same : next.lastRecovery = run.lastRecovery) : next.chances size ≤ run.chances size := by
  unfold chances
  rcases Nat.eq_or_lt_of_le ahead with equal | further
  · rw [equal, same]
  · split <;> split <;> omega

/-- Every recovery takes away from the number of those to come. -/
theorem chances_lt (bound : run.front size ≤ size)
    (ahead : run.front size < next.front size ∨ next.front size = run.front size ∧
      run.lastRecovery ≠ some (run.front size))
    (recovered : next.lastRecovery = some (run.front size)) :
    next.chances size < run.chances size := by
  unfold chances
  rcases ahead with further | ⟨equal, first⟩
  · split <;> split <;> omega
  · rw [equal, if_pos recovered, if_neg first]
    exact Nat.lt_succ_self _

theorem front_of_mem (member : version ∈ run.versions)
    (last : ∀ other ∈ run.versions, version.position ≤ other.position)
    (inside : version.position ≤ size + 1) : run.front size = version.position :=
  Nat.le_antisymm (front_le member) (le_front inside last)

end Front

section Slack

variable {bound : Nat}

/-- Values that replace a larger one, and those left of them, are less than before. -/
theorem isDershowitzMannaLT_replace {kept others results : Multiset Nat} {value : Nat}
    (fewer : kept ≤ others + results) (less : ∀ result ∈ results, result < value) :
    Multiset.IsDershowitzMannaLT kept (value ::ₘ others) := by
  refine ⟨kept ∩ others, kept - others, value ::ₘ (others - kept), Multiset.cons_ne_zero, ?_, ?_,
    fun result member => ⟨value, Multiset.mem_cons_self _ _, less result ?_⟩⟩
  · rw [add_comm, Multiset.sub_add_inter]
  · rw [Multiset.add_cons, add_comm, Multiset.inter_comm, Multiset.sub_add_inter]
  · exact Multiset.mem_of_le (tsub_le_iff_left.2 fewer) member

theorem slack_condense_le : run.condense.slack bound ≤ run.slack bound :=
  Multiset.coe_le.2 (run.map_condense_subperm fun _ _ => rfl)

/-- What is left of the versions after one of them was replaced by others of more effort has less
to spend. -/
theorem slack_lt {before after results : List Version}
    (versions : run.versions = before ++ version :: after)
    (made : next.versions = before ++ results ++ after)
    (costs : ∀ result ∈ results, version.effort < result.effort ∧ result.effort ≤ bound) :
    Multiset.IsDershowitzMannaLT (next.condense.slack bound) (run.slack bound) := by
  let spare (versions : List Version) : Multiset Nat :=
    versions.map fun version => bound - version.effort
  have old : run.slack bound = (bound - version.effort) ::ₘ (spare before + spare after) := by
    simp [slack, spare, versions]
  have new : next.slack bound = spare before + spare after + spare results := by
    simp only [slack, spare, made, List.map_append, ← Multiset.coe_add]
    exact add_right_comm _ _ _
  rw [old]
  refine isDershowitzMannaLT_replace (slack_condense_le.trans new.le) fun spent member => ?_
  obtain ⟨result, listed, rfl⟩ := List.mem_map.1 (Multiset.mem_coe.1 member)
  have cost := costs result listed
  omega

end Slack

/-- Whether fewer recoveries may come, or no more and there is less to spend until the next one. -/
def Descends (size bound : Nat) (next run : ParseRun) : Prop :=
  Prod.Lex (· < ·) Multiset.IsDershowitzMannaLT (next.chances size, next.slack bound)
    (run.chances size, run.slack bound)

theorem wellFounded_descends (size bound : Nat) : WellFounded (Descends size bound) :=
  InvImage.wf (fun run : ParseRun => (run.chances size, run.slack bound))
    (WellFounded.prod_lex wellFounded_lt Multiset.wellFounded_isDershowitzMannaLT)

theorem position_condense {place : Nat}
    (ahead : ∀ version ∈ run.versions, place ≤ version.position) :
    ∀ version ∈ run.condense.versions, place ≤ version.position := by
  intro version member
  obtain ⟨origin, originMember, same⟩ := run.mem_condense member
  rw [same]
  exact ahead origin originMember

section Descent

variable {size bound : Nat} {raw : ParseRun}

/-- Without a recovery the version furthest behind is replaced by versions of more effort that are
not further behind. -/
theorem descends_of_replaced {before after results : List Version}
    (versions : run.versions = before ++ version :: after)
    (last : ∀ other ∈ run.versions, version.position ≤ other.position)
    (placed : version.position ≤ size) (replaced : raw.versions = before ++ results ++ after)
    (same : raw.lastRecovery = run.lastRecovery)
    (costs : ∀ result ∈ results, version.effort < result.effort ∧ result.effort ≤ bound)
    (forward : ∀ result ∈ results, version.position ≤ result.position) :
    Descends size bound raw.condense run := by
  have ahead : ∀ other ∈ raw.versions, version.position ≤ other.position := by
    rw [versions, List.forall_mem_append, List.forall_mem_cons] at last
    rw [replaced, List.forall_mem_append, List.forall_mem_append]
    exact ⟨⟨last.1, forward⟩, last.2.2⟩
  have front := front_of_mem (versions ▸ List.mem_append_right _ List.mem_cons_self) last
    (placed.trans (Nat.le_succ size))
  refine .right' _ (chances_le (front ▸ placed) ?_ ?_) (slack_lt versions replaced costs)
  · rw [front]
    exact le_front (placed.trans (Nat.le_succ size)) (position_condense ahead)
  · rw [condense_lastRecovery, same]

/-- A recovery takes away from the number of those to come. -/
theorem descends_of_recovered (versions : run.versions = [version])
    (placed : version.position ≤ size) (recovered : raw.lastRecovery = some version.position)
    (ahead : ∀ other ∈ raw.versions, version.position < other.position ∨
      other.position = version.position ∧ run.lastRecovery ≠ some version.position) :
    Descends size bound raw.condense run := by
  have front := front_of_mem (versions ▸ List.mem_singleton_self version)
    (versions ▸ List.forall_mem_singleton.2 (Nat.le_refl _)) (placed.trans (Nat.le_succ size))
  refine .left _ _ (chances_lt (front ▸ placed) ?_ ?_)
  · rw [front]
    by_cases again : run.lastRecovery = some version.position
    · refine .inl (le_front (Nat.succ_le_succ placed) (position_condense fun other member => ?_))
      exact (ahead other member).resolve_right fun here => here.2 again
    · have forward := le_front (placed.trans (Nat.le_succ size))
        (position_condense fun other member =>
          (ahead other member).elim Nat.le_of_lt fun here => here.1.ge)
      exact (Nat.lt_or_eq_of_le forward).imp_right fun equal => ⟨equal.symm, again⟩
  · rw [condense_lastRecovery, recovered, front]

end Descent

section Steps

variable {table : Lalr.Table} {automaton : Lalr.Automaton}
  (works : job.grammar.WorksOn plain (ItemsOf plain automaton)) (acyclic : plain.Acyclic)
  (inside : job.StaysInside) (made : table.MadeFrom plain automaton)
  (visible : plain.NoHiddenLeftRecursion)

include works acyclic inside made visible

/-- Every step of a run without an earlier tree descends. -/
theorem step?_descends
    (keeps : run.Keeps (Version.Frugal plain (ItemsOf plain automaton) job.text)
      (fun _ => True) (fun _ => False)) (stepped : run.step? (m := Id) job = some next) :
    Descends job.text.size (plain.maxEffort job.text.size) next run := by
  rw [step?_eq_map] at stepped
  obtain ⟨raw, advanced, rfl⟩ := Option.map_eq_some_iff.1 stepped
  obtain ⟨before, version, after, versions, ahead, behind, rfl⟩ := exists_of_advanced? advanced
  have frugal := keeps.versions version
    (versions ▸ List.mem_append_right _ List.mem_cons_self)
  have fresh : run.reuse = none := Option.eq_none_iff_forall_not_mem.2 keeps.reuse
  have isToken := @upcoming_isToken job _ _ _ frugal
  obtain ⟨stats, acted⟩ := @advance_eq_act job version { run with versions := before ++ after }
    before.length fresh isToken
  rw [acted]
  rcases @explored_act job version { run with versions := before ++ after, stats } before after
    rfl isToken with
    ⟨results, accepted, explored, replaced, grows⟩ | ⟨alone, -, -, -, recovers⟩
  · have last : ∀ other ∈ run.versions, version.position ≤ other.position := by
      rw [versions, List.forall_mem_append, List.forall_mem_cons]
      exact ⟨fun other early => (ahead other early).le, Nat.le_refl _, behind⟩
    have costs : ∀ result ∈ results, (version.effort < result.effort ∧
        result.effort ≤ plain.maxEffort job.text.size) ∧ version.position ≤ result.position := by
      intro result listed
      obtain ⟨moved, advances, alike⟩ := explored.sound result listed
      obtain ⟨cost, forward⟩ := advances_effort works acyclic inside frugal advances
      have spent := (advances_frugal works acyclic inside frugal advances).effort_le made visible
      rw [Version.AlikeTo] at alike
      rw [alike]
      exact ⟨⟨cost, spent⟩, forward⟩
    exact descends_of_replaced versions last frugal.covers.bound replaced grows.lastRecovery
      (fun result listed => (costs result listed).1) fun result listed => (costs result listed).2
  · obtain ⟨rfl, rfl⟩ := List.append_eq_nil_iff.1 alone
    rw [recovers fresh]
    obtain ⟨recovered, position⟩ := @recover_position job
      { version with lookahead := some (version.upcoming job) }
      { run with versions := [], stats } inside.findsTokens frugal.covers.bound rfl
    exact descends_of_recovered versions frugal.covers.bound recovered
      fun other member => (position other member).2

/-- A run without an earlier tree comes to its end if it may make enough steps. -/
theorem exists_steps
    (keeps : run.Keeps (Version.Frugal plain (ItemsOf plain automaton) job.text)
      (fun _ => True) (fun _ => False)) :
    ∃ steps, ∀ operations ≥ steps, ∀ made,
      (runFor (m := Id) job none made operations run).2 = .complete := by
  induction run using (wellFounded_descends job.text.size
    (plain.maxEffort job.text.size)).induction with
  | h run induction =>
      cases stepped : run.step? (m := Id) job with
      | none =>
          refine ⟨0, fun operations _ made => ?_⟩
          cases operations <;> rw [runFor, stepped] <;> rfl
      | some next =>
          have preserved := frugal_preserved works acyclic inside
          obtain ⟨steps, complete⟩ := induction next
            (step?_descends works acyclic inside made visible keeps stepped)
            (preserved.step keeps stepped)
          refine ⟨steps + 1, fun operations enough made => ?_⟩
          obtain ⟨operations, rfl⟩ := Nat.exists_eq_add_of_le' enough
          rw [← Nat.add_assoc, runFor_succ stepped (ParseOptions.isOver_none made)]
          exact complete (operations + steps) (Nat.le_add_left _ _) (made + 1)

end Steps

end ParseRun

/-! ## Runs without end -/

/-- Whether a lookahead is a token can be computed. -/
instance (lookahead : Lookahead) : Decidable lookahead.IsToken :=
  match lookahead with
  | .token found lexState => .isTrue ⟨found, lexState, rfl⟩
  | .reused _ => .isFalse fun ⟨_, _, same⟩ => by cases same

/-- Whether all that a version without errors does is a reduction of at most one symbol, with or
without an acceptance, that leads back to its state. -/
structure Version.Circles (job : ParseJob) (production : ProductionId) (version : Version) :
    Prop where
  /-- It looks at a token. -/
  isToken : (version.upcoming job).IsToken
  /-- What it does. -/
  actions : job.grammar.actions version.state (version.upcoming job).symbol ∈
    [[.reduce production], [.accept, .reduce production]]
  /-- The production is short. -/
  short : (job.grammar.production production).length.toNat ≤ 1
  /-- The production is not that of an error. -/
  symbol : (job.grammar.production production).lhs ≠ .error
  /-- There are no errors. -/
  clean : version.stack.errorCount = 0
  /-- The way back. -/
  returns : ∃ parts ∈ version.stack.takeChildren
      (job.grammar.production production).length.toNat,
    parts.2.1 = [] ∧ job.grammar.goto? parts.2.2.state (job.grammar.production production).lhs =
      some version.state

instance (job : ParseJob) (production : ProductionId) (version : Version) :
    Decidable (version.Circles job production) :=
  decidable_of_iff (_ ∧ _ ∧ _ ∧ _ ∧ _ ∧ _)
    ⟨fun ⟨isToken, actions, short, symbol, clean, returns⟩ =>
        ⟨isToken, actions, short, symbol, clean, returns⟩,
      fun ⟨isToken, actions, short, symbol, clean, returns⟩ =>
        ⟨isToken, actions, short, symbol, clean, returns⟩⟩

theorem Version.Circles.withPath {job : ParseJob} {production : ProductionId} {version : Version}
    (circles : version.Circles job production) (path : List Nat) :
    Version.Circles job production { version with path } :=
  ⟨circles.isToken, circles.actions, circles.short, circles.symbol, circles.clean, circles.returns⟩

namespace ParseRun

variable {job : ParseJob} {production : ProductionId} {version : Version} {run next : ParseRun}

/-- Whether a run never comes to its end. -/
def Endless (job : ParseJob) (run : ParseRun) : Prop :=
  ∀ made operations,
    (runFor (m := Id) job none made operations run).2 = .cancelled .operationLimit

theorem Endless.of_step (endless : Endless job next)
    (stepped : run.step? (m := Id) job = some next) : Endless job run := by
  intro made operations
  cases operations with
  | zero =>
      rw [runFor, stepped]
      rfl
  | succ operations =>
      rw [runFor_succ stepped (ParseOptions.isOver_none made)]
      exact endless (made + 1) operations

theorem Endless.of_reaches (endless : Endless job next) (reaches : Reaches job run next) :
    Endless job run := by
  induction reaches with
  | refl => exact endless
  | step before stepped induction => exact induction (endless.of_step stepped)

/-- A run does not come to its end while something holds of it that a further step keeps. -/
theorem endless_of_invariant {holds : ParseRun → Prop}
    (goes : ∀ run, holds run → ∃ next, run.step? (m := Id) job = some next ∧ holds next)
    (first : holds run) : Endless job run := by
  intro made operations
  induction operations generalizing made run with
  | zero =>
      obtain ⟨next, stepped, -⟩ := goes run first
      rw [runFor, stepped]
      rfl
  | succ operations induction =>
      obtain ⟨next, stepped, later⟩ := goes run first
      rw [runFor_succ stepped (ParseOptions.isOver_none made)]
      exact induction later (made + 1)

/-- A version without errors stays if it is alone. -/
theorem condense_alone (alone : run.versions = [version])
    (clean : version.stack.errorCount = 0) :
    ∃ path, run.condense.versions = [{ version with path }] := by
  have noErrors : ∀ other ∈ run.versions, other.stack.errorCount = 0 :=
    alone ▸ List.forall_mem_singleton.2 clean
  have merged : merge run.versions = [version] := by
    rw [alone]
    rfl
  have roomy : run.promising.length ≤ maxVersions := by
    have few := run.promising_subperm.length_le
    rw [alone] at few
    exact few.trans (Nat.le_add_left 1 5)
  rcases versions_condense noErrors roomy with same | ⟨only, single, same⟩
  · exact ⟨version.path, same.trans merged⟩
  · obtain rfl := List.singleton_inj.1 (merged.symm.trans single)
    exact ⟨[], same⟩

/-- The reduction of a version that circles leads to a version that circles. -/
theorem reduce_circles (circles : version.Circles job production) (path : List Nat)
    (fragile : Bool) :
    ∃ moved : Version, reduce (m := Id) job.grammar
        { version with lookahead := some (version.upcoming job), path } production fragile =
          some moved ∧ moved.Circles job production := by
  obtain ⟨⟨children, trailing, below⟩, found, rfl, goto⟩ := circles.returns
  obtain ⟨following, made⟩ := @reduce_eq_some job.grammar
    { version with lookahead := some (version.upcoming job), path } production fragile children []
    below version.state found goto
  have errors := reducedNode_errorCount circles.symbol below.state fragile following children
  have notExtra : Subtree.isExtra
      (reducedNode job.grammar below.state production fragile following children) = false := rfl
  generalize reducedNode job.grammar below.state production fragile following children = node
    at made errors notExtra
  refine ⟨_, made, circles.isToken, circles.actions, circles.short, circles.symbol, ?_, ?_⟩
  · have clean := circles.clean
    rw [ParseStack.errorCount_eq, ← ParseStack.takeChildren_subtrees found] at clean
    simp only [List.append_nil, List.map_append, List.sum_append] at clean
    change node.errorCount + below.errorCount = 0
    rw [ParseStack.errorCount_eq, errors]
    omega
  · -- The node takes the place of what was reduced, or stands above it if nothing was.
    rcases Nat.le_one_iff_eq_zero_or_eq_one.1 circles.short with none | one
    · rw [none] at found ⊢
      obtain ⟨rfl, rfl⟩ : children = [] ∧ version.stack = below := by
        simpa [ParseStack.takeChildren, ParseStack.takeFrom, eq_comm] using found
      exact ⟨_, rfl, rfl, goto⟩
    · rw [one]
      refine ⟨([node], [], below), ?_, rfl, goto⟩
      simp [ParseStack.takeChildren, ParseStack.takeFrom, ParseStack.pushAll, notExtra]

/-- Nothing but a version that circles comes of a version that circles. -/
theorem act_circles (circles : version.Circles job production) (alone : run.versions = []) :
    let next := act (m := Id) job 0 { version with lookahead := none } (version.upcoming job) run
    ∃ moved : Version, next.versions = [moved] ∧ moved.Circles job production := by
  have sameState : Version.state { version with lookahead := none } = version.state := rfl
  unfold act
  dsimp only
  rw [sameState]
  rcases List.mem_pair.1 circles.actions with only | both
  · obtain ⟨moved, reduced, again⟩ := reduce_circles circles version.path (!run.versions.isEmpty)
    rw [only]
    refine ⟨moved, ?_, again⟩
    change (insertAt 0 (Option.toList (reduce (m := Id) job.grammar _ production _)) run).versions =
      [moved]
    rw [reduced]
    exact @versions_insertAt run [] [] alone [moved]
  · obtain ⟨moved, reduced, again⟩ := reduce_circles circles (version.path ++ [1]) true
    rw [both]
    refine ⟨moved, ?_, again⟩
    change (insertAt 0 (Option.toList (reduce (m := Id) job.grammar _ production _) ++ [])
      { run with finished := _ }).versions = [moved]
    rw [reduced]
    exact @versions_insertAt { run with finished := _ } [] [] alone [moved]

/-- Whether a run without an earlier tree has one version alive, and this version circles. -/
def Circling (job : ParseJob) (production : ProductionId) (run : ParseRun) : Prop :=
  run.reuse.isNone ∧ run.versions.length = 1 ∧
    ∀ version ∈ run.versions, version.Circles job production

instance : Decidable (run.Circling job production) :=
  inferInstanceAs (Decidable (_ ∧ _ ∧ _))

theorem step?_circles (circles : version.Circles job production) (fresh : run.reuse = none)
    (alone : run.versions = [version]) (stepped : run.step? (m := Id) job = some next) :
    ∃ (moved : Version) (path : List Nat),
      next.versions = [{ moved with path }] ∧ moved.Circles job production := by
  rw [step?_eq_map] at stepped
  obtain ⟨raw, advanced, rfl⟩ := Option.map_eq_some_iff.1 stepped
  obtain ⟨before, other, after, versions, -, -, rfl⟩ := exists_of_advanced? advanced
  obtain ⟨rfl, rfl, rfl⟩ : before = [] ∧ other = version ∧ after = [] := by
    cases before <;> simp_all
  obtain ⟨stats, acted⟩ := @advance_eq_act job other { run with versions := [] } 0 fresh
    circles.isToken
  obtain ⟨moved, only, again⟩ := @act_circles job production other
    { run with versions := [], stats } circles rfl
  obtain ⟨path, kept⟩ := condense_alone only again.clean
  exact ⟨moved, path, (congrArg (fun raw => (condense raw).versions) acted).trans kept, again⟩

theorem step?_circling (circling : run.Circling job production) :
    ∃ next, run.step? (m := Id) job = some next ∧ next.Circling job production := by
  obtain ⟨fresh, single, circles⟩ := circling
  obtain ⟨version, alone⟩ := List.length_eq_one_iff.1 single
  rw [Option.isNone_iff_eq_none] at fresh
  rw [alone, List.forall_mem_singleton] at circles
  cases stepped : run.step? (m := Id) job with
  | none => simp [(step?_eq_none run).1 stepped] at alone
  | some next =>
      obtain ⟨moved, path, left, again⟩ := step?_circles circles fresh alone stepped
      refine ⟨next, rfl, ?_, by rw [left]; rfl, ?_⟩
      · refine Option.isNone_iff_eq_none.2 (Option.eq_none_iff_forall_not_mem.2 fun cursor used => ?_)
        obtain ⟨origin, never, -⟩ := (step?_comesFrom stepped).reuse cursor used
        rw [fresh] at never
        cases never
      · rw [left, List.forall_mem_singleton]
        exact again.withPath path

/-- A run in which the only version circles never comes to its end. -/
theorem endless_of_circling (reaches : Reaches job run next)
    (circling : next.Circling job production) : Endless job run :=
  (endless_of_invariant (fun _ => step?_circling) circling).of_reaches reaches

end ParseRun

/-! ## Parses -/

namespace Parser

variable {memory : Memory}

/-- How the parse of a text without an earlier tree and a deadline ends if its loop may make a number
of steps. -/
def statusWithin (parser : Parser) (text : Text) (operations : Nat) : ParseStatus :=
  (ParseRun.runFor (m := StateM Store) ⟨⟨parser.grammar, parser.external⟩, text⟩ none 0 operations
    (.start none) parser.store.trim).1.2

/-- The store does not matter for how a parse ends. -/
theorem statusWithin_eq {parser : Parser} (valid : parser.store.Valid memory) (text : Text)
    (operations : Nat) :
    parser.statusWithin text operations = (ParseRun.runFor (m := Id)
      ⟨⟨parser.grammar, parser.external⟩, text⟩ none 0 operations (.start none)).2 := by
  obtain ⟨-, -, -, -, erased⟩ := ParseRun.mirrors_runFor
    ⟨⟨parser.grammar, parser.external⟩, text⟩ none 0 operations ParseRun.start_known
    parser.store.trim valid.trim
  have same := congrArg Prod.snd erased
  exact same

/-- A parse comes to its end if its options give it steps and time enough. -/
theorem parse_complete {parser : Parser} (valid : parser.store.Valid memory) {text : Text}
    {steps : Nat} (complete : parser.statusWithin text steps = .complete)
    (early : ∀ due ∈ parser.options.deadline, steps ≤ due)
    (enough : steps ≤ parser.options.maxOperations.getD maxOperations) (edits : List Edit) :
    (parser.parse text none edits).1.status = .complete := by
  rw [statusWithin_eq valid] at complete
  obtain ⟨grammar, store, external, options, last⟩ := parser
  obtain ⟨-, -, -, -, erased⟩ := ParseRun.mirrors_runFor ⟨⟨grammar, external⟩, text⟩
    options.deadline 0 (options.maxOperations.getD maxOperations) ParseRun.start_known store.trim
    valid.trim
  refine (congrArg Prod.snd erased).trans ?_
  have inTime := congrArg Prod.snd (@ParseRun.runFor_timely ⟨⟨grammar, external⟩, text⟩
    (.start none) options.deadline 0 steps (fun due member => (Nat.zero_add steps).trans_le
      (early due member)) 0)
  exact (congrArg Prod.snd (ParseRun.runFor_mono enough (inTime.trans complete))).trans
    (inTime.trans complete)

end Parser

/-- A parse without an earlier tree comes to its end if it may make enough steps: no symbol of the
grammar can be replaced by itself alone, nor by a sequence in which it stands behind symbols from
which the empty sequence can be derived. -/
theorem Session.fresh_parse_ends {description : Description} {compiled : Compiled}
    {plain : PlainGrammar} (made : description.compile = .ok compiled)
    (lowered : description.toPlain = .ok plain) (acyclic : plain.Acyclic)
    (visible : plain.NoHiddenLeftRecursion) (text : Text) :
    ∃ steps, ∀ {parser : Parser} {trees : List SyntaxTree},
      Session compiled.grammar none parser trees →
        (∀ operations ≥ steps, parser.statusWithin text operations = .complete) ∧
        ∀ edits, (∀ due ∈ parser.options.deadline, steps ≤ due) →
          steps ≤ parser.options.maxOperations.getD Parser.maxOperations →
          (parser.parse text none edits).1.status = .complete := by
  obtain ⟨_, table, sameLowered, comes⟩ := Description.compile_comesFrom made
  obtain rfl := Except.ok.inj (lowered.symm.trans sameLowered)
  obtain ⟨automaton, madeFrom⟩ := Lalr.Table.madeFrom_of_ofGrammar comes.sound comes.built
  let job : ParseJob := ⟨⟨compiled.grammar, none⟩, text⟩
  have works : job.grammar.WorksOn plain _ := comes.worksOn madeFrom
  have inside : job.StaysInside := ⟨comes.endReserved madeFrom, fun scanner none => by cases none⟩
  have keeps := @ParseRun.Preserved.keeps_start job _ _ _
    (ParseRun.frugal_preserved works acyclic inside) none fun _ never => by cases never
  obtain ⟨steps, ends⟩ := ParseRun.exists_steps works acyclic inside madeFrom visible keeps
  refine ⟨steps, fun {parser trees} session => ?_⟩
  obtain ⟨grammar, scanner, memory, valid, -⟩ := session.valid
  have complete : ∀ operations ≥ steps, parser.statusWithin text operations = .complete := by
    intro operations enough
    rw [Parser.statusWithin_eq valid, grammar, scanner]
    exact ends operations enough 0
  exact ⟨complete, fun edits early enough =>
    Parser.parse_complete valid (complete steps (Nat.le_refl steps)) early enough edits⟩

/-- The parse of a text with an unclosed bracket, which goes through a recovery, comes to its end. -/
theorem fresh_parse_ends_bracketed :
    ∃ compiled, Description.bracketed.compile = .ok compiled ∧
      ∃ steps, ∀ operations ≥ steps,
        (Parser.ofGrammar compiled.grammar none .standard 0).statusWithin (.ofString "( w")
          operations = .complete := by
  have succeeds : Description.bracketed.compile.isOk = true := by decide +kernel
  have computed : (Description.bracketed.toPlain.toOption.any fun plain =>
      decide (∀ production ∈ plain.productions, production.rhs ≠ []) &&
      decide (∀ production ∈ plain.productions, production.rhs.length = 1 →
        ∀ symbol ∈ production.rhs, symbol.index < production.lhs.index)) = true := by
    decide +kernel
  obtain ⟨compiled, made⟩ := Except.exists_of_isOk succeeds
  obtain ⟨plain, lowered, facts⟩ := Except.exists_of_any computed
  rw [Bool.and_eq_true, decide_eq_true_eq, decide_eq_true_eq] at facts
  obtain ⟨full, descends⟩ := facts
  obtain ⟨steps, ends⟩ := Session.fresh_parse_ends made lowered
    (PlainGrammar.acyclic_of_full full descends) (PlainGrammar.noHiddenLeftRecursion_of_full full)
    (.ofString "( w")
  exact ⟨compiled, made, steps, (ends (.new .standard 0)).1⟩

/-- Texts of one letter that may be read as itself under any number of nodes. -/
def Description.circular : Description :=
  ⟨"circular", [("s", .choice [.symbol "s", .string "a"])], [], [], []⟩

/-- Texts in which each reading goes on behind something empty, which is preferred to a letter. -/
def Description.hesitant : Description :=
  ⟨"hesitant", [("s", .choice [.seq [.symbol "e", .symbol "s", .string "a"], .string "b"]),
    ("e", .precedence (.static none) 1 .blank)], [], [], []⟩

/-- A parse that comes to circle reaches every limit on the number of its steps. -/
theorem Parser.statusWithin_of_circling {grammar : Grammar} {text : Text} {count : Nat}
    {production : ProductionId}
    (circling : (ParseRun.afterSteps ⟨⟨grammar, none⟩, text⟩ count (.start none)).Circling
      ⟨⟨grammar, none⟩, text⟩ production) (operations : Nat) :
    (ofGrammar grammar none .standard 0).statusWithin text operations =
      .cancelled .operationLimit := by
  rw [statusWithin_eq (Store.valid_fromId 0)]
  exact ParseRun.endless_of_circling (ParseRun.reaches_afterSteps _ count _) circling 0 operations

/-- With a cycle, and also with hidden left recursion, a parse may reach every limit on the number of
its steps. -/
theorem fresh_parse_endless :
    (∃ compiled, Description.circular.compile = .ok compiled ∧ ∀ operations,
      (Parser.ofGrammar compiled.grammar none .standard 0).statusWithin (.ofString "a") operations =
        .cancelled .operationLimit) ∧
    ∃ compiled, Description.hesitant.compile = .ok compiled ∧ ∀ operations,
      (Parser.ofGrammar compiled.grammar none .standard 0).statusWithin (.ofString "b") operations =
        .cancelled .operationLimit := by
  have circular : (Description.circular.compile.toOption.any fun compiled =>
      let job : ParseJob := ⟨⟨compiled.grammar, none⟩, .ofString "a"⟩
      decide ((ParseRun.afterSteps job 2 (.start none)).Circling job (.ofIndex 0))) = true := by
    decide +kernel
  have hesitant : (Description.hesitant.compile.toOption.any fun compiled =>
      let job : ParseJob := ⟨⟨compiled.grammar, none⟩, .ofString "b"⟩
      decide ((ParseRun.afterSteps job 1 (.start none)).Circling job (.ofIndex 2))) = true := by
    decide +kernel
  constructor
  · obtain ⟨compiled, made, circles⟩ := Except.exists_of_any circular
    exact ⟨compiled, made, Parser.statusWithin_of_circling (of_decide_eq_true circles)⟩
  · obtain ⟨compiled, made, circles⟩ := Except.exists_of_any hesitant
    exact ⟨compiled, made, Parser.statusWithin_of_circling (of_decide_eq_true circles)⟩

end IncrementalGlr
