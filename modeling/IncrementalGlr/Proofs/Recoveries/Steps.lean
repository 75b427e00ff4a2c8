import IncrementalGlr.Proofs.Coverage.Recovery
import IncrementalGlr.Proofs.Derivation.Parse
import IncrementalGlr.Proofs.Restart
import IncrementalGlr.Proofs.Search.Step

/-!
# Steps that recover

A recovery leaves its version at the start of a token that it has not skipped, or behind the one
token that it has.  Tokens are not empty, so the version is past the place of the error unless no
token was skipped, and this may happen only once in a row.

Whether a step recovers does not depend on the recovery before it; that decides only how much is
skipped.  With an earlier tree there is no recovery, the run starts again instead.  Without one no
step leads a version back, and every recovery is at the place of the version that is furthest
behind.
-/

namespace IncrementalGlr

open Version (Advances)

/-! ## Where recoveries lead -/

/-- Tokens side by side have room. -/
theorem Token.SideBySide.lt_start {text : Text} {offset stop : Nat} {tokens : List Token}
    (side : SideBySide text offset tokens stop) {count : Nat} {token : Token}
    (found : tokens[count]? = some token) (later : 0 < count) : offset < token.range.start := by
  obtain ⟨count, rfl⟩ := Nat.exists_eq_succ_of_ne_zero later.ne'
  cases side with
  | nil => simp at found
  | ended => simp at found
  | cons stands bound notEnd others =>
      obtain ⟨-, -, sum, -⟩ := others.before found
      have length := stands.length_eq bound
      have positive := stands.length_pos bound notEnd
      omega

namespace Recovery

variable {grammar : Grammar}

theorem le_skipped {states : List StateId} {current : StateId} {forceSkip : Bool} {skipped : Nat}
    {window : List Token} {resumption : Resume}
    (found : findFrom? grammar states current forceSkip skipped window = some resumption) :
    skipped ≤ resumption.skipped := by
  induction window generalizing skipped with
  | nil => cases found
  | cons token rest induction =>
      unfold findFrom? at found
      dsimp only at found
      split at found
      · obtain rfl := Option.some.inj found
        exact Nat.le_refl skipped
      · exact (Nat.le_succ skipped).trans (induction found)

/-- If a token must be skipped, one is. -/
theorem skipped_pos {version : Version} {window : List Token} {resumption : Resume}
    (found : find? grammar version true window = some resumption) : 0 < resumption.skipped := by
  cases window with
  | nil => cases found
  | cons token rest =>
      unfold find? findFrom? at found
      rw [if_pos (by simp)] at found
      exact le_skipped found

end Recovery

/-- Whether a version is inside a text, and what comes next for it is a token there if it is
known. -/
structure Version.Placed (text : Text) (version : Version) : Prop where
  /-- The position lies inside the text. -/
  bound : version.position ≤ text.size
  /-- The lookahead is a token at the position. -/
  lookahead : ∀ lookahead ∈ version.lookahead, ∃ token lexState,
    lookahead = .token token lexState ∧ token.StandsAt text version.position

namespace ParseRun

variable {job : ParseJob} {version : Version} {run : ParseRun}

/-- A recovery leads past the place of the error, or it is the first one at this place. -/
theorem recover_position (finds : job.FindsTokens) (bound : version.position ≤ job.text.size)
    (alone : run.versions = []) :
    let next := recover (m := Id) job version run
    next.lastRecovery = some version.position ∧ ∀ other ∈ next.versions,
      other.Placed job.text ∧ (version.position < other.position ∨
        other.position = version.position ∧ run.lastRecovery ≠ some version.position) := by
  have only : ∀ {other moved : Version}, other ∈ run.versions ++ [moved] → other = moved := by
    intro other moved member
    rwa [alone, List.nil_append, List.mem_singleton] at member
  obtain ⟨stop, side⟩ := Recovery.window_sideBySide finds bound
  unfold recover
  dsimp only
  split
  · next resumption token target =>
      obtain ⟨found, foundEq, rest⟩ := Option.bind_eq_some_iff.1 target
      obtain ⟨resumed, listed, same⟩ := Option.bind_eq_some_iff.1 rest
      cases same
      obtain ⟨stands, inside, sum, -⟩ := side.before listed
      refine ⟨rfl, fun other member => ?_⟩
      rw [only member]
      refine ⟨⟨inside, ?_⟩, ?_⟩
      · rintro lookahead ⟨⟩
        exact ⟨token, .errorMode, rfl, stands⟩
      change version.position < token.range.start ∨
        token.range.start = version.position ∧ _
      rcases Nat.eq_zero_or_pos resumption.skipped with stays | skips
      · refine .inr ⟨by rw [← sum, stays]; rfl, fun again => ?_⟩
        rw [again, beq_self_eq_true] at foundEq
        exact absurd stays (Recovery.skipped_pos foundEq).ne'
      · exact .inl (side.lt_start listed skips)
  · split
    · exact ⟨rfl, fun other member => by rw [alone] at member; cases member⟩
    · next further =>
        split
        · next token first =>
            refine ⟨rfl, fun other member => ?_⟩
            rw [only member]
            obtain ⟨stands, notEnd⟩ := side.head first (Bool.not_eq_true _ ▸ further)
            have length := stands.length_eq bound
            have positive := stands.length_pos bound notEnd
            refine ⟨⟨stands.inside, nofun⟩, ?_⟩
            change version.position < token.range.stop ∨ _
            omega
        · exact ⟨rfl, fun other member => by rw [alone] at member; cases member⟩

end ParseRun

/-! ## When a step recovers -/

namespace ParseRun

variable {job : ParseJob} {run next : ParseRun} {version : Version}

/-- The place at which the next step of a run recovers from an error, if it does.  A recovery leaves
its place behind and nothing else does, so this is what the step leaves behind if there has been no
recovery before. -/
def recovery? (job : ParseJob) (run : ParseRun) : Option Nat :=
  ({ run with lastRecovery := none }.step? (m := Id) job).bind lastRecovery

/-- What a step does about an error, in the same way after whatever latest recovery: it does not
recover, or it starts again since there is an earlier tree, or it recovers at a place. -/
inductive Handles (job : ParseJob) (place : Nat) (run : ParseRun) (image : Option Nat → ParseRun) :
    Prop
  /-- The latest recovery stays. -/
  | goesOn (same : ∀ last, (image last).lastRecovery = last)
  /-- The run starts again. -/
  | restarts (reusing : run.reuse.isSome = true) (again : ∀ last, (image last).IsRestart)
  /-- The only version recovers. -/
  | recovers {version : Version} {stats : ParseStats} (there : version.position = place)
      (fresh : run.reuse = none) (alone : run.versions = [])
      (same : ∀ last,
        image last = recover (m := Id) job version { run with stats, lastRecovery := last })

theorem countReuse_lastRecovery (lookahead : Lookahead) (run : ParseRun) :
    (run.countReuse lookahead).lastRecovery = run.lastRecovery := by
  cases lookahead <;> rfl

theorem apply_lastRecovery (grammar : Grammar) (version : Version) (lookahead : Lookahead)
    (fragile : Bool) (run : ParseRun) (action : Action) :
    (apply (m := Id) grammar version lookahead fragile run action).1.lastRecovery =
      run.lastRecovery := by
  cases action with
  | shift next => exact countReuse_lastRecovery lookahead run
  | reduce production => rfl
  | accept => rfl

theorem applyAll_lastRecovery (grammar : Grammar) (version : Version) (lookahead : Lookahead)
    (fragile : Bool) (alternative : Nat) (run : ParseRun) (actions : List Action) :
    (applyAll (m := Id) grammar version lookahead fragile alternative run actions).1.lastRecovery =
      run.lastRecovery := by
  induction actions generalizing alternative run with
  | nil => rfl
  | cons action rest induction =>
      exact (induction (alternative + 1) _).trans (apply_lastRecovery grammar _ lookahead fragile
        run action)

theorem reuseNode_lastRecovery (grammar : Grammar) (index : Nat) (version : Version)
    (node : Subtree) (run : ParseRun) :
    (reuseNode (m := Id) grammar index version node run).lastRecovery = run.lastRecovery := by
  unfold reuseNode
  dsimp only
  split <;> rfl

theorem withoutAction_handles (job : ParseJob) (index : Nat) (version : Version)
    (lookahead : Lookahead) (run : ParseRun) :
    Handles job version.position run fun last =>
      withoutAction (m := Id) job index version lookahead { run with lastRecovery := last } := by
  unfold withoutAction
  dsimp only
  split_ifs with extra alone reusing
  · exact .goesOn fun last => countReuse_lastRecovery lookahead { run with lastRecovery := last }
  · exact .restarts reusing fun last => ⟨⟨rfl, rfl, rfl, rfl⟩, rfl⟩
  · rw [Bool.and_eq_true, List.isEmpty_iff] at alone
    have there : Version.position { version with lookahead := some lookahead } =
      version.position := rfl
    exact .recovers there (Option.not_isSome_iff_eq_none.1 reusing) alone.1 fun last => rfl
  · exact .goesOn fun last => rfl

theorem act_handles (job : ParseJob) (index : Nat) (version : Version) (lookahead : Lookahead)
    (run : ParseRun) :
    Handles job version.position run fun last =>
      act (m := Id) job index version lookahead { run with lastRecovery := last } := by
  unfold act
  dsimp only
  split
  · exact withoutAction_handles job index version lookahead run
  · exact .goesOn fun last => apply_lastRecovery _ _ _ _ _ _
  · exact .goesOn fun last => applyAll_lastRecovery _ _ _ _ _ _ _

theorem onLookahead_handles (job : ParseJob) (index : Nat) (version : Version)
    (lookahead : Lookahead) (run : ParseRun) :
    Handles job version.position run fun last =>
      onLookahead (m := Id) job index version lookahead { run with lastRecovery := last } := by
  cases lookahead with
  | token => exact act_handles job index version _ run
  | reused node =>
      unfold onLookahead
      dsimp only
      split
      · exact act_handles job index version _ run
      · exact .goesOn fun last => reuseNode_lastRecovery _ _ _ _ _

/-- What comes next for a version does not depend on the latest recovery. -/
theorem nextLookahead_lastRecovery (job : ParseJob) (version : Version) (run : ParseRun)
    (last : Option Nat) :
    nextLookahead job version { run with lastRecovery := last } =
      ({ (nextLookahead job version run).1 with lastRecovery := last },
        (nextLookahead job version run).2) := by
  unfold nextLookahead
  dsimp only
  split <;> simp only [*]

/-- A run that has looked for what comes next handles errors as before. -/
theorem Handles.of_nextLookahead {place : Nat} {image : Option Nat → ParseRun}
    (handles : Handles job place (nextLookahead job version run).1 image) :
    Handles job place run image := by
  cases offered : run.reuse with
  | none =>
      rw [nextLookahead_of_fresh offered] at handles
      cases handles with
      | goesOn same => exact .goesOn same
      | restarts reusing again => exact .restarts reusing again
      | recovers there fresh alone same => exact .recovers there fresh alone same
  | some cursor =>
      have kept := (Continues.nextLookahead job version run).reuse
      cases handles with
      | goesOn same => exact .goesOn same
      | restarts reusing again => exact .restarts (kept.symm.trans reusing) again
      | recovers there fresh alone same =>
          rw [fresh, offered] at kept
          cases kept

theorem advance_handles (job : ParseJob) (index : Nat) (version : Version) (run : ParseRun) :
    Handles job version.position run fun last =>
      advance (m := Id) job index version { run with lastRecovery := last } := by
  cases pending : version.lookahead with
  | some lookahead =>
      simp only [advance_of_pending pending]
      exact onLookahead_handles job index { version with lookahead := none } lookahead run
  | none =>
      simp only [advance_of_unknown pending, nextLookahead_lastRecovery]
      exact (onLookahead_handles job index { version with lookahead := none } _ _).of_nextLookahead

/-- A step moves a version that is furthest behind and condenses the run.  It recovers where this
version does. -/
theorem exists_of_step? (stepped : run.step? (m := Id) job = some next) :
    ∃ before version after, run.versions = before ++ version :: after ∧
      (∀ other ∈ run.versions, version.position ≤ other.position) ∧
      let image (last : Option Nat) := advance (m := Id) job before.length version
        { run with versions := before ++ after, lastRecovery := last }
      next = (image run.lastRecovery).condense ∧ run.recovery? job = (image none).lastRecovery := by
  unfold step? at stepped
  obtain ⟨index, chosen, rest⟩ := Option.bind_eq_some_iff.1 stepped
  obtain ⟨version, found, made⟩ := Option.bind_eq_some_iff.1 rest
  obtain ⟨before, after, versions, ahead, behind, length, others⟩ :=
    exists_of_nextIndex? chosen found
  refine ⟨before, version, after, versions, ?_, ?_, ?_⟩
  · rw [versions, List.forall_mem_append, List.forall_mem_cons]
    exact ⟨fun other early => (ahead other early).le, Nat.le_refl _, behind⟩
  · rw [length, ← others]
    exact (Option.some.inj made).symm
  · have alone : step? (m := Id) job { run with lastRecovery := none } =
        some (advance (m := Id) job index version { run with
          versions := run.versions.eraseIdx index, lastRecovery := none }).condense := by
      unfold step?
      rw [chosen, Option.bind_eq_bind, Option.bind_some, found]
      rfl
    rw [length, ← others, recovery?, alone]
    exact condense_lastRecovery _

end ParseRun

/-! ## Places of versions -/

namespace Version.Placed

variable {job : ParseJob} {version next : Version}

/-- What comes next for a version in its place is a token there. -/
theorem upcoming (finds : job.FindsTokens) (placed : version.Placed job.text) :
    ∃ token lexState, version.upcoming job = .token token lexState ∧
      token.StandsAt job.text version.position := by
  unfold Version.upcoming
  cases known : version.lookahead with
  | none => exact ⟨_, _, rfl, finds _ placed.bound _⟩
  | some lookahead => exact placed.lookahead lookahead known

/-- A version in its place may push what comes next for it. -/
theorem pushLeaf (finds : job.FindsTokens) (placed : version.Placed job.text) (state : StateId)
    (extra : Bool) :
    let pushed := ParseRun.pushLeaf (m := Id) job.grammar version (version.upcoming job) state extra
    Version.Placed job.text pushed ∧ version.position ≤ Version.position pushed := by
  obtain ⟨token, lexState, same, stands⟩ := placed.upcoming finds
  rw [same]
  exact ⟨⟨(stands.length_eq placed.bound).trans_le stands.inside, nofun⟩, Nat.le_add_right _ _⟩

/-- A step of the machine leads to a place that is not before. -/
theorem advances (finds : job.FindsTokens) (placed : version.Placed job.text)
    (advances : Advances job version next) :
    next.Placed job.text ∧ version.position ≤ next.position := by
  cases advances with
  | act listed performs =>
      cases performs with
      | shift => exact placed.pushLeaf finds _ _
      | reduce fragile result =>
          obtain ⟨stack, rfl⟩ := ParseRun.eq_of_reduce result
          obtain ⟨token, lexState, same, stands⟩ := placed.upcoming finds
          refine ⟨⟨placed.bound, ?_⟩, Nat.le_refl _⟩
          rintro lookahead ⟨⟩
          exact ⟨token, lexState, same, stands⟩
  | extra => exact placed.pushLeaf finds _ _

theorem of_alikeTo {text : Text} (placed : next.Placed text) (alike : version.AlikeTo next) :
    version.Placed text ∧ version.position = next.position := by
  rw [Version.AlikeTo] at alike
  rw [alike]
  exact ⟨⟨placed.bound, placed.lookahead⟩, rfl⟩

end Version.Placed

namespace ParseRun

variable {job : ParseJob} {run next : ParseRun} {low : Nat}

/-- Whether a run has no earlier tree and all its versions are in their places, none of them before
an offset. -/
structure PlacedFrom (text : Text) (low : Nat) (run : ParseRun) : Prop where
  /-- There is no earlier tree. -/
  fresh : run.reuse = none
  /-- The versions are at the offset or after it. -/
  versions : ∀ version ∈ run.versions, version.Placed text ∧ low ≤ version.position

theorem PlacedFrom.condense {text : Text} (placed : run.PlacedFrom text low) :
    run.condense.PlacedFrom text low := by
  refine ⟨(condense_reuse run).trans placed.fresh, fun version member => ?_⟩
  obtain ⟨origin, originMember, alike⟩ := run.mem_condense member
  obtain ⟨originPlaced, bound⟩ := placed.versions origin originMember
  obtain ⟨here, same⟩ := originPlaced.of_alikeTo alike
  exact ⟨here, bound.trans_eq same.symm⟩

theorem PlacedFrom.of_start (same : run.Alike (start none)) (text : Text) :
    run.PlacedFrom text 0 := by
  refine ⟨same.reuse, fun version member => ?_⟩
  rw [same.versions] at member
  obtain rfl := List.mem_singleton.1 member
  exact ⟨⟨Nat.zero_le _, nofun⟩, Nat.zero_le _⟩

/-- A run without an earlier tree in which the version furthest behind moves on. -/
theorem advance_placedFrom (finds : job.FindsTokens) (fresh : run.reuse = none) {version : Version}
    {before after : List Version} (versions : run.versions = before ++ after)
    (placed : version.Placed job.text)
    (others : ∀ other ∈ run.versions, other.Placed job.text ∧ version.position ≤ other.position) :
    (advance (m := Id) job before.length version run).PlacedFrom job.text version.position := by
  obtain ⟨token, lexState, same, -⟩ := placed.upcoming finds
  have isToken : (version.upcoming job).IsToken := ⟨token, lexState, same⟩
  obtain ⟨stats, acted⟩ := @advance_eq_act job version run before.length fresh isToken
  rw [acted]
  rcases @explored_act job version { run with stats } before after versions isToken with
    ⟨results, accepted, explored, replaced, grows⟩ | ⟨alone, -, -, -, recovers⟩
  · rw [versions, List.forall_mem_append] at others
    refine ⟨grows.reuse.trans fresh, ?_⟩
    rw [replaced, List.forall_mem_append, List.forall_mem_append]
    refine ⟨⟨others.1, fun result listed => ?_⟩, others.2⟩
    obtain ⟨moved, advances, alike⟩ := explored.sound result listed
    obtain ⟨movedPlaced, forward⟩ := placed.advances finds advances
    obtain ⟨here, position⟩ := movedPlaced.of_alikeTo alike
    exact ⟨here, forward.trans_eq position.symm⟩
  · rw [recovers fresh]
    obtain ⟨-, places⟩ := @recover_position job
      { version with lookahead := some (version.upcoming job) } { run with stats } finds
      placed.bound alone
    refine ⟨?_, fun other member => ⟨(places other member).1, ?_⟩⟩
    · have kept := (Continues.recover job
        { version with lookahead := some (version.upcoming job) } { run with stats }).reuse
      rw [← Option.not_isSome_iff_eq_none, kept, show ParseRun.reuse { run with stats } = none from
        fresh]
      exact Bool.false_ne_true
    · exact (places other member).2.elim Nat.le_of_lt fun here => here.1.ge

/-- A step of a run without an earlier tree leads no version back.  If it recovers then at a place
where all versions are or which they have yet to reach, and all of them are past this place
afterwards if the recovery before was there. -/
theorem step?_recovery (finds : job.FindsTokens) (placed : run.PlacedFrom job.text low)
    (stepped : run.step? (m := Id) job = some next) :
    (run.recovery? job = none ∧ next.lastRecovery = run.lastRecovery ∧
      next.PlacedFrom job.text low) ∨
    ∃ place, low ≤ place ∧ place ≤ job.text.size ∧ run.recovery? job = some place ∧
      next.lastRecovery = some place ∧ next.PlacedFrom job.text place ∧
      (run.lastRecovery = some place → next.PlacedFrom job.text (place + 1)) := by
  obtain ⟨before, version, after, versions, least, rfl, recovery⟩ := exists_of_step? stepped
  have member : version ∈ run.versions := versions ▸ List.mem_append_right _ List.mem_cons_self
  obtain ⟨versionPlaced, bound⟩ := placed.versions version member
  have others : ∀ other ∈ before ++ after,
      other.Placed job.text ∧ version.position ≤ other.position := fun other listed => by
    have inside : other ∈ run.versions := by
      rw [versions]
      exact (List.sublist_append_right [version] after).append_left before |>.subset listed
    exact ⟨(placed.versions other inside).1, least other inside⟩
  have moved := @advance_placedFrom job
    { run with versions := before ++ after, lastRecovery := run.lastRecovery } finds placed.fresh
    version before after rfl versionPlaced others
  rw [condense_lastRecovery]
  cases advance_handles job before.length version { run with versions := before ++ after } with
  | goesOn same =>
      refine .inl ⟨recovery.trans (same none), same _, ?_⟩
      exact PlacedFrom.condense ⟨moved.fresh, fun other listed =>
        ⟨(moved.versions other listed).1, bound.trans (moved.versions other listed).2⟩⟩
  | restarts reusing again =>
      rw [show run.reuse = none from placed.fresh] at reusing
      cases reusing
  | @recovers recovering stats there fresh alone same =>
      have places (last : Option Nat) := @recover_position job recovering
        { run with versions := before ++ after, stats, lastRecovery := last } finds
        (there.trans_le versionPlaced.bound) alone
      simp only [← same, there] at places
      refine .inr ⟨version.position, bound, versionPlaced.bound, recovery.trans (places none).1,
        (places _).1, moved.condense, fun again => ?_⟩
      refine PlacedFrom.condense ⟨moved.fresh, fun other listed => ?_⟩
      obtain ⟨otherPlaced, further | ⟨-, first⟩⟩ := (places run.lastRecovery).2 other listed
      · exact ⟨otherPlaced, further⟩
      · exact absurd again first

end ParseRun

end IncrementalGlr
