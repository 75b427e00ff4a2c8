import IncrementalGlr.Proofs.Moves
import IncrementalGlr.Proofs.Sharing.Run

/-!
# Whole runs without identity

A run on a store mirrors the run on subtrees without ids step by step, so that what holds of all
runs without ids holds of those on a store.
-/

namespace IncrementalGlr

open Erasable

namespace ReuseCursor

variable {memory : Memory} {accepts : Subtree → Bool}

@[simp]
theorem erase_node (subtree : Subtree) (start : Nat) :
    erase (Node.mk subtree start) = ⟨subtree.erase, start⟩ := rfl

theorem placed_erase (start : Nat) (subtrees : List Subtree) :
    Subtree.placed start (erase subtrees) = erase (Subtree.placed start subtrees) := by
  induction subtrees generalizing start with
  | nil => rfl
  | cons child rest induction =>
      simp [Subtree.placed, induction]

theorem placed_known {start : Nat} {subtrees : List Subtree} (known : Known memory subtrees) :
    Known memory (Subtree.placed start subtrees) := by
  induction subtrees generalizing start with
  | nil => exact known_nil
  | cons child rest induction =>
      obtain ⟨childKnown, restKnown⟩ := known_cons.1 known
      exact known_cons.2 ⟨childKnown, induction restKnown⟩

mutual

theorem openAt_erase (blind : ∀ subtree : Subtree, accepts subtree.erase = accepts subtree)
    (position start : Nat) (subtree : Subtree) :
    openAt accepts position start subtree.erase =
      erase (openAt accepts position start subtree) := by
  cases subtree with
  | mk data children =>
      have accepted : accepts (.mk { data with id := 0 } (Subtree.eraseAll children)) =
          accepts (.mk data children) := by
        rw [← blind (.mk data children), Subtree.erase]
      rw [Subtree.erase, openAt, openAt]
      simp only [accepted]
      split
      · rfl
      · split
        · simp [Subtree.erase]
        · rw [Subtree.eraseAll_eq_map]
          exact openAllAt_erase blind position start children

theorem openAllAt_erase (blind : ∀ subtree : Subtree, accepts subtree.erase = accepts subtree)
    (position start : Nat) (subtrees : List Subtree) :
    openAllAt accepts position start (erase subtrees) =
      erase (openAllAt accepts position start subtrees) := by
  cases subtrees with
  | nil => rfl
  | cons child rest =>
      simp only [erase_cons, erase_subtree, openAllAt, openAt_erase blind position start child,
        Subtree.erase_length, placed_erase]
      cases openAt accepts position start child with
      | nil => exact openAllAt_erase blind position (start + child.length) rest
      | cons part parts => simp

end

theorem openPending_erase (blind : ∀ subtree : Subtree, accepts subtree.erase = accepts subtree)
    (position : Nat) (nodes : List Node) :
    openPending accepts position (erase nodes) = erase (openPending accepts position nodes) := by
  induction nodes with
  | nil => rfl
  | cons node rest induction =>
      have opened : openAt accepts position (erase node : Node).start (erase node : Node).subtree =
          erase (openAt accepts position node.start node.subtree) :=
        openAt_erase blind position node.start node.subtree
      rw [erase_cons, openPending, openPending, opened]
      cases openAt accepts position node.start node.subtree with
      | nil => exact induction
      | cons part parts => simp

theorem seek_erase (blind : ∀ subtree : Subtree, accepts subtree.erase = accepts subtree)
    (position : Nat) (cursor : ReuseCursor) :
    seek accepts position (erase cursor) = erase (seek accepts position cursor) :=
  congrArg ReuseCursor.mk (openPending_erase blind position cursor.pending)

theorem inherited_known
    (closed : ∀ subtree : Subtree, memory.Knows subtree → Known memory subtree.children) :
    Inherited fun node => Known memory node :=
  fun _ known => known_list.1 (placed_known (closed _ known))

theorem seek_known
    (closed : ∀ subtree : Subtree, memory.Knows subtree → Known memory subtree.children)
    (position : Nat) {cursor : ReuseCursor} (known : Known memory cursor) :
    Known memory (seek accepts position cursor) :=
  known_list.2 ((inherited_known closed).openPending accepts position (known_list.1 known))

theorem candidate?_erase (position : Nat) (cursor : ReuseCursor) :
    candidate? position (erase cursor) = erase (candidate? position cursor) := by
  obtain ⟨_ | ⟨node, rest⟩⟩ := cursor
  · rfl
  · change (if node.start == position then some node.subtree.erase else none) =
      erase (if node.start == position then some node.subtree else none)
    split <;> rfl

theorem candidate?_known {position : Nat} {cursor : ReuseCursor} (known : Known memory cursor) :
    Known memory (candidate? position cursor) := by
  obtain ⟨_ | ⟨node, rest⟩⟩ := cursor
  · exact known_none
  · simp only [candidate?]
    split
    · exact known_some.2 (known_cons.1 known).1
    · exact known_none

theorem reject_erase (cursor : ReuseCursor) : reject (erase cursor) = erase (reject cursor) := by
  obtain ⟨_ | ⟨node, rest⟩⟩ := cursor
  · rfl
  · change (⟨Subtree.placed node.start node.subtree.erase.children ++ erase rest⟩ : ReuseCursor) =
      ⟨erase (Subtree.placed node.start node.subtree.children ++ rest)⟩
    rw [erase_append, ← placed_erase, Subtree.erase_children]
    rfl

theorem reject_known
    (closed : ∀ subtree : Subtree, memory.Knows subtree → Known memory subtree.children)
    {cursor : ReuseCursor} (known : Known memory cursor) : Known memory (reject cursor) :=
  known_list.2 ((inherited_known closed).reject (known_list.1 known))

end ReuseCursor

namespace ParseRun

variable {memory : Memory}

theorem insertAt_erase (index : Nat) (versions : List Version) (run : ParseRun) :
    insertAt index (erase versions) (erase run) = erase (insertAt index versions run) := by
  simp [insertAt, erase_eq, erase_list, List.map_take, List.map_drop]

theorem insertAt_known {index : Nat} {versions : List Version} {run : ParseRun}
    (versionsKnown : Known memory versions) (known : Known memory run) :
    Known memory (insertAt index versions run) := by
  refine ⟨known.1, ?_, known.2.2⟩
  simp only [insertAt, known_append]
  exact ⟨⟨known_of_subset known.2.1 (List.take_subset _ _), versionsKnown⟩,
    known_of_subset known.2.1 (List.drop_subset _ _)⟩

theorem nextIndex?_erase (versions : List Version) :
    nextIndex? (erase versions) = nextIndex? versions := by
  simp [nextIndex?, erase_list, Function.comp_def]

section Lookahead

variable (job : ParseJob) (version : Version) (run : ParseRun)

theorem nextLookahead_erase :
    nextLookahead job (erase version) (erase run) =
      ((erase (nextLookahead job version run).1 : ParseRun),
        erase (nextLookahead job version run).2) := by
  obtain ⟨accepts, acceptsEq⟩ : ∃ accepts : Subtree → Bool, accepts = fun subtree =>
      subtree.isReusable && (!subtree.isLeaf || subtree.canShiftLeaf job.grammar version.state) :=
    ⟨_, rfl⟩
  have blind : ∀ subtree : Subtree, accepts subtree.erase = accepts subtree := by
    intro subtree
    simp [acceptsEq, Subtree.isReusable, Subtree.canShiftLeaf, Subtree.erase_data]
  have empty : List.isEmpty (erase run.versions) = run.versions.isEmpty := by
    cases run.versions <;> rfl
  unfold nextLookahead
  simp only [erase_versions, empty, Version.state_erase, Version.erase_position, erase_reuse,
    ← acceptsEq]
  by_cases alone : run.versions.isEmpty = true
  · simp only [alone, if_true]
    cases run.reuse with
    | none => rfl
    | some cursor =>
        simp only [erase_some, Option.map_some, Option.bind_some,
          ReuseCursor.seek_erase blind, ReuseCursor.candidate?_erase]
        cases ReuseCursor.candidate? version.position
            (ReuseCursor.seek accepts version.position cursor) <;> rfl
  · simp only [alone]
    rfl

theorem nextLookahead_known
    (closed : ∀ subtree : Subtree, memory.Knows subtree → Known memory subtree.children)
    {run : ParseRun} (known : Known memory run) :
    Known memory (nextLookahead job version run).1 ∧
      Known memory (nextLookahead job version run).2 := by
  obtain ⟨reuseKnown, versionsKnown, finishedKnown⟩ := known
  unfold nextLookahead
  by_cases alone : run.versions.isEmpty = true
  · simp only [alone, if_true]
    cases found : run.reuse with
    | none => exact ⟨⟨known_none, versionsKnown, finishedKnown⟩, Lookahead.known_token _ _⟩
    | some cursor =>
        rw [found, known_some] at reuseKnown
        simp only [Option.map_some, Option.bind_some]
        generalize accepted : (fun subtree : Subtree => subtree.isReusable &&
          (!subtree.isLeaf || subtree.canShiftLeaf job.grammar version.state)) = accepts
        have soughtKnown : Known memory
            (ReuseCursor.seek accepts version.position cursor) :=
          ReuseCursor.seek_known closed version.position reuseKnown
        have candidateKnown : Known memory (ReuseCursor.candidate? version.position _) :=
          ReuseCursor.candidate?_known soughtKnown
        cases candidate : ReuseCursor.candidate? version.position
            (ReuseCursor.seek accepts version.position cursor) with
        | none =>
            exact ⟨⟨known_some.2 soughtKnown, versionsKnown, finishedKnown⟩,
              Lookahead.known_token _ _⟩
        | some subtree =>
            rw [candidate, known_some] at candidateKnown
            exact ⟨⟨known_some.2 soughtKnown, versionsKnown, finishedKnown⟩, candidateKnown⟩
  · simp only [alone]
    exact ⟨⟨reuseKnown, versionsKnown, finishedKnown⟩, Lookahead.known_token _ _⟩

end Lookahead

theorem reductionBefore?_erase (grammar : Grammar) (state : StateId) (node : Subtree) :
    reductionBefore? grammar state node.erase = reductionBefore? grammar state node := by
  simp [reductionBefore?]

theorem known_start {reuse : Option ReuseCursor} (known : Known memory reuse) :
    Known memory (start reuse) :=
  ⟨known, known_cons.2 ⟨⟨known_nil, known_none⟩, known_nil⟩, known_nil⟩

theorem restart_known (run : ParseRun) : Known memory (restart run) := by
  refine ⟨known_none, known_cons.2 ⟨⟨known_nil, known_none⟩, known_nil⟩, known_nil⟩

theorem preferred_erase (left right : Version) :
    preferred (erase left) (erase right) = erase (preferred left right) := by
  unfold preferred
  rw [Version.rank_erase, Version.rank_erase]
  split <;> rfl

theorem absorb_erase (version : Version) (others : List Version) :
    absorb (erase version) (erase others) = erase (absorb version others) := by
  induction others generalizing version with
  | nil => rfl
  | cons other rest induction =>
      simp only [erase_cons, absorb, Version.agrees_erase]
      split
      · rw [preferred_erase, induction]
      · rw [induction]
        rfl

theorem mergeWithin_erase (budget : Nat) (versions : List Version) :
    mergeWithin budget (erase versions) = erase (mergeWithin budget versions) := by
  induction budget generalizing versions with
  | zero => rfl
  | succ budget induction =>
      cases versions with
      | nil => rfl
      | cons version rest =>
          rw [erase_cons, mergeWithin, absorb_erase, mergeWithin]
          exact congrArg (erase (absorb version rest).1 :: ·) (induction _)

theorem merge_erase (versions : List Version) : merge (erase versions) = erase (merge versions) := by
  have length : List.length (erase versions) = versions.length := List.length_map _
  rw [merge, length, mergeWithin_erase, merge]

theorem worstIndex_erase (versions : List Version) :
    worstIndex (erase versions) = worstIndex versions := by
  rw [worstIndex, erase_list, List.zipIdx_map, List.foldl_map, worstIndex]
  refine congrArg (Option.elim · 0 Prod.snd)
    (congrArg (fun step => versions.zipIdx.foldl step none) (funext₂ fun worst entry => ?_))
  obtain ⟨version, index⟩ := entry
  simp only [Prod.map_apply, Version.rank_erase, id]

theorem dropWorst_erase (count : Nat) (versions : List Version) :
    dropWorst count (erase versions) = erase (dropWorst count versions) := by
  induction count generalizing versions with
  | zero => rfl
  | succ count induction =>
      have remaining : List.eraseIdx (erase versions) (worstIndex versions) =
          erase (versions.eraseIdx (worstIndex versions)) := by
        simp [erase_list, List.eraseIdx_eq_take_drop_succ, List.map_take, List.map_drop]
      rw [dropWorst, worstIndex_erase, remaining, induction, dropWorst]

theorem promising_erase (run : ParseRun) : promising (erase run) = erase (promising run) := by
  have leasts : List.map (fun finished : Finished => finished.root.errorCount)
      (erase run.finished) = run.finished.map fun finished => finished.root.errorCount := by
    simp [erase_list, Function.comp_def]
  unfold promising
  rw [erase_versions, erase_finished, merge_erase, leasts]
  cases (run.finished.map fun finished => finished.root.errorCount).min? with
  | none => rfl
  | some least =>
      have same : (fun version : Version => decide (version.stack.errorCount ≤ least)) ∘ erase =
          fun version => decide (version.stack.errorCount ≤ least) := by
        funext version
        simp
      simp only [erase_list, List.filter_map, same]

theorem survivors_erase (run : ParseRun) : survivors (erase run) = erase (survivors run) := by
  have length : List.length (erase (promising run)) = (promising run).length := List.length_map _
  rw [survivors, promising_erase, length, dropWorst_erase, survivors]

theorem condense_erase (run : ParseRun) : condense (erase run) = erase (condense run) := by
  unfold condense
  rw [survivors_erase]
  generalize survivors run = kept
  obtain ⟨reuse, versions, _ | ⟨first, rest⟩, stats, lastRecovery⟩ := run
  · rcases kept with _ | ⟨version, _ | ⟨other, others⟩⟩ <;> rfl
  · rfl

theorem condense_known {run : ParseRun} (known : Known memory run) : Known memory run.condense := by
  refine ⟨?_, ?_, ?_⟩
  · rw [condense_reuse]
    exact known.1
  · intro version member
    obtain ⟨origin, originMember, same⟩ := run.mem_condense member
    rw [same]
    exact known.2.1 origin originMember
  · rw [condense_finished]
    exact known.2.2

theorem mirrors_recover (job : ParseJob) {version : Version} {run : ParseRun}
    (known : Known memory version) (runKnown : Known memory run) :
    Mirrors memory (run.recover job version) ((erase run).recover job (erase version)) := by
  have found : ∀ forceSkip window,
      Recovery.find? job.grammar (erase version) forceSkip window =
        Recovery.find? job.grammar version forceSkip window := by
    intro forceSkip window
    simp [Recovery.find?]
  unfold recover
  simp only [erase_lastRecovery, Version.erase_position, found, erase_stats, erase_versions,
    erase_finished]
  generalize Recovery.window job version.position = window
  generalize targets : (do
    let resume ← Recovery.find? job.grammar version
      (run.lastRecovery == some version.position) window
    return (resume, ← window[resume.skipped]?) : Option (Resume × Token)) = target
  obtain ⟨reuseKnown, versionsKnown, finishedKnown⟩ := runKnown
  rcases target with _ | ⟨resumption, token⟩
  · refine .ite (fun _ => ?_) fun _ => ?_
    · refine (Recovery.mirrors_giveUp window known).andThen
        fun larger finished grows outcomeKnown => ⟨?_, ?_⟩
      · exact ⟨Erasable.mono reuseKnown grows, Erasable.mono versionsKnown grows,
          known_append.2 ⟨Erasable.mono finishedKnown grows,
            known_cons.2 ⟨outcomeKnown, known_nil⟩⟩⟩
      · simp [erase_eq]
    · cases window.head? with
      | none => exact .pure ⟨reuseKnown, versionsKnown, finishedKnown⟩ rfl
      | some token =>
          refine (Recovery.mirrors_skipToken token known).andThen
            fun larger skipped grows skippedKnown => ⟨?_, ?_⟩
          · exact ⟨Erasable.mono reuseKnown grows,
              known_append.2 ⟨Erasable.mono versionsKnown grows,
                known_cons.2 ⟨skippedKnown, known_nil⟩⟩, Erasable.mono finishedKnown grows⟩
          · simp [erase_eq]
  · refine (Recovery.mirrors_resume window resumption token known).andThen
      fun larger resumed grows resumedKnown => ⟨?_, ?_⟩
    · exact ⟨Erasable.mono reuseKnown grows,
        known_append.2 ⟨Erasable.mono versionsKnown grows,
          known_cons.2 ⟨resumedKnown, known_nil⟩⟩, Erasable.mono finishedKnown grows⟩
    · simp [erase_eq]

theorem insertOption_erase (index : Nat) (version : Option Version) (run : ParseRun) :
    insertAt index (Option.toList (erase version)) (erase run) =
      erase (insertAt index version.toList run) := by
  cases version with
  | none => exact insertAt_erase index [] run
  | some version => exact insertAt_erase index [version] run

theorem insertOption_known {index : Nat} {version : Option Version} {run : ParseRun}
    (versionKnown : Known memory version) (known : Known memory run) :
    Known memory (insertAt index version.toList run) :=
  insertAt_known (fun held member => versionKnown held (by simpa using member)) known

theorem mirrors_reuseNode (grammar : Grammar) (index : Nat) {version : Version} {node : Subtree}
    {run : ParseRun} (known : Known memory version) (nodeKnown : memory.Knows node)
    (runKnown : Known memory run) :
    Mirrors memory (run.reuseNode grammar index version node)
      ((erase run).reuseNode grammar index (erase version) node.erase) := by
  have empty : List.isEmpty (erase run.versions) = run.versions.isEmpty := by
    cases run.versions <;> rfl
  have pushable : node.erase.canPushNode grammar version.state =
      node.canPushNode grammar version.state := by
    simp [Subtree.canPushNode]
  unfold reuseNode
  simp only [Version.state_erase, erase_versions, empty, pushable, Subtree.erase_symbol,
    reductionBefore?_erase, Subtree.erase_length, Version.push_erase]
  generalize (if run.versions.isEmpty && node.canPushNode grammar version.state then
    grammar.goto? version.state node.symbol else none) = next
  rcases next with _ | next
  · rcases reductionBefore? grammar version.state node with _ | production
    · refine Mirrors.ofClosed fun closed => .pure (insertAt_known
        (known_cons.2 ⟨known, known_nil⟩) ⟨?_, runKnown.2⟩) ?_
      · intro cursor member
        obtain ⟨held, heldMember, rfl⟩ := Option.map_eq_some_iff.1 member
        exact ReuseCursor.reject_known closed (runKnown.1 held heldMember)
      · rw [← insertAt_erase]
        rcases run with ⟨_ | cursor, versions, finished, stats, lastRecovery⟩
        · rfl
        · simp [erase_eq, ReuseCursor.reject_erase]
    · have looking : Known memory { version with lookahead := some (.reused node) } :=
        ⟨known.1, known_some.2 nodeKnown⟩
      exact (mirrors_reduce production (!run.versions.isEmpty) looking).andThen
        fun larger reduced grows reducedKnown =>
          ⟨insertOption_known reducedKnown (Erasable.mono runKnown grows),
            (insertOption_erase index reduced run).symm⟩
  · refine .pure (insertAt_known (known_cons.2 ⟨?_, known_nil⟩) runKnown) ?_
    · exact ⟨(Version.push_known known nodeKnown).1, known.2⟩
    · rw [← insertAt_erase]
      rfl

theorem mirrors_withoutAction (job : ParseJob) (index : Nat) {version : Version}
    {lookahead : Lookahead} {run : ParseRun} (known : Known memory version)
    (lookaheadKnown : Known memory lookahead) (runKnown : Known memory run) :
    Mirrors memory (run.withoutAction job index version lookahead)
      ((erase run).withoutAction job index (erase version) (erase lookahead)) := by
  have noVersions : List.isEmpty (erase run.versions) = run.versions.isEmpty := by
    cases run.versions <;> rfl
  have noFinished : List.isEmpty (erase run.finished) = run.finished.isEmpty := by
    cases run.finished <;> rfl
  have reusing : Option.isSome (erase run.reuse) = run.reuse.isSome := by
    cases run.reuse <;> rfl
  unfold withoutAction
  simp only [Lookahead.symbol_erase, Lookahead.isError_erase, erase_versions, erase_finished,
    erase_reuse, noVersions, noFinished, reusing, Version.state_erase]
  refine .ite (fun _ => ?_) fun _ => .ite (fun _ => .ite (fun _ => ?_) fun _ => ?_) fun _ => ?_
  · refine (mirrors_pushLeaf version.state true known lookaheadKnown).andThen
      fun larger pushed grows pushedKnown => ⟨?_, ?_⟩
    · exact insertAt_known (known_cons.2 ⟨pushedKnown, known_nil⟩)
        (countReuse_known (Erasable.mono runKnown grows))
    · rw [countReuse_erase, ← insertAt_erase]
      rfl
  · exact .pure (restart_known run) rfl
  · have looking : Known memory { version with lookahead := some lookahead } :=
      ⟨known.1, known_some.2 lookaheadKnown⟩
    exact mirrors_recover job looking runKnown
  · exact .pure runKnown rfl

theorem mirrors_act (job : ParseJob) (index : Nat) {version : Version}
    {lookahead : Lookahead} {run : ParseRun} (known : Known memory version)
    (lookaheadKnown : Known memory lookahead) (runKnown : Known memory run) :
    Mirrors memory (run.act job index version lookahead)
      ((erase run).act job index (erase version) (erase lookahead)) := by
  have noVersions : List.isEmpty (erase run.versions) = run.versions.isEmpty := by
    cases run.versions <;> rfl
  unfold act
  simp only [Lookahead.symbol_erase, Version.state_erase, erase_versions, noVersions]
  rcases job.grammar.actions version.state lookahead.symbol with _ | ⟨action, _ | ⟨other, rest⟩⟩
  · exact mirrors_withoutAction job index known lookaheadKnown runKnown
  · exact (mirrors_apply (!run.versions.isEmpty) action known lookaheadKnown runKnown).andThen
      fun larger applied grows appliedKnown =>
        ⟨insertOption_known appliedKnown.2 appliedKnown.1,
          (insertOption_erase index applied.2 applied.1).symm⟩
  · exact (mirrors_applyAll true 0 (action :: other :: rest) known lookaheadKnown
      runKnown).andThen fun larger applied grows appliedKnown =>
        ⟨insertAt_known appliedKnown.2 appliedKnown.1,
          (insertAt_erase index applied.2 applied.1).symm⟩

theorem mirrors_onLookahead (job : ParseJob) (index : Nat) {version : Version}
    {lookahead : Lookahead} {run : ParseRun} (known : Known memory version)
    (lookaheadKnown : Known memory lookahead) (runKnown : Known memory run) :
    Mirrors memory (run.onLookahead job index version lookahead)
      ((erase run).onLookahead job index (erase version) (erase lookahead)) := by
  cases lookahead with
  | token found lexState => exact mirrors_act job index known lookaheadKnown runKnown
  | reused node =>
      simp only [onLookahead, Lookahead.erase_reused, Subtree.erase_isLeaf]
      exact .ite (fun _ => mirrors_act job index known lookaheadKnown runKnown)
        fun _ => mirrors_reuseNode job.grammar index known lookaheadKnown runKnown

theorem mirrors_advance (job : ParseJob) (index : Nat) {version : Version} {run : ParseRun}
    (known : Known memory version) (runKnown : Known memory run) :
    Mirrors memory (run.advance job index version)
      ((erase run).advance job index (erase version)) := by
  refine Mirrors.ofClosed fun closed => ?_
  have forgotten : Known memory { version with lookahead := none } := ⟨known.1, known_none⟩
  cases pending : version.lookahead with
  | some lookahead =>
      have erased : (erase version : Version).lookahead = some (erase lookahead) := by
        rw [Version.erase_lookahead, pending, erase_some]
      rw [advance_of_pending pending, advance_of_pending erased]
      exact mirrors_onLookahead job index forgotten (known.2 lookahead pending) runKnown
  | none =>
      have erased : (erase version : Version).lookahead = none := by
        rw [Version.erase_lookahead, pending, erase_none]
      have next := nextLookahead_known job version closed runKnown
      rw [advance_of_unknown pending, advance_of_unknown erased, nextLookahead_erase]
      exact mirrors_onLookahead job index forgotten next.2 next.1

/-- What a step on a store leaves to be condensed mirrors what it leaves without ids. -/
theorem mirrors_advanced? (job : ParseJob) {run : ParseRun} (known : Known memory run) :
    match run.advanced? (m := StateM Store) job with
    | some advanced =>
      ∃ image, (erase run).advanced? (m := Id) job = some image ∧ Mirrors memory advanced image
    | none => (erase run).advanced? (m := Id) job = none := by
  have picked : ∀ index : Nat, (erase run.versions : List Version)[index]? =
      (run.versions[index]?).map erase := by
    intro index
    simp [erase_list]
  unfold advanced?
  rw [erase_versions, nextIndex?_erase]
  cases nextIndex? run.versions with
  | none => rfl
  | some index =>
      simp only [bind, Option.bind_some, picked]
      cases found : run.versions[index]? with
      | none => rfl
      | some version =>
          have versionKnown : Known memory version := known.2.1 version (List.mem_of_getElem? found)
          have restKnown : Known memory { run with versions := run.versions.eraseIdx index } :=
            ⟨known.1, known_of_subset known.2.1 (List.eraseIdx_sublist _ _).subset, known.2.2⟩
          have rest : (erase { run with versions := run.versions.eraseIdx index } : ParseRun) =
              { (erase run : ParseRun) with
                versions := List.eraseIdx (erase run.versions) index } := by
            simp [erase_eq, erase_list, List.eraseIdx_eq_take_drop_succ, List.map_take,
              List.map_drop]
          have advanced := mirrors_advance job index versionKnown restKnown
          rw [rest] at advanced
          exact ⟨_, rfl, advanced⟩

/-- A step of a run on a store mirrors the step of the run without ids. -/
theorem mirrors_step? (job : ParseJob) {run : ParseRun} (known : Known memory run) :
    match run.step? (m := StateM Store) job with
    | some step =>
      ∃ image, (erase run).step? (m := Id) job = some image ∧ Mirrors memory step image
    | none => (erase run).step? (m := Id) job = none := by
  have mirrored := mirrors_advanced? job known
  rw [step?_eq_map, step?_eq_map]
  cases found : run.advanced? (m := StateM Store) job with
  | none =>
      rw [found] at mirrored
      rw [show (erase run).advanced? (m := Id) job = none from mirrored]
      rfl
  | some advanced =>
      rw [found] at mirrored
      obtain ⟨image, imageFound, mirrors⟩ := mirrored
      rw [imageFound]
      exact ⟨_, rfl, mirrors.andThen fun larger run grows runKnown =>
        ⟨condense_known runKnown, (condense_erase run).symm⟩⟩

instance : Erasable ParseStatus where
  erase status := status
  Known _ _ := True
  mono known _ := known

theorem mirrors_runFor (job : ParseJob) (deadline : Option Nat) (made operations : Nat)
    {run : ParseRun} (known : Known memory run) :
    Mirrors memory (runFor job deadline made operations run)
      (runFor job deadline made operations (erase run)) := by
  induction operations generalizing made memory run with
  | zero =>
      have stepped := mirrors_step? job known
      unfold runFor
      cases taken : run.step? (m := StateM Store) job with
      | none =>
          rw [taken] at stepped
          rw [stepped]
          exact .pure ⟨known, trivial⟩ rfl
      | some step =>
          rw [taken] at stepped
          obtain ⟨image, imageTaken, -⟩ := stepped
          rw [imageTaken]
          exact .pure ⟨known, trivial⟩ rfl
  | succ operations induction =>
      have stepped := mirrors_step? job known
      unfold runFor
      cases taken : run.step? (m := StateM Store) job with
      | none =>
          rw [taken] at stepped
          rw [stepped]
          exact .pure ⟨known, trivial⟩ rfl
      | some step =>
          rw [taken] at stepped
          obtain ⟨image, imageTaken, mirrors⟩ := stepped
          rw [imageTaken]
          exact .ite (fun _ => .pure ⟨known, trivial⟩ rfl)
            fun _ => mirrors.bind fun larger next grows nextKnown =>
              induction (made + 1) nextKnown

theorem best?_erase {α : Type} [Erasable α] (rank : α → Rank)
    (blind : ∀ value, rank (erase value) = rank value) (values : List α) :
    Rank.best? rank (erase values) = erase (Rank.best? rank values) := by
  have folded : ∀ (first : α) (rest : List α),
      List.foldl (fun best other => if (rank other).better (rank best) then other else best)
        (erase first) (erase rest) =
      erase (rest.foldl
        (fun best other => if (rank other).better (rank best) then other else best) first) := by
    intro first rest
    induction rest generalizing first with
    | nil => rfl
    | cons other rest induction =>
        simp only [erase_cons, List.foldl_cons, blind]
        split
        · exact induction other
        · exact induction first
  cases values with
  | nil => rfl
  | cons first rest => exact congrArg some (folded first rest)

theorem mirrors_result (job : ParseJob) {run : ParseRun} (known : Known memory run) :
    Mirrors memory (run.result job) ((erase run).result job) := by
  unfold result
  rw [erase_finished, best?_erase Finished.rank Finished.rank_erase]
  cases finished : Rank.best? Finished.rank run.finished with
  | some best => exact .pure (known.2.2 best (Rank.best?_mem finished)) rfl
  | none =>
      rw [erase_versions, best?_erase Version.rank Version.rank_erase]
      have bestKnown : Known memory ((Rank.best? Version.rank run.versions).getD .start) := by
        cases alive : Rank.best? Version.rank run.versions with
        | none => exact ⟨known_nil, known_none⟩
        | some best => exact known.2.1 best (Rank.best?_mem alive)
      have bestErased : (erase (Rank.best? Version.rank run.versions)).getD .start =
          erase ((Rank.best? Version.rank run.versions).getD .start) := by
        cases Rank.best? Version.rank run.versions <;> rfl
      simp only [erase_none, bestErased, Version.erase_position, Version.erase_stack,
        ParseStack.subtrees_erase]
      generalize (Rank.best? Version.rank run.versions).getD .start = best at bestKnown ⊢
      have stackKnown : Known memory best.stack.subtrees := ParseStack.subtrees_known bestKnown.1
      have rooted : ∀ {larger : Memory} {errors : List Subtree}, larger.Extends memory →
          Known larger errors →
          Mirrors larger (rootNode job.grammar (best.stack.subtrees ++ errors))
            (rootNode job.grammar (erase best.stack.subtrees ++ erase errors)) := by
        intro larger errors grows errorsKnown
        rw [← erase_append]
        exact mirrors_rootNode (known_append.2 ⟨Erasable.mono stackKnown grows, errorsKnown⟩)
      refine .ite (fun _ => rooted (.refl memory) known_nil) fun _ => ?_
      exact (mirrors_newLeaf memory _).bind fun larger leaf grows leafKnown =>
        rooted grows (known_cons.2 ⟨leafKnown, known_nil⟩)

end ParseRun

end IncrementalGlr
