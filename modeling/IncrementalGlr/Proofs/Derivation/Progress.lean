import IncrementalGlr.Proofs.Condensing.Kept
import IncrementalGlr.Proofs.Derivation.Parse

/-!
# Runs never lose everything

A version is lost only if another one or an accepted tree is left, since every reduction that the
table calls for succeeds and the last version recovers.  So a run without an earlier tree ends with
an accepted tree.
-/

namespace IncrementalGlr

variable {plain : PlainGrammar} {items : StateId → Lalr.Item → Prop}

namespace ParseRun

theorem mergeWithin_ne_nil {budget : Nat} {versions : List Version} (nonempty : versions ≠ [])
    (enough : 0 < budget) : mergeWithin budget versions ≠ [] := by
  obtain ⟨version, rest, rfl⟩ := List.exists_cons_of_ne_nil nonempty
  obtain ⟨budget, rfl⟩ := Nat.exists_eq_succ_of_ne_zero (Nat.ne_of_gt enough)
  simp [mergeWithin]

theorem merge_ne_nil {versions : List Version} (nonempty : versions ≠ []) :
    merge versions ≠ [] :=
  mergeWithin_ne_nil nonempty (List.length_pos_of_ne_nil nonempty)

/-- Whether a version or an accepted tree is left. -/
def Alive (run : ParseRun) : Prop := run.versions ≠ [] ∨ run.finished ≠ []

variable {run : ParseRun}

theorem Alive.condense (alive : run.Alive) : run.condense.Alive := by
  by_cases accepted : run.finished = []
  · left
    have versions := alive.resolve_right fun some => some accepted
    have merged : run.promising = merge run.versions := by
      unfold promising
      rw [accepted]
      rfl
    have promising := List.length_pos_of_ne_nil (merge_ne_nil versions)
    have kept := length_dropWorst (run.promising.length - maxVersions) run.promising
    have survivors : run.survivors ≠ [] := by
      rw [← merged] at promising
      have limit : maxVersions = 6 := rfl
      apply List.ne_nil_of_length_pos
      rw [ParseRun.survivors]
      omega
    unfold ParseRun.condense
    split
    · simp
    · exact survivors
  · right
    rwa [condense_finished]

theorem alive_insertAt (run : ParseRun) (index : Nat) {versions : List Version}
    (nonempty : versions ≠ []) : (run.insertAt index versions).Alive := by
  left
  simp [insertAt, nonempty]

variable {job : ParseJob} {version : Version} {lookahead : Lookahead}

/-- An action leaves a version or an accepted tree. -/
theorem apply_alive (works : job.grammar.WorksOn plain items)
    (derives : version.stack.Derives plain items) (isToken : lookahead.IsToken) (fragile : Bool)
    (run : ParseRun) {action : Action}
    (allowed : action ∈ job.grammar.actions version.state lookahead.symbol) :
    (∃ result, (apply (m := Id) job.grammar version lookahead fragile run action).2 = some result) ∨
      (apply (m := Id) job.grammar version lookahead fragile run action).1.finished ≠ [] := by
  cases action with
  | shift next => exact .inl ⟨_, rfl⟩
  | reduce production =>
      have looking : Version.Derives plain items { version with lookahead := some lookahead } :=
        ⟨derives, fun known same => Option.some.inj same ▸ isToken⟩
      obtain ⟨reduced, found, -⟩ := reduce_derives works looking allowed fragile
      exact .inl ⟨reduced, found⟩
  | accept => exact .inr (List.append_ne_nil_of_right_ne_nil _ (List.cons_ne_nil _ _))

theorem apply_finished (run : ParseRun) (fragile : Bool) (action : Action)
    (accepted : run.finished ≠ []) :
    (apply (m := Id) job.grammar version lookahead fragile run action).1.finished ≠ [] := by
  cases action with
  | shift next => cases lookahead <;> exact accepted
  | reduce production => exact accepted
  | accept => exact List.append_ne_nil_of_right_ne_nil _ (List.cons_ne_nil _ _)

theorem applyAll_finished (run : ParseRun) (fragile : Bool) (alternative : Nat)
    (actions : List Action) (accepted : run.finished ≠ []) :
    (applyAll (m := Id) job.grammar version lookahead fragile alternative run actions).1.finished ≠
      [] := by
  induction actions generalizing run alternative with
  | nil => exact accepted
  | cons action rest induction =>
      exact induction _ (alternative + 1) (apply_finished run fragile action accepted)

/-- Actions leave a version or an accepted tree. -/
theorem applyAll_alive (works : job.grammar.WorksOn plain items)
    (derives : version.stack.Derives plain items) (isToken : lookahead.IsToken) (fragile : Bool)
    (alternative : Nat) (run : ParseRun) {actions : List Action} (some_ : actions ≠ [])
    (allowed : ∀ action ∈ actions, action ∈ job.grammar.actions version.state lookahead.symbol) :
    (applyAll (m := Id) job.grammar version lookahead fragile alternative run actions).2 ≠ [] ∨
      (applyAll (m := Id) job.grammar version lookahead fragile alternative run
        actions).1.finished ≠ [] := by
  obtain ⟨action, rest, rfl⟩ := List.exists_cons_of_ne_nil some_
  have first := @apply_alive plain items job { version with path := version.path ++ [alternative] }
    lookahead works derives isToken fragile run action (allowed action List.mem_cons_self)
  rcases first with ⟨result, found⟩ | accepted
  · left
    have kept : Option.toList (apply (m := Id) job.grammar
        { version with path := version.path ++ [alternative] } lookahead fragile run action).2 ≠
          [] := by
      rw [found]
      exact List.cons_ne_nil _ _
    exact List.append_ne_nil_of_left_ne_nil kept _
  · exact .inr (applyAll_finished _ fragile (alternative + 1) rest accepted)

theorem window_ne_nil (position : Nat) : Recovery.window job position ≠ [] := by
  rw [Recovery.window, Recovery.maxTokens, Recovery.tokensFrom]
  split <;> exact List.cons_ne_nil _ _

/-- The last version recovers. -/
theorem recover_alive (version : Version) (run : ParseRun) :
    (recover (m := Id) job version run).Alive := by
  unfold recover
  dsimp only
  split
  · exact .inl (List.append_ne_nil_of_right_ne_nil _ (List.cons_ne_nil _ _))
  · split
    · exact .inr (List.append_ne_nil_of_right_ne_nil _ (List.cons_ne_nil _ _))
    · obtain ⟨token, rest, same⟩ := List.exists_cons_of_ne_nil (@window_ne_nil job version.position)
      simp only [same, List.head?_cons]
      exact .inl (List.append_ne_nil_of_right_ne_nil _ (List.cons_ne_nil _ _))

theorem withoutAction_alive (index : Nat) {run : ParseRun} (fresh : run.reuse = none) :
    (withoutAction (m := Id) job index version lookahead run).Alive := by
  unfold withoutAction
  dsimp only
  split
  · exact alive_insertAt _ index (List.cons_ne_nil _ _)
  · split
    · rw [fresh, Option.isSome_none]
      exact recover_alive _ run
    · next others =>
        simp only [Bool.and_eq_true, List.isEmpty_iff, not_and_or] at others
        exact others

theorem act_alive (works : job.grammar.WorksOn plain items)
    (derives : version.stack.Derives plain items) (isToken : lookahead.IsToken) (index : Nat)
    {run : ParseRun} (fresh : run.reuse = none) :
    (act (m := Id) job index version lookahead run).Alive := by
  unfold act
  dsimp only
  split
  · exact withoutAction_alive index fresh
  · next action only =>
      have allowed : action ∈ job.grammar.actions version.state lookahead.symbol := by
        rw [only]
        exact List.mem_singleton_self action
      rcases apply_alive works derives isToken (!run.versions.isEmpty) run allowed with
        ⟨result, found⟩ | accepted
      · refine alive_insertAt _ index ?_
        rw [found]
        exact List.cons_ne_nil _ _
      · exact .inr accepted
  · next some_ _ =>
      rcases applyAll_alive works derives isToken true 0 run some_ fun action member => member with
        nonempty | accepted
      · exact alive_insertAt _ index nonempty
      · exact .inr accepted

/-- A step leaves a version or an accepted tree. -/
theorem step?_alive (works : job.grammar.WorksOn plain items) {final : Subtree → Prop}
    {next : ParseRun} (keeps : run.Keeps (Version.Derives plain items) final fun _ => False)
    (stepped : run.step? (m := Id) job = some next) : next.Alive := by
  have fresh : run.reuse = none := Option.eq_none_iff_forall_not_mem.2 keeps.reuse
  unfold step? at stepped
  obtain ⟨index, indexFound, rest⟩ := Option.bind_eq_some_iff.1 stepped
  obtain ⟨version, found, same⟩ := Option.bind_eq_some_iff.1 rest
  obtain rfl := Option.some.inj same
  have derives := keeps.versions version (List.mem_of_getElem? found)
  have acted : ∀ {current : ParseRun} {lookahead : Lookahead}, current.reuse = none →
      lookahead.IsToken → (current.onLookahead (m := Id) job index
        { version with lookahead := none } lookahead).Alive := by
    intro current lookahead none isToken
    rw [onLookahead_of_isToken isToken]
    exact @act_alive plain items job { version with lookahead := Option.none } _ works
      derives.stack isToken index current none
  refine Alive.condense ?_
  cases pending : version.lookahead with
  | some lookahead =>
      rw [advance_of_pending pending]
      exact acted fresh (derives.lookahead lookahead pending)
  | none =>
      have taken : ParseRun.reuse { run with versions := run.versions.eraseIdx index } = none := fresh
      rw [advance_of_unknown pending, nextLookahead_of_fresh taken]
      exact acted taken ⟨_, _, rfl⟩

/-- Runs without an earlier tree always have a version or an accepted tree. -/
theorem Reaches.alive (works : job.grammar.WorksOn plain items) {last : ParseRun}
    (reaches : Reaches job (.start none) last) : last.Alive := by
  cases reaches with
  | refl => exact .inl (List.cons_ne_nil _ _)
  | step before stepped => exact step?_alive works ((derives_preserved works).fresh before) stepped

end ParseRun

end IncrementalGlr
