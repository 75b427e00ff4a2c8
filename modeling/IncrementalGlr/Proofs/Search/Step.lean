import IncrementalGlr.Proofs.Search.Schedule

/-!
# Steps of a search

A step replaces the version that moves on by what its actions make of it, one version for each
action, or by itself with an extra on top.  Only a version that is alone and may do neither recovers.
-/

namespace IncrementalGlr

open Version (Advances Performs)

variable {job : ParseJob} {version : Version}

theorem Version.AlikeTo.sameShape {left right : Version} (alike : left.AlikeTo right) :
    left.SameShape right := by
  rw [AlikeTo] at alike
  rw [alike]
  exact ⟨rfl, rfl, rfl⟩

theorem Version.AlikeTo.dynamicPrecedence {left right : Version} (alike : left.AlikeTo right) :
    left.stack.dynamicPrecedence = right.stack.dynamicPrecedence := by
  rw [AlikeTo] at alike
  rw [alike]

namespace ParseRun

/-- What becomes of a version by some actions: the versions that go on and the accepted trees. -/
structure Performed (job : ParseJob) (version : Version) (actions : List Action)
    (results : List Version) (accepted : List Finished) : Prop where
  /-- Every version comes from an action. -/
  sound : ∀ result ∈ results, ∃ action ∈ actions, ∃ next, Performs job version action next ∧
    result.AlikeTo next
  /-- Every action leads to a version. -/
  complete : ∀ action ∈ actions, ∀ next, Performs job version action next →
    ∃ result ∈ results, result.SameShape next ∧
      result.stack.dynamicPrecedence = next.stack.dynamicPrecedence
  /-- Every tree is accepted. -/
  ended : ∀ finished ∈ accepted, .accept ∈ actions ∧
    finished.root = foldRoot (m := Id) job.grammar version.stack.subtrees
  /-- What is accepted leads to a tree. -/
  accepts : .accept ∈ actions → ∃ finished ∈ accepted,
    finished.root = foldRoot (m := Id) job.grammar version.stack.subtrees

theorem performed_nil : Performed job version [] [] [] where
  sound _ never := absurd never List.not_mem_nil
  complete _ never := absurd never List.not_mem_nil
  ended _ never := absurd never List.not_mem_nil
  accepts never := absurd never List.not_mem_nil

/-- What becomes of a version by one action and by others. -/
theorem Performed.append {actions others : List Action} {results moreResults : List Version}
    {accepted moreAccepted : List Finished}
    (first : Performed job version actions results accepted)
    (rest : Performed job version others moreResults moreAccepted) :
    Performed job version (actions ++ others) (results ++ moreResults)
      (accepted ++ moreAccepted) := by
  constructor
  case sound =>
    intro result member
    rcases List.mem_append.1 member with early | late
    · obtain ⟨action, listed, found⟩ := first.sound result early
      exact ⟨action, List.mem_append_left _ listed, found⟩
    · obtain ⟨action, listed, found⟩ := rest.sound result late
      exact ⟨action, List.mem_append_right _ listed, found⟩
  case complete =>
    intro action member next performs
    rcases List.mem_append.1 member with early | late
    · obtain ⟨result, listed, found⟩ := first.complete action early next performs
      exact ⟨result, List.mem_append_left _ listed, found⟩
    · obtain ⟨result, listed, found⟩ := rest.complete action late next performs
      exact ⟨result, List.mem_append_right _ listed, found⟩
  case ended =>
    intro finished member
    rcases List.mem_append.1 member with early | late
    · exact (first.ended finished early).imp_left (List.mem_append_left _)
    · exact (rest.ended finished late).imp_left (List.mem_append_right _)
  case accepts =>
    intro member
    rcases List.mem_append.1 member with early | late
    · obtain ⟨finished, listed, root⟩ := first.accepts early
      exact ⟨finished, List.mem_append_left _ listed, root⟩
    · obtain ⟨finished, listed, root⟩ := rest.accepts late
      exact ⟨finished, List.mem_append_right _ listed, root⟩

/-- Whether a run differs from another one at most by versions and by trees that were accepted
since. -/
structure Extends (run : ParseRun) (accepted : List Finished) (next : ParseRun) : Prop where
  /-- The accepted trees. -/
  finished : next.finished = run.finished ++ accepted
  /-- There is still no earlier tree. -/
  reuse : next.reuse = run.reuse
  /-- There was no recovery. -/
  lastRecovery : next.lastRecovery = run.lastRecovery

theorem reduce_withPath (grammar : Grammar) (version : Version) (path : List Nat)
    (production : ProductionId) (fragile : Bool) :
    reduce (m := Id) grammar { version with path } production fragile =
      Option.map (fun reduced => { reduced with path })
        (reduce (m := Id) grammar version production fragile) := by
  unfold reduce
  dsimp only
  cases version.stack.takeChildren (grammar.production production).length.toNat with
  | none => rfl
  | some parts =>
      obtain ⟨children, trailing, below⟩ := parts
      dsimp only
      cases grammar.goto? below.state (grammar.production production).lhs <;> rfl

/-- A reduction of a fork does what the machine may do, whatever path the fork has. -/
theorem performed_reduce (path : List Nat) (fragile : Bool) (production : ProductionId) :
    Performed job version [.reduce production]
      (reduce (m := Id) job.grammar
        { version with lookahead := some (version.upcoming job), path } production
        fragile).toList [] := by
  have reduced := reduce_withPath job.grammar
    { version with lookahead := some (version.upcoming job) } path production fragile
  constructor
  case sound =>
    intro result member
    have found := Option.mem_toList.1 member
    rw [reduced] at found
    obtain ⟨next, made, rfl⟩ := Option.map_eq_some_iff.1 found
    exact ⟨_, List.mem_singleton_self _, next, .reduce fragile made, rfl⟩
  case complete =>
    intro other member next performs
    obtain rfl := List.mem_singleton.1 member
    cases performs with
    | reduce otherFragile result =>
        obtain ⟨follower, made, same, precedence⟩ :=
          (Version.SameShape.refl _).reduce result fragile
        refine ⟨{ follower with path }, Option.mem_toList.2 ?_,
          ⟨same.position, same.lookahead, same.stack⟩, ?_⟩
        · rw [reduced, made]
          rfl
        · change follower.stack.dynamicPrecedence = next.stack.dynamicPrecedence
          omega
  case ended => exact fun _ never => absurd never List.not_mem_nil
  case accepts => exact fun member => by cases List.mem_singleton.1 member

/-- An action of a fork does what the machine may do. -/
theorem performed_apply (isToken : (version.upcoming job).IsToken) (path : List Nat)
    (fragile : Bool) (run : ParseRun) (action : Action) :
    let outcome := apply (m := Id) job.grammar { version with lookahead := none, path }
      (version.upcoming job) fragile run action
    ∃ accepted, Performed job version [action] outcome.2.toList accepted ∧
      run.Extends accepted outcome.1 ∧ outcome.1.versions = run.versions := by
  have unchanged : run.Extends [] run := ⟨(List.append_nil _).symm, rfl, rfl⟩
  cases action with
  | shift next =>
      refine ⟨[], ⟨?_, ?_, ?_, ?_⟩, ?_⟩
      · intro result member
        obtain rfl := Option.some.inj (Option.mem_toList.1 member)
        exact ⟨_, List.mem_singleton_self _, _, .shift, rfl⟩
      · intro other member next performs
        obtain rfl := List.mem_singleton.1 member
        cases performs
        exact ⟨_, Option.mem_toList.2 rfl, ⟨rfl, rfl, rfl⟩, rfl⟩
      · exact fun _ never => absurd never List.not_mem_nil
      · exact fun member => by cases List.mem_singleton.1 member
      · obtain ⟨token, lexState, same⟩ := isToken
        rw [same]
        exact ⟨unchanged, rfl⟩
  | reduce production =>
      exact ⟨[], performed_reduce path fragile production, unchanged, rfl⟩
  | accept =>
      refine ⟨[⟨foldRoot (m := Id) job.grammar version.stack.subtrees, path⟩], ⟨?_, ?_, ?_, ?_⟩,
        ⟨rfl, rfl, rfl⟩, rfl⟩
      · exact fun _ never => absurd never List.not_mem_nil
      · intro other member next performs
        obtain rfl := List.mem_singleton.1 member
        cases performs
      · intro finished member
        obtain rfl := List.mem_singleton.1 member
        exact ⟨List.mem_singleton_self _, rfl⟩
      · exact fun _ => ⟨_, List.mem_singleton_self _, rfl⟩

/-- The forks of a conflict do what the machine may do. -/
theorem performed_applyAll (isToken : (version.upcoming job).IsToken) (fragile : Bool)
    (alternative : Nat) (run : ParseRun) (actions : List Action) :
    let outcome := applyAll (m := Id) job.grammar { version with lookahead := none }
      (version.upcoming job) fragile alternative run actions
    ∃ accepted, Performed job version actions outcome.2 accepted ∧
      run.Extends accepted outcome.1 ∧ outcome.1.versions = run.versions := by
  induction actions generalizing run alternative with
  | nil => exact ⟨[], performed_nil, ⟨(List.append_nil _).symm, rfl, rfl⟩, rfl⟩
  | cons action rest induction =>
      obtain ⟨accepted, performed, grows, versions⟩ := performed_apply isToken
        (version.path ++ [alternative]) fragile run action
      obtain ⟨more, others, growsMore, moreVersions⟩ := induction (alternative + 1)
        (apply (m := Id) job.grammar
          { version with lookahead := none, path := version.path ++ [alternative] }
          (version.upcoming job) fragile run action).1
      refine ⟨accepted ++ more, performed.append others, ⟨?_, ?_, ?_⟩, moreVersions.trans versions⟩
      · rw [← List.append_assoc, ← grows.finished]
        exact growsMore.finished
      · exact growsMore.reuse.trans grows.reuse
      · exact growsMore.lastRecovery.trans grows.lastRecovery

variable {run raw : ParseRun}

/-- The version that is chosen is the first of those furthest behind. -/
theorem exists_of_nextIndex? {versions : List Version} {index : Nat}
    (chosen : nextIndex? versions = some index) (found : versions[index]? = some version) :
    ∃ before after, versions = before ++ version :: after ∧
      (∀ other ∈ before, version.position < other.position) ∧
      (∀ other ∈ after, version.position ≤ other.position) ∧
      before.length = index ∧ versions.eraseIdx index = before ++ after := by
  obtain ⟨least, minimum, first⟩ := Option.bind_eq_some_iff.1 chosen
  obtain ⟨inside, rfl⟩ := List.getElem?_eq_some_iff.1 found
  obtain ⟨_, place, earlier⟩ := List.findIdx?_eq_some_iff_getElem.1 first
  rw [beq_iff_eq] at place
  have bound : ∀ other ∈ versions, least ≤ other.position := fun other member =>
    (List.min?_eq_some_iff.1 minimum).2 _ (List.mem_map_of_mem member)
  have length : (versions.take index).length = index :=
    List.length_take_of_le (Nat.le_of_lt inside)
  refine ⟨versions.take index, versions.drop (index + 1), ?_, ?_, ?_, length,
    List.eraseIdx_eq_take_drop_succ _ _⟩
  · rw [List.getElem_cons_drop, List.take_append_drop]
  · intro other member
    obtain ⟨position, positionBound, rfl⟩ := List.getElem_of_mem member
    rw [length] at positionBound
    rw [List.getElem_take, place]
    have different := earlier position positionBound
    rw [Bool.not_eq_true, beq_eq_false_iff_ne] at different
    have behind := bound versions[position] (List.getElem_mem _)
    omega
  · intro other member
    rw [place]
    exact bound other (List.mem_of_mem_drop member)

/-- The first of the versions furthest behind moves on. -/
theorem exists_of_advanced? (advanced : run.advanced? (m := Id) job = some raw) :
    ∃ before version after, run.versions = before ++ version :: after ∧
      (∀ other ∈ before, version.position < other.position) ∧
      (∀ other ∈ after, version.position ≤ other.position) ∧
      raw = advance (m := Id) job before.length version
        { run with versions := before ++ after } := by
  obtain ⟨index, chosen, rest⟩ := Option.bind_eq_some_iff.1 advanced
  obtain ⟨version, found, made⟩ := Option.bind_eq_some_iff.1 rest
  obtain ⟨before, after, versions, ahead, behind, length, others⟩ :=
    exists_of_nextIndex? chosen found
  refine ⟨before, version, after, versions, ahead, behind, ?_⟩
  rw [length, ← others]
  exact (Option.some.inj made).symm

/-- Without an earlier tree a version acts on what comes next for it. -/
theorem advance_eq_act (index : Nat) (fresh : run.reuse = none)
    (isToken : (version.upcoming job).IsToken) :
    ∃ stats, advance (m := Id) job index version run =
      act (m := Id) job index { version with lookahead := none } (version.upcoming job)
        { run with stats } := by
  unfold Version.upcoming at isToken ⊢
  cases known : version.lookahead with
  | some lookahead =>
      rw [known, Option.getD_some] at isToken
      rw [advance_of_pending known, onLookahead_of_isToken isToken]
      exact ⟨run.stats, rfl⟩
  | none =>
      rw [advance_of_unknown known, nextLookahead_of_fresh fresh]
      exact ⟨run.stats.countLexed, rfl⟩

/-- What becomes of a version in a step: the versions that go on and the accepted trees. -/
structure Explored (job : ParseJob) (version : Version) (results : List Version)
    (accepted : List Finished) : Prop where
  /-- Every version comes from a step of the machine. -/
  sound : ∀ result ∈ results, ∃ next, Advances job version next ∧ result.AlikeTo next
  /-- Every step of the machine leads to a version. -/
  complete : ∀ next, Advances job version next → ∃ result ∈ results, result.SameShape next ∧
    result.stack.dynamicPrecedence = next.stack.dynamicPrecedence
  /-- Every tree is accepted by the machine. -/
  ended : ∀ finished ∈ accepted,
    .accept ∈ job.grammar.actions version.state (version.upcoming job).symbol ∧
      finished.root = foldRoot (m := Id) job.grammar version.stack.subtrees
  /-- What the machine accepts leads to a tree. -/
  accepts : .accept ∈ job.grammar.actions version.state (version.upcoming job).symbol →
    ∃ finished ∈ accepted, finished.root = foldRoot (m := Id) job.grammar version.stack.subtrees

/-- If there are actions, the machine does nothing else. -/
theorem Performed.explored {results : List Version} {accepted : List Finished}
    (performed : Performed job version
      (job.grammar.actions version.state (version.upcoming job).symbol) results accepted)
    (acts : job.grammar.actions version.state (version.upcoming job).symbol ≠ []) :
    Explored job version results accepted where
  sound result member := by
    obtain ⟨action, listed, next, performs, alike⟩ := performed.sound result member
    exact ⟨next, .act listed performs, alike⟩
  complete next advances := by
    cases advances with
    | act listed performs => exact performed.complete _ listed next performs
    | extra noAction => exact absurd noAction acts
  ended := performed.ended
  accepts := performed.accepts

/-- Extras without an action are pushed; this is all the machine does with them. -/
theorem explored_extra
    (noAction : job.grammar.actions version.state (version.upcoming job).symbol = [])
    (isExtra : job.grammar.isExtra (version.upcoming job).symbol = true)
    (notEnd : (version.upcoming job).symbol ≠ .endOfInput)
    (notError : (version.upcoming job).isError = false) :
    Explored job version
      [pushLeaf (m := Id) job.grammar version (version.upcoming job) version.state true] [] where
  sound result member := by
    obtain rfl := List.mem_singleton.1 member
    exact ⟨_, .extra noAction isExtra notEnd notError, .refl _⟩
  complete next advances := by
    cases advances with
    | act listed performs =>
        rw [noAction] at listed
        cases listed
    | extra => exact ⟨_, List.mem_singleton_self _, .refl _, rfl⟩
  ended _ never := absurd never List.not_mem_nil
  accepts listed := by
    rw [noAction] at listed
    cases listed

theorem versions_insertAt {before after : List Version}
    (versions : run.versions = before ++ after) (results : List Version) :
    (run.insertAt before.length results).versions = before ++ results ++ after := by
  rw [insertAt, versions, List.take_left, List.drop_left]

/-- A version without an action is replaced by itself with an extra on top, or is lost, or is alone
and may do nothing but recover. -/
theorem explored_withoutAction {before after : List Version}
    (versions : run.versions = before ++ after) (isToken : (version.upcoming job).IsToken)
    (noAction : job.grammar.actions version.state (version.upcoming job).symbol = []) :
    let next := withoutAction (m := Id) job before.length { version with lookahead := none }
      (version.upcoming job) run
    (∃ results, Explored job version results [] ∧
      next.versions = before ++ results ++ after ∧ run.Extends [] next) ∨
      run.versions = [] ∧ run.finished = [] ∧ (∀ moved, ¬ Advances job version moved) ∧
        (run.reuse = none → next = recover (m := Id) job
          { version with lookahead := some (version.upcoming job) } run) := by
  have unread : run.countReuse (version.upcoming job) = run := by
    obtain ⟨token, lexState, same⟩ := isToken
    rw [same]
    rfl
  have unchanged : run.Extends [] run := ⟨(List.append_nil _).symm, rfl, rfl⟩
  unfold withoutAction
  dsimp only
  split
  · next extra =>
      simp only [Bool.and_eq_true, decide_eq_true_eq, Bool.not_eq_true', ne_eq] at extra
      obtain ⟨⟨isExtra, notEnd⟩, notError⟩ := extra
      rw [unread]
      exact .inl ⟨_, explored_extra noAction isExtra notEnd notError,
        versions_insertAt versions _, ⟨unchanged.finished, rfl, rfl⟩⟩
  · next noExtra =>
      have stuck : ∀ moved, ¬ Advances job version moved := by
        intro moved advances
        cases advances with
        | act listed performs =>
            rw [noAction] at listed
            cases listed
        | extra noAction isExtra notEnd notError =>
            simp [isExtra, notEnd, notError] at noExtra
      split
      · next alone =>
          simp only [Bool.and_eq_true, List.isEmpty_iff] at alone
          refine .inr ⟨alone.1, alone.2, stuck, fun fresh => ?_⟩
          rw [fresh]
          rfl
      · refine .inl ⟨[], ⟨fun _ never => absurd never List.not_mem_nil,
          fun moved advances => absurd advances (stuck moved),
          fun _ never => absurd never List.not_mem_nil, fun listed => ?_⟩, ?_, unchanged⟩
        · rw [noAction] at listed
          cases listed
        · rw [List.append_nil]
          exact versions

/-- A step explores what the machine may do, unless the version is alone and may do nothing but
recover. -/
theorem explored_act {before after : List Version}
    (versions : run.versions = before ++ after) (isToken : (version.upcoming job).IsToken) :
    let next := act (m := Id) job before.length { version with lookahead := none }
      (version.upcoming job) run
    (∃ results accepted, Explored job version results accepted ∧
      next.versions = before ++ results ++ after ∧ run.Extends accepted next) ∨
      run.versions = [] ∧ run.finished = [] ∧
        job.grammar.actions version.state (version.upcoming job).symbol = [] ∧
        (∀ moved, ¬ Advances job version moved) ∧
        (run.reuse = none → next = recover (m := Id) job
          { version with lookahead := some (version.upcoming job) } run) := by
  have sameState : Version.state { version with lookahead := none } = version.state := rfl
  unfold act
  dsimp only
  rw [sameState]
  cases known : job.grammar.actions version.state (version.upcoming job).symbol with
  | nil =>
      rcases explored_withoutAction versions isToken known with
        ⟨results, explored⟩ | ⟨alone, none, stuck⟩
      · exact .inl ⟨results, [], explored⟩
      · exact .inr ⟨alone, none, rfl, stuck⟩
  | cons action others =>
      have acts : job.grammar.actions version.state (version.upcoming job).symbol ≠ [] :=
        known ▸ List.cons_ne_nil action others
      cases others with
      | nil =>
          obtain ⟨accepted, performed, grows, same⟩ := performed_apply isToken version.path
            (!run.versions.isEmpty) run action
          rw [← known] at performed
          exact .inl ⟨_, accepted, performed.explored acts,
            versions_insertAt (same.trans versions) _,
            ⟨grows.finished, grows.reuse, grows.lastRecovery⟩⟩
      | cons second rest =>
          obtain ⟨accepted, performed, grows, same⟩ := performed_applyAll isToken true 0 run
            (action :: second :: rest)
          exact .inl ⟨_, accepted, Performed.explored (known.symm ▸ performed) acts,
            versions_insertAt (same.trans versions) _,
            ⟨grows.finished, grows.reuse, grows.lastRecovery⟩⟩

end ParseRun

end IncrementalGlr
