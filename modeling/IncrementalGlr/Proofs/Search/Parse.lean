import IncrementalGlr.Proofs.Search.Step

/-!
# A search follows all nondeterministic runs

Every version alive is reached by a nondeterministic run, and whatever such a run may still come to
is promised by a version alive or is an accepted tree already.  A step keeps this.  So does
condensing if no version is dropped and those that are merged hold extras at the same places.
-/

namespace IncrementalGlr

open Version (Advances Performs Runs Promises Accepts)

variable {job : ParseJob} {plain : PlainGrammar} {items : StateId → Lalr.Item → Prop}

theorem ParseStack.state_eq_of_states {left right : ParseStack}
    (same : left.states = right.states) : left.state = right.state := by
  have heads := congrArg List.head? same
  cases left <;> cases right <;> exact Option.some.inj heads

namespace Version

variable {version other next : Version}

/-- The path of a version does not matter to the machine. -/
theorem AlikeTo.advance (alike : version.AlikeTo other) (advances : Advances job version next) :
    ∃ origin, Advances job other origin ∧ next.AlikeTo origin := by
  obtain ⟨path, rfl⟩ : ∃ path, version = { other with path } := ⟨_, alike⟩
  cases advances with
  | act listed performs =>
      cases performs with
      | shift => exact ⟨_, .act listed .shift, rfl⟩
      | @reduce production fragile _ result =>
          have forgotten := ParseRun.reduce_withPath job.grammar
            { other with lookahead := some (other.upcoming job) } path production fragile
          obtain ⟨origin, made, rfl⟩ := Option.map_eq_some_iff.1 (forgotten.symm.trans result)
          exact ⟨origin, .act listed (.reduce fragile made), rfl⟩
  | extra noAction isExtra notEnd notError =>
      exact ⟨_, .extra noAction isExtra notEnd notError, rfl⟩

theorem AlikeTo.regular (alike : version.AlikeTo other)
    (regular : other.Regular job plain items) : version.Regular job plain items := by
  rw [AlikeTo] at alike
  rw [alike]
  exact ⟨regular.stack, regular.clean, regular.token, regular.active, regular.shifted,
    regular.reduced⟩

theorem Follows.of_alike (follows : version.Follows job next) (alike : other.AlikeTo next) :
    version.Follows job other := by
  rw [AlikeTo] at alike
  rw [alike]
  exact follows

/-- What the machine accepts has no errors. -/
theorem Accepts.errorCount {root : Subtree} (acts : job.grammar.ActsOn plain items)
    (accepts : Accepts job .start root) : root.errorCount = 0 := by
  obtain ⟨last, runs, -, rfl⟩ := accepts
  exact ((regular_start.runs acts runs).foldRoot_merits acts).1

end Version

namespace ParseRun

variable {run raw : ParseRun}

/-- What holds of a run that follows all nondeterministic runs. -/
structure Searches (job : ParseJob) (run : ParseRun) : Prop where
  /-- There is no earlier tree. -/
  fresh : run.reuse = none
  /-- There was no recovery. -/
  calm : run.lastRecovery = none
  /-- A nondeterministic run leads to every version. -/
  reached : ∀ version ∈ run.versions, ∃ origin, Runs job .start origin ∧ version.AlikeTo origin
  /-- Versions that wait for a token all wait for one, in front. -/
  ordered : run.versions.Pairwise Version.Precedes
  /-- A nondeterministic run accepts every accepted tree. -/
  accepted : ∀ finished ∈ run.finished, Accepts job .start finished.root
  /-- Nothing that the start promises is lost. -/
  covered : ∀ least, Promises job .start least →
    (∃ finished ∈ run.finished, least ≤ finished.root.dynamicPrecedence) ∨
      ∃ version ∈ run.versions, Promises job version least

theorem searches_start : Searches job (.start none) where
  fresh := rfl
  calm := rfl
  reached version member := by
    obtain rfl := List.mem_singleton.1 member
    exact ⟨_, .refl, .refl _⟩
  ordered := List.pairwise_singleton _ _
  accepted _ never := absurd never List.not_mem_nil
  covered _ promises := .inr ⟨_, List.mem_singleton_self _, promises⟩

theorem Searches.regular (searches : Searches job run) (acts : job.grammar.ActsOn plain items) :
    ∀ version ∈ run.versions, version.Regular job plain items := by
  intro version member
  obtain ⟨origin, runs, alike⟩ := searches.reached version member
  exact alike.regular (Version.regular_start.runs acts runs)

section Exploration

variable {version : Version} {before after results : List Version} {accepted : List Finished}

theorem Searches.reached_explored (searches : Searches job run)
    (versions : run.versions = before ++ version :: after)
    (explored : Explored job version results accepted) :
    ∀ other ∈ before ++ results ++ after, ∃ origin, Runs job .start origin ∧
      other.AlikeTo origin := by
  intro other member
  have kept : ∀ later ∈ before ++ version :: after, ∃ origin, Runs job .start origin ∧
      later.AlikeTo origin := versions ▸ searches.reached
  rcases List.mem_append.1 member with member | late
  · rcases List.mem_append.1 member with early | result
    · exact kept other (List.mem_append_left _ early)
    · obtain ⟨moved, advances, alike⟩ := explored.sound other result
      obtain ⟨origin, runs, versionAlike⟩ :=
        kept version (List.mem_append_right _ List.mem_cons_self)
      obtain ⟨last, reached, movedAlike⟩ := versionAlike.advance advances
      exact ⟨last, runs.tail reached, alike.trans movedAlike⟩
  · exact kept other (List.mem_append_right _ (List.mem_cons_of_mem version late))

theorem Searches.accepted_explored (searches : Searches job run)
    (member : version ∈ run.versions) (explored : Explored job version results accepted) :
    ∀ finished ∈ run.finished ++ accepted, Accepts job .start finished.root := by
  intro finished listed
  rcases List.mem_append.1 listed with old | new
  · exact searches.accepted finished old
  · obtain ⟨accept, root⟩ := explored.ended finished new
    obtain ⟨origin, runs, alike⟩ := searches.reached version member
    refine ⟨origin, runs, ?_, ?_⟩
    · rw [← alike.sameShape.state, ← alike.sameShape.upcoming]
      exact accept
    · rw [Version.AlikeTo] at alike
      rw [root, alike]

/-- What the version that moves on promises is accepted or goes on to one of the versions that it
leads to. -/
theorem Explored.covered (explored : Explored job version results accepted)
    (acts : job.grammar.ActsOn plain items) (regular : version.Regular job plain items)
    {least : Int} (promises : Promises job version least) :
    (∃ finished ∈ accepted, least ≤ finished.root.dynamicPrecedence) ∨
      ∃ result ∈ results, Promises job result least := by
  rcases promises.first with ⟨accept, enough⟩ | ⟨moved, advances, promises⟩
  · obtain ⟨finished, member, root⟩ := explored.accepts accept
    exact .inl ⟨finished, member, root ▸ enough⟩
  · obtain ⟨result, member, same, precedence⟩ := explored.complete moved advances
    obtain ⟨origin, originAdvances, alike⟩ := explored.sound result member
    have resultRegular := alike.regular (regular.advance acts originAdvances).1
    exact .inr ⟨result, member, promises.of_sameShape acts same resultRegular
      (regular.advance acts advances).1 (Int.le_of_eq precedence.symm)⟩

theorem Searches.covered_explored (searches : Searches job run)
    (acts : job.grammar.ActsOn plain items)
    (versions : run.versions = before ++ version :: after)
    (explored : Explored job version results accepted) {least : Int}
    (promises : Promises job .start least) :
    (∃ finished ∈ run.finished ++ accepted, least ≤ finished.root.dynamicPrecedence) ∨
      ∃ other ∈ before ++ results ++ after, Promises job other least := by
  rcases searches.covered least promises with
    ⟨finished, member, enough⟩ | ⟨other, member, promises⟩
  · exact .inl ⟨finished, List.mem_append_left _ member, enough⟩
  · have regular := searches.regular acts other member
    rw [versions] at member
    rcases List.mem_append.1 member with early | member
    · exact .inr ⟨other, List.mem_append_left _ (List.mem_append_left _ early), promises⟩
    · rcases List.mem_cons.1 member with rfl | late
      · rcases explored.covered acts regular promises with
          ⟨finished, listed, enough⟩ | ⟨result, listed, promises⟩
        · exact .inl ⟨finished, List.mem_append_right _ listed, enough⟩
        · exact .inr ⟨result, List.mem_append_left _ (List.mem_append_right _ listed), promises⟩
      · exact .inr ⟨other, List.mem_append_right _ late, promises⟩

/-- As long as nothing is accepted a version that is alone promises what the start promises, so it
has something to do. -/
theorem Searches.notStuck (searches : Searches job run) {least : Int}
    (promised : Promises job .start least) (versions : run.versions = [version])
    (none : run.finished = []) :
    job.grammar.actions version.state (version.upcoming job).symbol ≠ [] ∨
      ∃ moved, Advances job version moved := by
  rcases searches.covered least promised with ⟨finished, member, -⟩ | ⟨other, member, promises⟩
  · rw [none] at member
    cases member
  · rw [versions] at member
    obtain rfl := List.mem_singleton.1 member
    rcases promises.first with ⟨accept, -⟩ | ⟨moved, advances, -⟩
    · exact .inl (List.ne_nil_of_mem accept)
    · exact .inr ⟨moved, advances⟩

end Exploration

theorem Searches.noErrors (searches : Searches job run) (acts : job.grammar.ActsOn plain items) :
    ∀ version ∈ run.versions, version.stack.errorCount = 0 := by
  intro version member
  rw [ParseStack.errorCount_eq]
  exact errors_eq_zero (searches.regular acts version member).clean

/-- The search goes on through a step. -/
theorem Searches.advance (searches : Searches job run) (acts : job.grammar.ActsOn plain items)
    {least : Int} (promised : Promises job .start least)
    (advanced : run.advanced? (m := Id) job = some raw) : Searches job raw := by
  obtain ⟨before, version, after, versions, ahead, behind, rfl⟩ := exists_of_advanced? advanced
  have member : version ∈ run.versions :=
    versions ▸ List.mem_append_right _ List.mem_cons_self
  have regular := searches.regular acts version member
  obtain ⟨stats, acted⟩ := @advance_eq_act job version { run with versions := before ++ after }
    before.length searches.fresh regular.isToken
  rw [acted]
  rcases @explored_act job version { run with versions := before ++ after, stats } before after
    rfl regular.isToken with
    ⟨results, accepted, explored, made, grows⟩ | ⟨alone, none, noAction, stuck, -⟩
  · have follows : ∀ result ∈ results, version.Follows job result := by
      intro result listed
      obtain ⟨moved, advances, alike⟩ := explored.sound result listed
      exact (regular.advance acts advances).2.of_alike alike
    constructor
    case fresh => exact grows.reuse.trans searches.fresh
    case calm => exact grows.lastRecovery.trans searches.calm
    case reached =>
      rw [made]
      exact searches.reached_explored versions explored
    case ordered =>
      rw [made]
      exact Version.pairwise_precedes_advance (versions ▸ searches.ordered) ahead behind follows
    case accepted =>
      rw [grows.finished]
      exact searches.accepted_explored member explored
    case covered =>
      rw [made, grows.finished]
      exact fun _ promises => searches.covered_explored acts versions explored promises
  · obtain ⟨rfl, rfl⟩ := List.append_eq_nil_iff.1 alone
    rcases searches.notStuck promised versions none with some_ | ⟨moved, advances⟩
    · exact absurd noAction some_
    · exact absurd advances (stuck moved)

/-- Whether versions of a run that agree have stacks of one shape, so that only versions are merged
that hold extras at the same places. -/
def Aligned (run : ParseRun) : Prop :=
  ∀ left ∈ run.versions, ∀ right ∈ run.versions, left.agrees right = true →
    left.stack.shape = right.stack.shape

/-- Versions that agree look at one token. -/
theorem Searches.looksAlike (searches : Searches job run)
    (acts : job.grammar.ActsOn plain items) : Version.LooksAlike run.versions := by
  have waiting := @List.Pairwise.forall_of_forall_of_flip _ run.versions
    (fun left right : Version => left.lookahead ≠ none → right.lookahead ≠ none →
      left.lookahead = right.lookahead)
    (fun _ _ _ _ => rfl)
    (searches.ordered.imp fun precedes left right => (precedes.alike left right).1)
    (searches.ordered.imp fun precedes left right => (precedes.alike right left).1.symm)
  intro left leftMember right rightMember agrees
  have leftRegular := searches.regular acts left leftMember
  have rightRegular := searches.regular acts right rightMember
  have sameState := ParseStack.state_eq_of_states (Version.agrees_iff.1 agrees).2
  have sameTop := ParseStack.Spells.topSymbol?_eq acts.recognizes leftRegular.stack.path
    rightRegular.stack.path sameState
  by_cases leftUnknown : left.lookahead = none
  · by_cases rightUnknown : right.lookahead = none
    · rw [leftUnknown, rightUnknown]
    · obtain ⟨symbol, top, nonterminal⟩ := rightRegular.reduced rightUnknown
      have terminal := leftRegular.shifted leftUnknown symbol (sameTop.trans top)
      rw [terminal] at nonterminal
      cases nonterminal
  · by_cases rightUnknown : right.lookahead = none
    · obtain ⟨symbol, top, nonterminal⟩ := leftRegular.reduced leftUnknown
      have terminal := rightRegular.shifted rightUnknown symbol (sameTop.symm.trans top)
      rw [terminal] at nonterminal
      cases nonterminal
    · exact waiting leftMember rightMember leftUnknown rightUnknown

/-- Condensing keeps a version of the same shape for every version, with a dynamic precedence that
is no smaller. -/
theorem Searches.condense_covers (searches : Searches job raw)
    (acts : job.grammar.ActsOn plain items) (roomy : raw.promising.length ≤ maxVersions)
    (aligned : raw.Aligned) {version : Version} (member : version ∈ raw.versions) :
    ∃ kept ∈ raw.condense.versions, kept.SameShape version ∧
      version.stack.dynamicPrecedence ≤ kept.stack.dynamicPrecedence := by
  have noErrors := searches.noErrors acts
  obtain ⟨best, bestMember, agrees, better⟩ := merge_covers_precedence noErrors version member
  obtain ⟨kept, keptMember, alike⟩ : ∃ kept ∈ raw.condense.versions, kept.AlikeTo best := by
    rcases versions_condense noErrors roomy with same | ⟨only, merged, same⟩
    · exact ⟨best, same ▸ bestMember, .refl best⟩
    · rw [merged] at bestMember
      rw [List.mem_singleton.1 bestMember]
      exact ⟨{ only with path := [] }, same ▸ List.mem_singleton_self _, rfl⟩
  have original := merge_subset raw.versions bestMember
  have same : best.SameShape version := ⟨(Version.agrees_iff.1 agrees).1,
    searches.looksAlike acts best original version member agrees,
    aligned best original version member agrees⟩
  exact ⟨kept, keptMember, alike.sameShape.trans same, alike.dynamicPrecedence ▸ better⟩

/-- The search goes on when versions are condensed. -/
theorem Searches.condense (searches : Searches job raw) (acts : job.grammar.ActsOn plain items)
    (roomy : raw.promising.length ≤ maxVersions) (aligned : raw.Aligned) :
    Searches job raw.condense := by
  have reached : ∀ version ∈ raw.condense.versions, ∃ origin, Runs job .start origin ∧
      version.AlikeTo origin := by
    intro version member
    obtain ⟨kept, keptMember, alike⟩ := raw.mem_condense member
    obtain ⟨origin, runs, same⟩ := searches.reached kept keptMember
    exact ⟨origin, runs, Version.AlikeTo.trans alike same⟩
  constructor
  case fresh => exact raw.condense_reuse.trans searches.fresh
  case calm => exact raw.condense_lastRecovery.trans searches.calm
  case reached => exact reached
  case ordered =>
    rcases versions_condense (searches.noErrors acts) roomy with same | ⟨only, -, same⟩
    · rw [same]
      exact pairwise_merge (searches.looksAlike acts) searches.ordered
    · rw [same]
      exact List.pairwise_singleton _ _
  case accepted =>
    rw [condense_finished]
    exact searches.accepted
  case covered =>
    intro least promises
    rw [condense_finished]
    refine (searches.covered least promises).imp_right fun ⟨version, member, promises⟩ => ?_
    obtain ⟨kept, keptMember, same, better⟩ :=
      searches.condense_covers acts roomy aligned member
    obtain ⟨origin, runs, alike⟩ := reached kept keptMember
    exact ⟨kept, keptMember, promises.of_sameShape acts same
      (alike.regular (Version.regular_start.runs acts runs))
      (searches.regular acts version member) better⟩

/-- A search that has room for all versions and merges only those of one shape goes on through all
steps. -/
theorem Reaches.searches (acts : job.grammar.ActsOn plain items) {least : Int}
    (promised : Promises job .start least)
    (roomy : ∀ run raw, Reaches job (.start none) run →
      run.advanced? (m := Id) job = some raw → raw.promising.length ≤ maxVersions)
    (aligned : ∀ run raw, Reaches job (.start none) run →
      run.advanced? (m := Id) job = some raw → raw.Aligned)
    {last : ParseRun} (reaches : Reaches job (.start none) last) : Searches job last := by
  induction reaches with
  | refl => exact searches_start
  | @step before next reached stepped induction =>
      rw [step?_eq_map] at stepped
      obtain ⟨raw, advanced, rfl⟩ := Option.map_eq_some_iff.1 stepped
      exact (induction.advance acts promised advanced).condense acts
        (roomy before raw reached advanced) (aligned before raw reached advanced)

/-- If no version is left, the best of the accepted trees is the best of all that nondeterministic
runs accept. -/
theorem Searches.best (searches : Searches job run) (acts : job.grammar.ActsOn plain items)
    {least : Int} (promised : Promises job .start least) (complete : run.versions = []) :
    ∃ best, Rank.best? Finished.rank run.finished = some best ∧ Accepts job .start best.root ∧
      ∀ other, Accepts job .start other →
        other.dynamicPrecedence ≤ best.root.dynamicPrecedence := by
  have accepted : ∀ least, Promises job .start least →
      ∃ finished ∈ run.finished, least ≤ finished.root.dynamicPrecedence := by
    intro least promises
    refine (searches.covered least promises).resolve_right fun ⟨version, member, _⟩ => ?_
    rw [complete] at member
    cases member
  cases found : Rank.best? Finished.rank run.finished with
  | none =>
      obtain ⟨finished, member, -⟩ := accepted least promised
      cases known : run.finished with
      | nil =>
          rw [known] at member
          cases member
      | cons first rest =>
          rw [known] at found
          cases found
  | some best =>
      have noErrors : ∀ finished ∈ run.finished, finished.rank.errorCount = 0 :=
        fun finished member => (searches.accepted finished member).errorCount acts
      refine ⟨best, rfl, searches.accepted best (Rank.best?_mem found), fun other accepts => ?_⟩
      obtain ⟨finished, member, enough⟩ :=
        accepted other.dynamicPrecedence ⟨other, accepts, Int.le_refl _⟩
      exact Int.le_trans enough (Rank.precedence_best? found noErrors finished member)

end ParseRun

end IncrementalGlr
