import IncrementalGlr.Proofs.Made
import IncrementalGlr.Proofs.Reparsing.Laid
import IncrementalGlr.Proofs.Reuse.Frames

/-!
# Runs over a text

All versions of a run without an earlier tree lay sound subtrees over the text, so its tree is
sound.  A run that takes over parts of an earlier tree has a single version without errors.  If it
comes to its end without starting again, what it accepts is grown over the text and so would be
accepted without the earlier tree as well.
-/

namespace IncrementalGlr

open Lalr (Item)
open Version (Accepts)

/-! ## Runs without an earlier tree -/

/-- Whether a tree was built over a text, with sound parts from its start on. -/
structure Subtree.SoundTree (lexer : Lexer) (plain : PlainGrammar) (text : Text)
    (root : Subtree) : Prop where
  /-- It was built. -/
  built : root.Built
  /-- The parts are sound. -/
  parts : AllSound lexer plain text 0 root.children

section

variable {job : ParseJob} {plain : PlainGrammar} {items : StateId → Item → Prop}
  (steady : job.Steady) (acts : job.grammar.ActsOn plain items)
  (terminals : ∀ symbol, plain.isTerminal symbol = job.lexer.grammar.data.isTerminal symbol)

theorem Version.Laid.forget {version : Version} (laid : version.Laid job plain items) :
    Version.Laid job plain items { version with lookahead := none } :=
  ⟨laid.path, laid.stands, laid.boundary, nofun⟩

include steady

/-- The token that a version finds lies at its position. -/
theorem Version.Laid.token_lies {version : Version} (laid : version.Laid job plain items) :
    Lookahead.Lies job plain version.position
      (.token (job.lexer.nextInState job.text version.position (job.grammar.lexState version.state))
        (job.grammar.lexState version.state)) :=
  steady.uniform.nextInState_eq steady.filled laid.boundary version.state

include acts terminals

/-- Without an earlier tree all moves lay sound subtrees over the text. -/
theorem ParseRun.laid_preserved : Preserved job
    (fun version => version.Laid job plain items ∧
      ∀ lookahead ∈ version.lookahead, lookahead.IsToken)
    (fun root => Subtree.AllSound job.lexer plain job.text 0 root.children)
    (fun _ => False) where
  alike holds alike := by
    rw [Version.AlikeTo] at alike
    rw [alike]
    exact ⟨⟨holds.1.path, holds.1.stands, holds.1.boundary, holds.1.lookahead⟩, holds.2⟩
  start := ⟨.start steady.wellFormed, fun _ none => by cases none⟩
  later never _ := never
  move {_ version moved lookahead} fresh holds looks moves := by
    obtain ⟨laid, known⟩ := holds
    have isToken := looksAt_isToken fresh known looks
    have token : ∀ node, lookahead = .reused node → node.isLeaf = true :=
      fun node same => absurd same isToken.ne_reused
    have lies : lookahead.Lies job plain version.position := by
      cases looks with
      | pending found => exact laid.lookahead _ found
      | token unknown => exact laid.token_lies steady
      | part unknown reusing => exact (fresh _ reusing).elim
    have forgotten := laid.forget
    have looking := forgotten.look lies
    cases moves with
    | shift action =>
        exact ⟨(forgotten.shift steady acts terminals lies token action).2,
          fun _ none => by cases none⟩
    | @reduce production fragile _ action result =>
        obtain ⟨reduced, found, reducedLaid, -⟩ := forgotten.reduce steady acts lies action fragile
        obtain rfl := Option.some.inj (found.symm.trans result)
        obtain ⟨stack, rfl⟩ := eq_of_reduce result
        exact ⟨reducedLaid, fun other same => Option.some.inj same ▸ isToken⟩
    | extra noAction isExtra notEnd =>
        exact ⟨(forgotten.extra steady acts terminals lies token isExtra notEnd).2,
          fun _ none => by cases none⟩
    | adopt reused => exact absurd reused isToken.ne_reused
    | reject reused => exact absurd reused isToken.ne_reused
    | resume noAction found at_ =>
        exact ⟨looking.resume steady terminals at_,
          fun other same => Option.some.inj same ▸ ⟨_, _, rfl⟩⟩
    | skip noAction first further =>
        exact ⟨looking.skip steady terminals first further, fun _ none => by cases none⟩
  finish {_ version lookahead root} _ holds _ ends := by
    cases ends with
    | accept action => exact holds.1.stands.parts.foldRoot job.grammar
    | giveUp noAction ended =>
        exact @Recovery.giveUp_sound job plain steady terminals
          { version with lookahead := some lookahead } holds.1.stands holds.1.boundary

/-- The tree of a parse without an earlier tree is sound. -/
theorem Parser.runJob_sound (options : ParseOptions) : Subtree.SoundTree job.lexer plain job.text
    (runJob (m := Id) job options none).1 := by
  refine ⟨runJob_built job options, ?_⟩
  have preserved := ParseRun.laid_preserved steady acts terminals
  have keeps := @ParseRun.Preserved.runFor _ _ _ _ preserved none nofun options.deadline 0
    (options.maxOperations.getD maxOperations)
  change Subtree.AllSound _ _ _ _ (Subtree.children (ParseRun.result (m := Id) job _))
  generalize (ParseRun.runFor (m := Id) job options.deadline 0
    (options.maxOperations.getD maxOperations) (.start none)).1 = run at keeps ⊢
  unfold ParseRun.result
  split
  · next best found => exact keeps.finished best (Rank.best?_mem found)
  · have best : Version.Laid job plain items
        ((Rank.best? Version.rank run.versions).getD .start) := by
      cases found : Rank.best? Version.rank run.versions with
      | none => exact .start steady.wellFormed
      | some version => exact (keeps.versions version (Rank.best?_mem found)).1
    generalize (Rank.best? Version.rank run.versions).getD .start = version at best
    have sound := best.stands.parts
    dsimp only
    split
    · exact Subtree.allSound_append.2 ⟨sound, nofun⟩
    · refine Subtree.allSound_append.2 ⟨sound, Subtree.allSound_singleton.2 ?_⟩
      exact .mk (.token _ _) (fun clean => by cases clean) nofun

end

/-! ## Runs that take over parts of an earlier tree -/

/-- Whoever accepts has the start symbol on the stack and nothing else but extras. -/
theorem ParseStack.Spells.accepted {grammar : Grammar} {plain : PlainGrammar}
    {items : StateId → Item → Prop} (recognizes : Recognizes grammar plain items)
    (begins : ∀ {state : StateId}, items state ⟨plain.productions.length, 0⟩ → state = .start)
    {stack : ParseStack} (path : stack.Spells plain items) {symbol : Symbol}
    (action : .accept ∈ grammar.actions stack.state symbol) :
    Subtree.plainSymbols stack.subtrees = [plain.start] := by
  obtain ⟨below, under, origin, symbols⟩ := path.accepting recognizes action
  have none : Subtree.plainSymbols below.subtrees = [] := by
    obtain ⟨top, -⟩ | ⟨before, symbol, -, enters⟩ := under.top
    · refine Subtree.plainSymbols_extras fun subtree member => ?_
      obtain ⟨entry, listed, rfl⟩ := List.mem_map.1 (List.mem_reverse.1 member)
      rw [topSymbol?, Option.map_eq_none_iff, List.find?_eq_none] at top
      simpa using top entry listed
    · obtain ⟨production, dot, advanced⟩ := enters.advanced
      rw [begins origin] at advanced
      exact absurd (recognizes.start advanced) (Nat.succ_ne_zero dot)
  rw [symbols, none, List.nil_append]

/-- Whether the tokens of the text of a parse do not depend on the state of the parser, and the
table of its grammar has one action at most and leads along all derivation trees. -/
structure ParseJob.Settled (job : ParseJob) (plain : PlainGrammar) (items : StateId → Item → Prop)
    (expects : StateId → Item → Symbol → Prop) : Prop extends job.Steady where
  /-- The actions are those that the items call for. -/
  acts : job.grammar.ActsOn plain items
  /-- The whole text is expected at the start only. -/
  begins {state : StateId} : items state ⟨plain.productions.length, 0⟩ → state = .start
  /-- There is one action at most. -/
  decisive : job.grammar.Decisive
  /-- The table leads along all derivation trees. -/
  predicts : job.grammar.Predicts plain expects
  /-- The productions have ids. -/
  numbered : plain.Numbered
  /-- The terminals of the grammar. -/
  terminals (symbol : Symbol) :
    plain.isTerminal symbol = job.lexer.grammar.data.isTerminal symbol

/-- Whether a tree without errors is accepted, up to ids and states, without an earlier tree. -/
structure Subtree.Regrown (job : ParseJob) (root : Subtree) : Prop where
  /-- There are no errors. -/
  clean : root.errorCount = 0
  /-- It is accepted. -/
  accepted : ∃ other, Accepts job .start other ∧ root.alike other = true

/-- The versions and accepted trees of a run that takes over parts of an earlier tree: one version
without errors on its stack, or what it has accepted. -/
inductive ParseRun.Stage (job : ParseJob) (plain : PlainGrammar) (items : StateId → Item → Prop) :
    List Version → List Subtree → Prop
  /-- It is under way. -/
  | moving {version : Version} (laid : version.Laid job plain items)
      (faultless : version.stack.Faultless) : Stage job plain items [version] []
  /-- It has ended. -/
  | ended {root : Subtree} (sound : root.SoundTree job.lexer plain job.text)
      (regrown : root.Regrown job) : Stage job plain items [] [root]

section

variable {job : ParseJob} {plain : PlainGrammar} {items : StateId → Item → Prop}
  {expects : StateId → Item → Symbol → Prop} (settled : job.Settled plain items expects)
  {version : Version} {lookahead : Lookahead}

include settled

namespace Version.Laid

variable (laid : version.Laid job plain items) (faultless : version.stack.Faultless)
  (lies : lookahead.Lies job plain version.position)

include laid faultless lies

/-- What is accepted is accepted without an earlier tree as well. -/
theorem accept (action : .accept ∈ job.grammar.actions version.state lookahead.symbol) :
    Subtree.Regrown job (ParseRun.foldRoot (m := Id) job.grammar version.stack.subtrees) := by
  have symbols := laid.path.accepted settled.acts.recognizes settled.begins action
  have ended := (settled.acts.recognizes.accept action).1
  have grown : ∀ part ∈ Subtree.placed 0 version.stack.subtrees,
      part.subtree.Grown job.lexer plain job.text part.start := fun part member => by
    obtain ⟨index, found, -⟩ := Subtree.mem_placed.1 member
    exact (laid.stands.parts part member).own (faultless _ (List.mem_of_getElem? found))
  have last : (job.lexer.plainToken job.text
      (Subtree.totalLength version.stack.subtrees)).symbol = .endOfInput := by
    rw [laid.stands.total]
    cases lookahead with
    | token found lexState =>
        obtain rfl : found = _ := lies
        exact ended
    | reused node =>
        -- the first token of what is grown is not the end of the input
        obtain ⟨grown, -, some_⟩ := lies
        obtain ⟨leaf, first⟩ := Option.isSome_iff_exists.1 some_
        rw [grown.symbol_eq first] at ended
        exact absurd ended (grown.opens.decides leaf first).1
  refine ⟨?_, ?_⟩
  · refine ParseRun.foldRoot_errorCount settled.acts.startError faultless
      fun subtree member plain node => ⟨?_, ?_⟩
    · have listed : subtree.symbol ∈ Subtree.plainSymbols version.stack.subtrees :=
        List.mem_map_of_mem (List.mem_filter.2 ⟨member, by rw [plain]; rfl⟩)
      rw [symbols, ← settled.acts.start, List.mem_singleton] at listed
      exact listed ▸ settled.acts.startError
    · have own := faultless subtree member
      cases laid.stands.parts.built subtree member with
      | token => cases node
      | node id spec => exact Nat.eq_zero_of_le_zero ((Nat.le_add_left _ _).trans own.le)
  · exact Version.exists_accepts settled.toSteady settled.acts settled.predicts settled.numbered
      grown symbols last

/-- Whatever a version does that is alone it stays alone or is accepted. -/
theorem turns (unknown : version.lookahead = none) {versions : List Version}
    {roots : List Subtree}
    (turns : version.Turns job lookahead versions roots) :
    ParseRun.Stage job plain items versions roots := by
  have steady := settled.toSteady
  cases turns with
  | shift token action =>
      obtain ⟨clean, next⟩ := laid.shift steady settled.acts settled.terminals lies token action
      exact .moving next (faultless.push _ clean)
  | @reduce production fragile action =>
      obtain ⟨reduced, result, next, kept⟩ := laid.reduce steady settled.acts lies action fragile
      rw [result]
      exact .moving next (kept faultless)
  | extra token isExtra notEnd =>
      obtain ⟨clean, next⟩ :=
        laid.extra steady settled.acts settled.terminals lies token isExtra notEnd
      exact .moving next (faultless.push _ clean)
  | adopt reused isNode goto =>
      obtain ⟨clean, next⟩ :=
        laid.adopt steady lies settled.acts.toWorksOn unknown reused isNode goto
      exact .moving next (faultless.push _ clean)
  | reject reused => exact .moving laid faultless
  | accept action =>
      refine .ended ⟨?_, laid.stands.parts.foldRoot job.grammar⟩
        (laid.accept settled faultless lies action)
      exact ParseRun.foldRoot_holds Subtree.passes_built job.grammar laid.stands.parts.built

end Version.Laid

end

namespace ParseRun

variable {job : ParseJob} {plain : PlainGrammar} {items : StateId → Item → Prop}
  {expects : StateId → Item → Symbol → Prop} {run next : ParseRun}

/-- Whether a run that takes over parts of an earlier tree has not started again, and all its parts
fit the text. -/
structure Warm (job : ParseJob) (plain : PlainGrammar) (items : StateId → Item → Prop)
    (run : ParseRun) : Prop where
  /-- There is an earlier tree. -/
  reusing : run.reuse.isSome = true
  /-- What is left of it is offered. -/
  offers : ∀ cursor ∈ run.reuse, ∀ node ∈ cursor.pending,
    node.subtree.Offered job.lexer plain job.text node.start
  /-- There is one version without errors, or what it has accepted. -/
  stage : Stage job plain items run.versions (run.finished.map Finished.root)

/-- The parts of what is offered are offered. -/
theorem inherited_offered (lexer : Lexer) (plain : PlainGrammar) (text : Text) :
    ReuseCursor.Inherited fun node => node.subtree.Offered lexer plain text node.start :=
  fun _ offered => offered.under

variable (settled : job.Settled plain items expects)

include settled

/-- What comes next lies at the position of a version. -/
theorem Warm.lies (warm : run.Warm job plain items) {version : Version} {lookahead : Lookahead}
    (laid : version.Laid job plain items) (looks : version.LooksAt job run.reuse lookahead) :
    lookahead.Lies job plain version.position := by
  cases looks with
  | pending found => exact laid.lookahead _ found
  | token unknown => exact laid.token_lies settled.toSteady
  | @part unknown cursor subtree accepts reusing found usable =>
      obtain ⟨rest, first⟩ := ReuseCursor.candidate?_eq_some_iff.1 found
      have offered := (inherited_offered job.lexer plain job.text).later
        (warm.offers cursor reusing) (.seek accepts version.position .refl) _
        (first ▸ List.mem_cons_self)
      simp only [Subtree.isReusable, Subtree.hasError, Bool.and_eq_true, Bool.not_eq_true',
        decide_eq_false_iff_not, Nat.not_lt, Nat.le_zero] at usable
      obtain ⟨⟨⟨⟨unchanged, clean⟩, -⟩, -⟩, some_⟩ := usable
      exact ⟨offered.grown unchanged clean, clean, some_⟩

omit settled in
/-- What is alone stays when versions are merged. -/
theorem Stage.condense
    (stage : Stage job plain items run.versions (run.finished.map Finished.root)) :
    Stage job plain items run.condense.versions (run.condense.finished.map Finished.root) := by
  rw [condense_finished]
  generalize versionsEq : run.versions = versions at stage
  generalize rootsEq : run.finished.map Finished.root = roots at stage ⊢
  cases stage with
  | moving laid faultless =>
      rw [condense_single versionsEq (List.map_eq_nil_iff.1 rootsEq)]
      exact .moving ⟨laid.path, laid.stands, laid.boundary, laid.lookahead⟩ faultless
  | ended sound regrown =>
      have fewer := (@map_condense_subperm run Unit (fun _ => ()) fun _ _ => rfl).length_le
      rw [versionsEq, List.map_nil, List.length_nil, List.length_map, Nat.le_zero,
        List.length_eq_zero_iff] at fewer
      rw [fewer]
      exact .ended sound regrown

/-- What a step makes of the only version. -/
theorem Warm.advanced (warm : run.Warm job plain items) {raw : ParseRun}
    (advanced : run.advanced? (m := Id) job = some raw)
    (kept : raw.reuse.isSome = run.reuse.isSome) :
    Stage job plain items raw.versions (raw.finished.map Finished.root) := by
  have stage := warm.stage
  generalize versionsEq : run.versions = versions at stage
  generalize rootsEq : run.finished.map Finished.root = roots at stage
  cases stage with
  | @moving version laid faultless =>
      have none := List.map_eq_nil_iff.1 rootsEq
      obtain ⟨lookahead, looks, solo⟩ := advanced?_solo settled.decisive versionsEq none advanced
      have lies := warm.lies settled laid looks
      cases solo with
      | turns turns => exact laid.forget.turns settled faultless lies rfl turns
      | restart restart =>
          rw [restart.start.reuse, warm.reusing] at kept
          cases kept
      | recover fresh few =>
          have reusing := warm.reusing
          rw [fresh] at reusing
          cases reusing
  | ended =>
      rw [advanced?_eq_none versionsEq] at advanced
      cases advanced

/-- A step of a run that takes over parts of an earlier tree leads to another such run, or it starts
again. -/
theorem Warm.step (warm : run.Warm job plain items)
    (stepped : run.step? (m := Id) job = some next) :
    next.Warm job plain items ∨ next.IsRestart := by
  rcases step?_continues stepped with continues | restart
  · have cursors := (step?_comesFrom stepped).reuse
    refine .inl ⟨continues.reuse.trans warm.reusing, fun cursor member => ?_, ?_⟩
    · obtain ⟨origin, originMember, later⟩ := cursors cursor member
      exact (inherited_offered job.lexer plain job.text).later (warm.offers origin originMember)
        later
    · rw [step?_eq_map, Option.map_eq_some_iff] at stepped
      obtain ⟨raw, advanced, rfl⟩ := stepped
      have kept : (condense raw).reuse.isSome = run.reuse.isSome := continues.reuse
      rw [condense_reuse] at kept
      exact (warm.advanced settled advanced kept).condense
  · exact .inr restart

/-- A run that takes over parts of an earlier tree does so to its end, or it starts again. -/
theorem Warm.reaches (warm : run.Warm job plain items) {last : ParseRun}
    (reaches : Reaches job run last) :
    last.Warm job plain items ∨ last.stats.full = true := by
  induction reaches with
  | refl => exact .inl warm
  | step before stepped induction =>
      rcases induction with still | full
      · exact (still.step settled stepped).imp_right IsRestart.full
      · rcases step?_continues stepped with continues | restart
        · exact .inr (continues.full.trans full)
        · exact .inr restart.full

end ParseRun

namespace Parser

variable {job : ParseJob} {plain : PlainGrammar} {items : StateId → Item → Prop}
  {expects : StateId → Item → Symbol → Prop} (settled : job.Settled plain items expects)

include settled

/-- A parse that takes over parts of an earlier tree and comes to its end makes a sound tree that is
accepted without an earlier tree as well, or it has started again. -/
theorem runJob_regrown {root : Subtree} (offered : root.Offered job.lexer plain job.text 0)
    {options : ParseOptions}
    (complete : (runJob (m := Id) job options (some (.ofRoot root))).2.1 = .complete) :
    let image := runJob (m := Id) job options (some (.ofRoot root))
    (image.1.SoundTree job.lexer plain job.text ∧ image.1.Regrown job) ∨
      image.2.2.full = true := by
  have start : (ParseRun.start (some (.ofRoot root))).Warm job plain items := by
    refine ⟨rfl, ?_, .moving (.start settled.wellFormed) nofun⟩
    rintro _ ⟨⟩ node member
    rw [List.mem_singleton.1 member]
    exact offered
  obtain ⟨reaches, ends⟩ := @ParseRun.runFor_reaches job options.deadline 0
    (options.maxOperations.getD maxOperations) (.start (some (.ofRoot root)))
  refine (start.reaches settled reaches).imp_left fun warm => ?_
  have stage := warm.stage
  have none := (ParseRun.step?_eq_none _).1 (ends complete)
  change Subtree.SoundTree _ _ _ (ParseRun.result (m := Id) job _) ∧
    Subtree.Regrown job (ParseRun.result (m := Id) job _)
  generalize (ParseRun.runFor (m := Id) job options.deadline 0
    (options.maxOperations.getD maxOperations) (.start (some (.ofRoot root)))).1 = last
    at stage none ⊢
  rw [none] at stage
  generalize rootsEq : last.finished.map Finished.root = roots at stage
  cases stage with
  | ended sound regrown =>
      obtain ⟨finished, only, rfl⟩ := List.map_eq_singleton_iff.1 rootsEq
      have result : ParseRun.result (m := Id) job last = finished.root := by
        rw [ParseRun.result, only]
        rfl
      rw [result]
      exact ⟨sound, regrown⟩

end Parser

end IncrementalGlr
