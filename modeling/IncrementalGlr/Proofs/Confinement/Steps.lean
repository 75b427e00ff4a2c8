import IncrementalGlr.Proofs.Confinement.Lookups
import IncrementalGlr.Proofs.Derivation.Parse
import IncrementalGlr.Proofs.Derivation.Session

/-!
# What a step looks up

The lookups of a step are listed by what asks for them: finding the next token, acting on it, and
looking for a place to go on after an error.  The list is complete: a step depends on the tables
only through these lookups.
-/

namespace IncrementalGlr

/-! ## Stacks inside the tables

Whatever actions a loaded grammar has, shifts and reductions enter states of the grammar only, and a
node records the production of an action.  Recovery enters no state that is not on the stack.  So in
a parse without an earlier tree no stack has a state or a production that the grammar does not have. -/

section

variable {data : GrammarData} {grammar : Grammar}

/-- Whether a subtree records no production or one that the contents of a grammar have. -/
def Subtree.Confined (data : GrammarData) (subtree : Subtree) : Prop :=
  subtree.production ≠ .none → subtree.production.index < data.productions.length

theorem Subtree.confined_of_none {subtree : Subtree} (none : subtree.production = .none) :
    subtree.Confined data := fun some => absurd none some

namespace ParseStack

/-- Whether the contents of a grammar have all states on a stack and all productions that the
subtrees on it record. -/
structure Confined (data : GrammarData) (stack : ParseStack) : Prop where
  /-- The states, the start state below included. -/
  states : ∀ state ∈ stack.states, state.index < data.states.length
  /-- The subtrees. -/
  subtrees : ∀ subtree ∈ stack.subtrees, subtree.Confined data

variable {stack : ParseStack}

theorem state_mem_states (stack : ParseStack) : stack.state ∈ stack.states := by
  cases stack with
  | nil => exact List.mem_singleton_self _
  | cons entry below => exact List.mem_cons_self

theorem states_drop_subset (stack : ParseStack) (count : Nat) :
    ParseStack.states (stack.drop count) ⊆ stack.states := by
  refine List.append_subset.2 ⟨fun state member => ?_, List.subset_append_right _ _⟩
  rw [List.map_drop] at member
  exact List.mem_append_left _ (List.mem_of_mem_drop member)

theorem confined_nil (sound : data.Sound) : Confined data [] := by
  refine ⟨fun state member => ?_, fun _ never => absurd never List.not_mem_nil⟩
  obtain rfl := List.mem_singleton.1 member
  exact sound.stateCount.1

theorem Confined.state (confined : stack.Confined data) :
    stack.state.index < data.states.length :=
  confined.states _ stack.state_mem_states

theorem Confined.push (confined : stack.Confined data) {state : StateId} {subtree : Subtree}
    (known : state.index < data.states.length) (part : subtree.Confined data) :
    Confined data (⟨state, subtree⟩ :: stack) := by
  refine ⟨List.forall_mem_cons.2 ⟨known, confined.states⟩, ?_⟩
  rw [subtrees_cons]
  exact List.forall_mem_append.2 ⟨confined.subtrees, List.forall_mem_singleton.2 part⟩

theorem Confined.drop (confined : stack.Confined data) (count : Nat) :
    ParseStack.Confined data (stack.drop count) := by
  refine ⟨fun state member => confined.states state (stack.states_drop_subset count member), ?_⟩
  have parts := confined.subtrees
  rw [← stack.subtrees_take_drop count] at parts
  exact (List.forall_mem_append.1 parts).1

theorem Confined.pushAll (confined : stack.Confined data) {state : StateId}
    (known : state.index < data.states.length) {subtrees : List Subtree}
    (parts : ∀ subtree ∈ subtrees, subtree.Confined data) :
    ParseStack.Confined data (stack.pushAll state subtrees) := by
  induction subtrees generalizing stack with
  | nil => exact confined
  | cons subtree rest induction =>
      obtain ⟨first, others⟩ := List.forall_mem_cons.1 parts
      exact induction (confined.push known first) others

/-- Recovery keeps a stack inside the tables. -/
theorem confined_kept : KeptInRecovery grammar (Confined data) (Subtree.Confined data) where
  parts confined := confined.subtrees
  drop count confined := confined.drop count
  extra confined _ part := confined.push confined.state part
  leaf _ := Subtree.confined_of_none rfl
  errorNode _ := Subtree.confined_of_none rfl

end ParseStack

/-- Whether a version has a stack inside the tables and looks at tokens. -/
structure Version.Confined (data : GrammarData) (version : Version) : Prop where
  /-- The stack. -/
  stack : version.stack.Confined data
  /-- What comes next is a token if it is known. -/
  lookahead : ∀ lookahead ∈ version.lookahead, lookahead.IsToken

namespace ParseRun

variable {version : Version} {lookahead : Lookahead}

/-- A token is put on a stack with a state of the grammar. -/
theorem pushLeaf_confined (confined : version.stack.Confined data) (isToken : lookahead.IsToken)
    {next : StateId} (known : next.index < data.states.length) (extra : Bool) :
    Version.Confined data (pushLeaf (m := Id) grammar version lookahead next extra) := by
  obtain ⟨found, lexState, rfl⟩ := isToken
  exact ⟨confined.push known (Subtree.confined_of_none rfl), fun _ none => by cases none⟩

/-- A reduction by an action enters a state of the grammar and leaves a node of the grammar. -/
theorem reduce_confined (loaded : grammar.IsLoaded) (confined : version.Confined grammar.data)
    {symbol : Symbol} {production : ProductionId} {fragile : Bool} {reduced : Version}
    (action : .reduce production ∈ grammar.actions version.state symbol)
    (result : reduce (m := Id) grammar version production fragile = some reduced) :
    reduced.Confined grammar.data := by
  obtain ⟨children, trailing, below, next, found, goto⟩ := exists_of_reduce result
  obtain ⟨following, same⟩ := reduce_eq_some fragile found goto
  obtain rfl := Option.some.inj (result.symm.trans same)
  obtain ⟨stateData, stateFound, listed⟩ := loaded.goto_listed goto
  have known := loaded.sound.targets stateData (List.mem_of_getElem? stateFound) _ listed
  have parts := confined.stack.subtrees
  rw [← ParseStack.takeChildren_subtrees found] at parts
  obtain ⟨dropped, rfl⟩ := ParseStack.takeFrom_eq_drop found
  have made := (List.getElem?_eq_some_iff.1 (loaded.reduce_listed action)).1
  have node : (reducedNode grammar (ParseStack.state (version.stack.drop dropped)) production fragile
      following children).Confined grammar.data := fun _ => made
  have pushed := (confined.stack.drop dropped).push known node
  exact ⟨pushed.pushAll known (List.forall_mem_append.1 parts).2, confined.lookahead⟩

variable {job : ParseJob}

/-- All moves of a version that looks at tokens keep its stack inside the tables. -/
theorem move_confined (loaded : job.grammar.IsLoaded)
    (confined : version.stack.Confined job.grammar.data) (isToken : lookahead.IsToken)
    {moved : Version} (moves : version.Moves job lookahead moved) :
    moved.Confined job.grammar.data := by
  cases moves with
  | shift action =>
      obtain ⟨stateData, found, entry, entryMember, -, inside⟩ := loaded.actions_listed action
      have known := loaded.sound.shift stateData (List.mem_of_getElem? found) entry entryMember _ inside
      exact pushLeaf_confined confined isToken known false
  | reduce action result =>
      have looking : Version.Confined job.grammar.data { version with lookahead := some lookahead } :=
        ⟨confined, fun known same => Option.some.inj same ▸ isToken⟩
      exact reduce_confined loaded looking action result
  | extra noAction isExtra notEnd => exact pushLeaf_confined confined isToken confined.state true
  | adopt reused state goto => exact (isToken.ne_reused reused).elim
  | reject reused => exact (isToken.ne_reused reused).elim
  | resume noAction found at_ =>
      refine ⟨?_, fun known same => Option.some.inj same ▸ ⟨_, _, rfl⟩⟩
      exact @ParseStack.KeptInRecovery.resume _ _ _ ParseStack.confined_kept
        { version with lookahead := some lookahead } confined _ _ _
  | skip noAction first further =>
      refine ⟨?_, fun known none => by cases none⟩
      exact @ParseStack.KeptInRecovery.skipToken _ _ _ ParseStack.confined_kept
        { version with lookahead := some lookahead } confined _

/-- Without an earlier tree all moves keep all stacks inside the tables. -/
theorem confined_preserved (loaded : job.grammar.IsLoaded) :
    Preserved job (Version.Confined job.grammar.data) (fun _ => True) (fun _ => False) where
  alike confined alike := by
    rw [Version.AlikeTo] at alike
    rw [alike]
    exact ⟨confined.stack, confined.lookahead⟩
  start := ⟨ParseStack.confined_nil loaded.sound, fun _ none => by cases none⟩
  move {_ version _ lookahead} fresh confined looks moves := by
    have isToken := looksAt_isToken fresh confined.lookahead looks
    exact @move_confined { version with lookahead := none } lookahead job loaded confined.stack
      isToken _ moves
  finish _ _ _ _ := trivial
  later never _ := never

end ParseRun

end

/-! ## What a step looks up -/

open Grammar (Lookup Padding)

/-- What is looked up to act on what comes next on top of a stack. -/
inductive ParseStack.Consults (job : ParseJob) (stack : ParseStack) (position : Nat)
    (lookahead : Lookahead) : Lookup → Prop
  /-- The actions. -/
  | actions : Consults job stack position lookahead (.actions stack.state lookahead.symbol)
  /-- The production of a reduction. -/
  | production {production : ProductionId}
      (action : .reduce production ∈ job.grammar.actions stack.state lookahead.symbol) :
    Consults job stack position lookahead (.production production)
  /-- The goto below the children of a reduction. -/
  | goto {production : ProductionId}
      (action : .reduce production ∈ job.grammar.actions stack.state lookahead.symbol)
      {children trailing : List Subtree} {below : ParseStack}
      (taken : stack.takeChildren (job.grammar.production production).length.toNat =
        some (children, trailing, below)) :
    Consults job stack position lookahead
      (.goto below.state (job.grammar.production production).lhs)
  /-- The production that the node of the whole text records, when the text is accepted. -/
  | root (action : .accept ∈ job.grammar.actions stack.state lookahead.symbol) {root : Subtree}
      (member : root ∈ stack.subtrees) (recorded : root.production ≠ .none) :
    Consults job stack position lookahead (.production root.production)
  /-- The lexical state in which tokens are looked through after an error. -/
  | errorMode (noAction : job.grammar.actions stack.state lookahead.symbol = []) :
    Consults job stack position lookahead (.validSymbols .errorMode)
  /-- The actions on these tokens of the states on the stack. -/
  | resume (noAction : job.grammar.actions stack.state lookahead.symbol = []) {state : StateId}
      (onStack : state ∈ stack.states) {token : Token}
      (ahead : token ∈ Recovery.window job position) :
    Consults job stack position lookahead (.actions state token.symbol)

/-- What may be looked up in a step of a run. -/
inductive ParseRun.Consults (job : ParseJob) (run : ParseRun) : Lookup → Prop
  /-- The lexical state in which a version looks for a token. -/
  | lexState {version : Version} (member : version ∈ run.versions)
      (unknown : version.lookahead = none) : Consults job run (.lexState version.state)
  /-- The terminals that are valid in it. -/
  | validSymbols {version : Version} (member : version ∈ run.versions)
      (unknown : version.lookahead = none) :
    Consults job run (.validSymbols (job.grammar.lexState version.state))
  /-- A rule that matches somewhere in the text. -/
  | lexRule {offset : Nat} (inside : offset < job.text.size) {found : Nat × Nat}
      (matched : found ∈ (job.grammar.lexicon.scan job.text offset).matched) :
    Consults job run (.lexRule found.1)
  /-- What a version needs to act on what comes next. -/
  | act {version : Version} (member : version ∈ run.versions) {lookahead : Lookahead}
      (looks : version.LooksAt job run.reuse lookahead) {lookup : Lookup}
      (consults : version.stack.Consults job version.position lookahead lookup) :
    Consults job run lookup

/-- The job with something behind the ends of the tables of its grammar. -/
def ParseJob.padded (job : ParseJob) (padding : Padding) : ParseJob :=
  { job with lexer := job.lexer.padded padding }

variable {job : ParseJob}

/-- Whether all rules that match somewhere in a text are rules of the grammar. -/
def ParseJob.MatchesInside (job : ParseJob) : Prop :=
  ∀ offset, offset < job.text.size →
    ∀ found ∈ (job.grammar.lexicon.scan job.text offset).matched,
      (Lookup.lexRule found.1).Inside job.grammar

section InRange

variable (filled : job.grammar.IsFilled)

include filled

/-- On a stack inside the tables an action looks up only what the grammar has. -/
theorem ParseStack.Consults.inRange {stack : ParseStack} {position : Nat} {lookahead : Lookahead}
    {lookup : Lookup} (consults : stack.Consults job position lookahead lookup)
    (confined : stack.Confined job.grammar.data) : lookup.InRange job.grammar.data := by
  cases consults with
  | actions => exact confined.state
  | production action => exact (List.getElem?_eq_some_iff.1 (filled.reduce_listed action)).1
  | goto action taken =>
      obtain ⟨dropped, rfl⟩ := ParseStack.takeFrom_eq_drop taken
      exact (confined.drop dropped).state
  | root action member recorded => exact confined.subtrees _ member recorded
  | errorMode noAction => exact .inl rfl
  | resume noAction onStack ahead => exact confined.states _ onStack

/-- A run of versions inside the tables looks up only what the grammar has. -/
theorem ParseRun.Consults.inRange {run : ParseRun} {lookup : Lookup}
    (consults : run.Consults job lookup)
    (confined : ∀ version ∈ run.versions, version.stack.Confined job.grammar.data) :
    lookup.InRange job.grammar.data := by
  cases consults with
  | lexState member unknown => exact (confined _ member).state
  | validSymbols member unknown => exact .inr (filled.lexState_lt (confined _ member).state)
  | lexRule inside matched =>
      have bound := (Scan.run_matched inside.le matched).2.2
      rwa [filled.patterns] at bound
  | act member looks consults => exact consults.inRange filled (confined _ member)

end InRange

namespace Recovery

variable (padding : Padding)

/-- The tokens that are looked through depend on the tables through the rules that match only. -/
theorem window_padded (rules : job.MatchesInside) (position : Nat) :
    window (job.padded padding) position = window job position := by
  have tokens : ∀ limit offset count, tokensFrom (job.padded padding) limit offset count =
      tokensFrom job limit offset count := by
    intro limit offset count
    induction count generalizing offset with
    | zero => rfl
    | succ count induction =>
        have token : (job.lexer.padded padding).nextInState job.text offset .errorMode =
            job.lexer.nextInState job.text offset .errorMode :=
          Lexer.nextInState_padded padding (.inl rfl) (rules offset)
        simp only [tokensFrom, induction]
        rw [ParseJob.padded, token]
  exact tokens _ _ _

variable {grammar : Grammar} {states : List StateId}

theorem findState?_padded {token : Token} (inside : ∀ state ∈ states,
    (Lookup.actions state token.symbol).Inside grammar) (current : StateId) (skipped : Nat) :
    findState? (grammar.padded padding) current skipped token states =
      findState? grammar current skipped token states := by
  induction states with
  | nil => rfl
  | cons state rest induction =>
      obtain ⟨first, others⟩ := List.forall_mem_cons.1 inside
      have later := induction others
      unfold findState? at later ⊢
      rw [List.findIdx?_cons, List.findIdx?_cons, later, Grammar.actions_padded padding first]

theorem findFrom?_padded {tokens : List Token} (inside : ∀ token ∈ tokens, ∀ state ∈ states,
    (Lookup.actions state token.symbol).Inside grammar) (current : StateId) (forceSkip : Bool)
    (skipped : Nat) :
    findFrom? (grammar.padded padding) states current forceSkip skipped tokens =
      findFrom? grammar states current forceSkip skipped tokens := by
  induction tokens generalizing skipped with
  | nil => rfl
  | cons token rest induction =>
      obtain ⟨first, others⟩ := List.forall_mem_cons.1 inside
      simp only [findFrom?, findState?_padded padding first, induction others]
      rfl

end Recovery

namespace ParseRun

section Act

variable {m : Type → Type} [Monad m] [SubtreeMaker m] (padding : Padding) {version : Version}
  {lookahead : Lookahead} (inside : ∀ lookup,
    version.stack.Consults job version.position lookahead lookup → lookup.Inside job.grammar)

include inside

theorem reduce_padded {production : ProductionId}
    (action : .reduce production ∈ job.grammar.actions version.state lookahead.symbol)
    (fragile : Bool) :
    reduce (m := m) (job.grammar.padded padding) version production fragile =
      reduce job.grammar version production fragile := by
  have same := Grammar.production_padded padding (inside _ (.production action))
  unfold reduce
  dsimp only
  rw [same]
  split
  · rfl
  · next taken =>
      rw [Grammar.goto?_padded padding (inside _ (.goto action taken))]
      rfl

theorem foldRoot_padded
    (action : .accept ∈ job.grammar.actions version.state lookahead.symbol) :
    foldRoot (m := m) (job.grammar.padded padding) version.stack.subtrees =
      foldRoot job.grammar version.stack.subtrees := by
  unfold foldRoot
  split
  · next root only =>
      have member : root ∈ version.stack.subtrees :=
        (List.mem_filter.1 (only ▸ List.mem_singleton_self root)).1
      have precedence : ownPrecedence (job.grammar.padded padding) root.production =
          ownPrecedence job.grammar root.production := by
        unfold ownPrecedence
        split
        · rfl
        · next recorded =>
            rw [Grammar.production_padded padding (inside _ (.root action member recorded))]
      rw [precedence]
      rfl
  · rfl

theorem apply_padded {action : Action}
    (allowed : action ∈ job.grammar.actions version.state lookahead.symbol) (fragile : Bool)
    (run : ParseRun) :
    apply (m := m) (job.grammar.padded padding) version lookahead fragile run action =
      apply job.grammar version lookahead fragile run action := by
  cases action with
  | shift next => rfl
  | reduce production =>
      have same := @reduce_padded job m _ _ padding { version with lookahead := some lookahead }
        lookahead inside production allowed fragile
      simp only [apply, same]
  | accept => simp only [apply, foldRoot_padded padding inside allowed]

theorem applyAll_padded {actions : List Action}
    (allowed : ∀ action ∈ actions, action ∈ job.grammar.actions version.state lookahead.symbol)
    (fragile : Bool) (alternative : Nat) (run : ParseRun) :
    applyAll (m := m) (job.grammar.padded padding) version lookahead fragile alternative run
        actions =
      applyAll job.grammar version lookahead fragile alternative run actions := by
  induction actions generalizing alternative run with
  | nil => rfl
  | cons action rest induction =>
      obtain ⟨first, others⟩ := List.forall_mem_cons.1 allowed
      have applied := @apply_padded job m _ _ padding
        { version with path := version.path ++ [alternative] } lookahead inside action first
      simp only [applyAll, applied, induction others]

theorem recover_padded (rules : job.MatchesInside)
    (noAction : job.grammar.actions version.state lookahead.symbol = []) (run : ParseRun) :
    recover (m := m) (job.padded padding) { version with lookahead := some lookahead } run =
      recover job { version with lookahead := some lookahead } run := by
  have found : ∀ forceSkip, Recovery.find? (job.grammar.padded padding)
      { version with lookahead := some lookahead } forceSkip
        (Recovery.window job version.position) =
      Recovery.find? job.grammar { version with lookahead := some lookahead } forceSkip
        (Recovery.window job version.position) := fun forceSkip =>
    Recovery.findFrom?_padded padding
      (fun token ahead state onStack => inside _ (.resume noAction onStack ahead)) _ forceSkip 0
  have grammar : (job.padded padding).grammar = job.grammar.padded padding := rfl
  unfold recover
  dsimp only
  rw [Recovery.window_padded padding rules, grammar, found]
  rfl

theorem withoutAction_padded (rules : job.MatchesInside)
    (noAction : job.grammar.actions version.state lookahead.symbol = []) (index : Nat)
    (run : ParseRun) :
    run.withoutAction (m := m) (job.padded padding) index version lookahead =
      run.withoutAction job index version lookahead := by
  unfold withoutAction
  rw [recover_padded padding inside rules noAction]
  rfl

theorem act_padded (rules : job.MatchesInside) (index : Nat) (run : ParseRun) :
    run.act (m := m) (job.padded padding) index version lookahead =
      run.act job index version lookahead := by
  have same : (job.padded padding).grammar.actions version.state lookahead.symbol =
      job.grammar.actions version.state lookahead.symbol :=
    Grammar.actions_padded padding (inside _ .actions)
  have grammar : (job.padded padding).grammar = job.grammar.padded padding := rfl
  unfold act
  dsimp only
  rw [same, grammar]
  split
  · next noAction => exact withoutAction_padded padding inside rules noAction index run
  · next action only =>
      rw [apply_padded padding inside (only ▸ List.mem_singleton_self action)]
  · rw [applyAll_padded padding inside fun action allowed => allowed]

end Act

section Step

variable {m : Type → Type} [Monad m] [SubtreeMaker m] (padding : Padding) {run : ParseRun}
  (fresh : run.reuse = none) (inside : ∀ lookup, run.Consults job lookup → lookup.Inside job.grammar)

include fresh inside

/-- What comes next is the same if it is looked up inside the tables. -/
theorem nextLookahead_padded {version : Version} (member : version ∈ run.versions)
    (unknown : version.lookahead = none) {rest : ParseRun} (same : rest.reuse = run.reuse) :
    rest.nextLookahead (job.padded padding) version = rest.nextLookahead job version := by
  have mode : (job.padded padding).grammar.lexState version.state =
      job.grammar.lexState version.state :=
    Grammar.lexState_padded padding (inside _ (.lexState member unknown))
  have token : (job.lexer.padded padding).nextInState job.text version.position
      (job.grammar.lexState version.state) =
        job.lexer.nextInState job.text version.position (job.grammar.lexState version.state) :=
    Lexer.nextInState_padded padding (inside _ (.validSymbols member unknown))
      fun before found matched => inside _ (.lexRule before matched)
  have restFresh := same.trans fresh
  rw [nextLookahead_of_fresh restFresh, nextLookahead_of_fresh restFresh, mode]
  exact congrArg (fun token => (_, Lookahead.token token _)) token

variable (tokens : ∀ version ∈ run.versions, ∀ lookahead ∈ version.lookahead, lookahead.IsToken)

include tokens

theorem advance_padded {version : Version} (member : version ∈ run.versions) {rest : ParseRun}
    (same : rest.reuse = run.reuse) (index : Nat) :
    rest.advance (m := m) (job.padded padding) index version = rest.advance job index version := by
  have rules : job.MatchesInside := fun offset before found matched =>
    inside _ (.lexRule before matched)
  cases pending : version.lookahead with
  | some lookahead =>
      obtain ⟨token, mode, rfl⟩ := tokens version member lookahead pending
      rw [advance_of_pending pending, advance_of_pending pending]
      exact @act_padded job m _ _ padding { version with lookahead := none } _
        (fun _ consults => inside _ (.act member (.pending pending) consults)) rules index rest
  | none =>
      rw [advance_of_unknown pending, advance_of_unknown pending,
        nextLookahead_padded padding fresh inside member pending same,
        nextLookahead_of_fresh (same.trans fresh)]
      exact @act_padded job m _ _ padding { version with lookahead := none } _
        (fun _ consults => inside _ (.act member (.token pending) consults)) rules index _

/-- A step without an earlier tree depends on the tables of the grammar only through what it looks
up.  If that lies inside them, the step is the same whatever stands behind their ends. -/
theorem step?_padded : run.step? (m := m) (job.padded padding) = run.step? job := by
  have advanced : run.advanced? (m := m) (job.padded padding) = run.advanced? job := by
    refine Option.bind_congr fun index _ => Option.bind_congr fun version found => congrArg some ?_
    have taken : ({ run with versions := run.versions.eraseIdx index } : ParseRun).reuse =
        run.reuse := rfl
    exact advance_padded (m := m) padding fresh inside tokens (List.mem_of_getElem? found) taken index
  rw [step?_eq_map, step?_eq_map, advanced]

end Step

end ParseRun

/-!
## Parses stay inside the tables

A grammar is checked once, when it is loaded.  That is enough for every parse without an earlier
tree: no step looks up anything outside the tables, whatever the tables call for.
-/

open Erasable

variable {data : GrammarData}

theorem Lookahead.IsToken.of_erase {lookahead : Lookahead} (isToken : (erase lookahead).IsToken) :
    lookahead.IsToken := by
  cases lookahead with
  | token found lexState => exact ⟨found, lexState, rfl⟩
  | reused subtree => exact (isToken.ne_reused rfl).elim

/-- Ids do not matter for whether a stack is inside the tables. -/
theorem ParseStack.Confined.of_erase {stack : ParseStack}
    (confined : ParseStack.Confined data (erase stack)) : stack.Confined data := by
  have parts := confined.subtrees
  rw [subtrees_erase] at parts
  refine ⟨stack.states_erase ▸ confined.states, fun subtree member => ?_⟩
  have erased := parts subtree.erase (List.mem_map_of_mem member)
  rwa [Subtree.Confined, Subtree.erase_production] at erased

theorem Version.Confined.of_erase {version : Version}
    (confined : Version.Confined data (erase version)) : version.Confined data :=
  ⟨confined.stack.of_erase, fun lookahead known =>
    .of_erase (confined.lookahead (erase lookahead) (Option.mem_map_of_mem erase known))⟩

namespace ParseRun

variable {job : ParseJob} {memory : Memory} {store after : Store} {last : ParseRun}

/-- A parse without an earlier tree keeps all stacks inside the tables. -/
theorem Visits.confined (loaded : job.grammar.IsLoaded) (valid : store.Valid memory)
    (visits : Visits job (.start none) store last after) :
    last.reuse = none ∧ ∀ version ∈ last.versions, version.Confined job.grammar.data := by
  obtain ⟨reached, -⟩ := visits.reaches valid start_known
  have keeps := (confined_preserved loaded).fresh reached
  refine ⟨?_, fun version member => ?_⟩
  · cases reusing : last.reuse with
    | none => rfl
    | some cursor =>
        have offered : erase cursor ∈ (erase last).reuse := by
          rw [erase_reuse, reusing]
          rfl
        exact (keeps.reuse _ offered).elim
  · exact .of_erase (keeps.versions (erase version) (List.mem_map_of_mem member))

/-- Everything that a parse without an earlier tree looks up belongs to the grammar. -/
theorem Visits.consults_inRange (filled : job.grammar.IsFilled) (valid : store.Valid memory)
    (visits : Visits job (.start none) store last after) {lookup : Lookup}
    (consults : last.Consults job lookup) : lookup.InRange job.grammar.data := by
  obtain ⟨-, confined⟩ := visits.confined filled.toIsLoaded valid
  exact consults.inRange filled fun version member => (confined version member).stack

/-- A parse without an earlier tree makes the same steps whatever stands behind the ends of the
tables. -/
theorem Visits.padded (filled : job.grammar.IsFilled) (valid : store.Valid memory)
    (padding : Padding) (visits : Visits job (.start none) store last after) :
    Visits (job.padded padding) (.start none) store last after := by
  induction visits with
  | refl => exact .refl
  | step visited stepped induction =>
      obtain ⟨fresh, confined⟩ := visited.confined filled.toIsLoaded valid
      refine .step induction ?_
      rw [← stepped]
      exact step?_padded padding fresh
        (fun lookup consults => filled.inside (visited.consults_inRange filled valid consults))
        fun version member => (confined version member).lookahead

end ParseRun

/-- A grammar that has passed its check cannot lead a parse without an earlier tree out of its
tables, whatever its actions and gotos are and however the parse recovers from errors.  The cells
of the table fit the words that hold them.  In every run that the parse visits all states on all
stacks are states of the grammar, everything that a step may look up belongs to the grammar and is
read inside the tables, and the run would be visited just as well if something else stood behind
the ends of the tables. -/
theorem Session.fresh_parse_confined {grammar : Grammar} (made : Grammar.ofData data = .ok grammar)
    (fits : data.FitsWords) {external : Option ExternalScanner} {parser : Parser}
    {trees : List SyntaxTree} (session : Session grammar external parser trees) (text : Text) :
    let job : ParseJob := ⟨⟨grammar, external⟩, text⟩
    grammar.actionTable.FitsWords ∧
      ∀ run store, ParseRun.Visits job (.start none) parser.store.trim run store →
        (∀ version ∈ run.versions, ∀ state ∈ version.stack.states,
          state.index < data.states.length) ∧
        (∀ lookup, run.Consults job lookup → lookup.InRange data ∧ lookup.Inside grammar) ∧
        ∀ padding, ParseRun.Visits (job.padded padding) (.start none) parser.store.trim run store := by
  intro job
  obtain ⟨rfl, tables⟩ := Grammar.isFilled_of_ofData made
  have filled : job.grammar.IsFilled := tables
  obtain ⟨-, -, memory, valid, -⟩ := session.valid
  have trimmed := valid.trim
  refine ⟨?_, fun run store visits => ⟨fun version member => ?_, fun lookup consults => ?_,
    fun padding => visits.padded filled trimmed padding⟩⟩
  · rw [tables.actionTable]
    exact ActionTable.fitsWords_ofStates fits _
  · exact ((visits.confined filled.toIsLoaded trimmed).2 version member).stack.states
  · have inRange := visits.consults_inRange filled trimmed consults
    exact ⟨inRange, filled.inside inRange⟩

/-- Contents that no grammar is compiled to: the end of the input is shifted, one production is
longer than any stack, and there is no goto in the state in which a text begins. -/
def GrammarData.wayward : GrammarData where
  name := "wayward"
  symbols := [⟨"end", .endOfInput, false, true, false⟩, ⟨"x", .terminal, true, false, true⟩,
    ⟨"s", .nonterminal, true, true, false⟩]
  terminalCount := 2
  startSymbol := ⟨2⟩
  lexRules := [⟨⟨1⟩, .literal "x", 0⟩]
  productions := [⟨⟨2⟩, 0, 0⟩, ⟨⟨2⟩, 65535, 0⟩]
  lexStates := [[⟨0⟩, ⟨1⟩]]
  states := [⟨⟨0⟩, [(⟨0⟩, [.shift ⟨1⟩]), (⟨1⟩, [.reduce ⟨0⟩, .accept, .shift ⟨1⟩])], []⟩,
    ⟨⟨0⟩, [(⟨0⟩, [.reduce ⟨1⟩])], [(⟨2⟩, ⟨0⟩)]⟩]

/-- A parse with a table that no grammar is compiled to. -/
theorem fresh_parse_confined_wayward :
    ∃ grammar, Grammar.ofData .wayward = .ok grammar ∧ GrammarData.wayward.FitsWords ∧
      ∀ run store, ParseRun.Visits ⟨⟨grammar, none⟩, .ofString "x?x"⟩ (.start none)
          (Parser.ofGrammar grammar none .standard 0).store.trim run store →
        ∀ version ∈ run.versions, ∀ state ∈ version.stack.states, state.index < 2 := by
  have loads : (Grammar.ofData .wayward).isOk = true := by decide +kernel
  have fits : GrammarData.wayward.FitsWords := ⟨by decide, by decide⟩
  obtain ⟨grammar, made⟩ := Except.exists_of_isOk loads
  have session := @Session.new grammar none .standard 0
  obtain ⟨-, runs⟩ := Session.fresh_parse_confined made fits session (.ofString "x?x")
  exact ⟨grammar, made, fits, fun run store visits => (runs run store visits).1⟩

end IncrementalGlr
