import IncrementalGlr.Parse.Parser
import IncrementalGlr.Proofs.Derivation.Recovery

/-!
# Parses make derivations

In a run without an earlier tree every version looks at tokens only.  Shifts and reductions lead
along the path of states, and recovery keeps to it, so every reduction finds its children and its
goto, and the tree of a version that ends has the start symbol.
-/

namespace IncrementalGlr

variable {grammar : Grammar} {plain : PlainGrammar} {items : StateId → Lalr.Item → Prop}

/-- Whether a lookahead is a token of the text. -/
def Lookahead.IsToken (lookahead : Lookahead) : Prop :=
  ∃ found lexState, lookahead = .token found lexState

theorem Lookahead.IsToken.ne_reused {lookahead : Lookahead} (isToken : lookahead.IsToken)
    {subtree : Subtree} : lookahead ≠ .reused subtree := by
  obtain ⟨found, lexState, rfl⟩ := isToken
  exact Lookahead.noConfusion

/-- Whether a version has come along a path of states with derived subtrees and looks at tokens. -/
structure Version.Derives (plain : PlainGrammar) (items : StateId → Lalr.Item → Prop)
    (version : Version) : Prop where
  /-- The stack. -/
  stack : version.stack.Derives plain items
  /-- What comes next is a token if it is known. -/
  lookahead : ∀ lookahead ∈ version.lookahead, lookahead.IsToken

namespace ParseRun

variable {version : Version} {lookahead : Lookahead}

theorem onLookahead_of_isToken {job : ParseJob} (isToken : lookahead.IsToken) (index : Nat)
    (version : Version) (run : ParseRun) :
    run.onLookahead (m := Id) job index version lookahead =
      run.act (m := Id) job index version lookahead := by
  obtain ⟨token, lexState, rfl⟩ := isToken
  rfl

/-- Without an earlier tree a token comes next. -/
theorem nextLookahead_of_fresh {job : ParseJob} {run : ParseRun} (fresh : run.reuse = none)
    (version : Version) :
    run.nextLookahead job version =
      ({ run with stats := run.stats.countLexed },
        .token
          (job.lexer.nextInState job.text version.position (job.grammar.lexState version.state))
          (job.grammar.lexState version.state)) := by
  unfold nextLookahead
  simp only [fresh, Option.map_none, Option.bind_none, ite_self]

theorem leafOf_derived (state : StateId) (extra : Bool) (isToken : lookahead.IsToken) :
    Subtree.Derived plain (leafOf (m := Id) grammar state extra lookahead) ∧
      Subtree.symbol (leafOf (m := Id) grammar state extra lookahead) = lookahead.symbol ∧
      Subtree.isExtra (leafOf (m := Id) grammar state extra lookahead) = extra := by
  obtain ⟨found, lexState, rfl⟩ := isToken
  exact ⟨Subtree.derived_ofLeaf _, rfl, rfl⟩

/-- A shift enters the next state. -/
theorem shift_derives (works : grammar.WorksOn plain items)
    (derives : version.stack.Derives plain items) (isToken : lookahead.IsToken) {next : StateId}
    (action : .shift next ∈ grammar.actions version.state lookahead.symbol) :
    Version.Derives plain items
      (pushLeaf (m := Id) grammar version lookahead next false) := by
  obtain ⟨derived, symbol, notExtra⟩ :=
    @leafOf_derived grammar plain lookahead version.state false isToken
  have enters := works.recognizes.shift action
  rw [← symbol] at enters
  exact ⟨derives.push (derives.path.enter notExtra enters) derived, fun _ none => by cases none⟩

/-- An extra keeps the state. -/
theorem extra_derives (derives : version.stack.Derives plain items)
    (isToken : lookahead.IsToken) :
    Version.Derives plain items
      (pushLeaf (m := Id) grammar version lookahead version.state true) := by
  obtain ⟨derived, -, isExtra⟩ :=
    @leafOf_derived grammar plain lookahead version.state true isToken
  exact ⟨derives.extra isExtra derived, fun _ none => by cases none⟩

/-- The node that a reduction puts above the children of a production. -/
def reducedNode (grammar : Grammar) (state : StateId) (production : ProductionId) (fragile : Bool)
    (following : Nat) (children : List Subtree) : Subtree :=
  .ofChildren 0
    { NodeSpec.ofGrammar grammar (grammar.production production).lhs with
      production
      parseState := state
      fragile
      dynamicPrecedence := (grammar.production production).dynamicPrecedence.toInt
      following }
    children

/-- A reduction that finds its children and a goto puts a node on the stack that looks as far as what
comes next and the extras before it. -/
theorem reduce_eq {production : ProductionId} (fragile : Bool)
    {children trailing : List Subtree} {below : ParseStack} {next : StateId}
    (found : version.stack.takeChildren (grammar.production production).length.toNat =
      some (children, trailing, below))
    (goto : grammar.goto? below.state (grammar.production production).lhs = some next) :
    reduce (m := Id) grammar version production fragile =
      some { version with
        stack := ParseStack.pushAll
          (⟨next, reducedNode grammar below.state production fragile
            ((version.lookahead.map Lookahead.extent).getD 0 + Subtree.totalLength trailing)
            children⟩ :: below) next trailing } := by
  unfold reduce
  simp only [found, goto]
  rfl

/-- What a reduction comes to if there are enough subtrees and there is a goto. -/
theorem reduce_eq_some {production : ProductionId} (fragile : Bool)
    {children trailing : List Subtree} {below : ParseStack} {next : StateId}
    (found : version.stack.takeChildren (grammar.production production).length.toNat =
      some (children, trailing, below))
    (goto : grammar.goto? below.state (grammar.production production).lhs = some next) :
    ∃ following, reduce (m := Id) grammar version production fragile =
      some { version with
        stack := ParseStack.pushAll
          (⟨next, reducedNode grammar below.state production fragile following children⟩ :: below)
          next trailing } :=
  ⟨_, reduce_eq fragile found goto⟩

/-- What a reduction comes from. -/
theorem exists_of_reduce {production : ProductionId} {fragile : Bool} {reduced : Version}
    (result : reduce (m := Id) grammar version production fragile = some reduced) :
    ∃ children trailing below next,
      version.stack.takeChildren (grammar.production production).length.toNat =
          some (children, trailing, below) ∧
        grammar.goto? below.state (grammar.production production).lhs = some next := by
  unfold reduce at result
  dsimp only at result
  split at result
  · cases result
  · next children trailing below found =>
      split at result
      · cases result
      · next next goto => exact ⟨children, trailing, below, next, found, goto⟩

/-- A reduction changes nothing of a version but its stack. -/
theorem eq_of_reduce {production : ProductionId} {fragile : Bool} {reduced : Version}
    (result : reduce (m := Id) grammar version production fragile = some reduced) :
    ∃ stack, reduced = { version with stack } := by
  obtain ⟨children, trailing, below, next, found, goto⟩ := exists_of_reduce result
  obtain ⟨following, made⟩ := reduce_eq_some fragile found goto
  exact ⟨_, Option.some.inj (result.symm.trans made)⟩

/-- A reduction that the table calls for finds its children and its goto. -/
theorem reduce_derives (works : grammar.WorksOn plain items) (derives : version.Derives plain items)
    {symbol : Symbol} {production : ProductionId}
    (action : .reduce production ∈ grammar.actions version.state symbol) (fragile : Bool) :
    ∃ reduced : Version,
      reduce (m := Id) grammar version production fragile = some reduced ∧
        reduced.Derives plain items := by
  obtain ⟨source, sourceFound, taken, after, below, next, found, path, symbols, extras, goto,
    enters⟩ := derives.stack.path.reducible works action
  obtain ⟨lhs, -⟩ := works.production sourceFound
  have parts := ParseStack.takeChildren_subtrees found
  have derived := derives.stack.derived
  rw [← parts] at derived
  have belowDerives : below.Derives plain items :=
    ⟨path, fun subtree member =>
      derived subtree (List.mem_append_left _ (List.mem_append_left _ member))⟩
  obtain ⟨following, reduced⟩ := reduce_eq_some fragile found goto
  refine ⟨_, reduced, ?_, derives.lookahead⟩
  rw [← lhs] at enters
  have node : (reducedNode grammar below.state production fragile following taken).Derived plain := by
    refine .mk (fun _ _ => ⟨source, sourceFound, lhs, symbols⟩) fun child member => ?_
    exact derived child (List.mem_append_left _ (List.mem_append_right _ member))
  generalize nodeEq : reducedNode grammar below.state production fragile following taken = reduction
    at node
  have symbol : reduction.symbol = (grammar.production production).lhs := nodeEq ▸ rfl
  have notExtra : reduction.isExtra = false := nodeEq ▸ rfl
  rw [← symbol] at enters
  have pushed := belowDerives.push (path.enter notExtra enters) node
  exact (@Recovery.derives_kept grammar plain items).pushAll pushed extras
    fun extra member => derived extra (List.mem_append_right _ member)

/-- Whoever accepts has the start symbol on the stack. -/
theorem accepted_symbol (works : grammar.WorksOn plain items)
    (derives : version.stack.Derives plain items) {symbol : Symbol}
    (action : .accept ∈ grammar.actions version.state symbol) {root : Subtree}
    (only : version.stack.subtrees.filter (fun subtree => !subtree.isExtra) = [root]) :
    root.symbol = plain.start := by
  obtain ⟨below, -, -, symbols⟩ := derives.path.accepting works.recognizes action
  rw [Subtree.plainSymbols, only, List.map_singleton] at symbols
  have member : plain.start ∈ [root.symbol] :=
    symbols ▸ List.mem_append_right _ List.mem_cons_self
  exact (List.mem_singleton.1 member).symm

/-- The tree of an accepted version is derived and has the start symbol. -/
theorem foldRoot_derives (works : grammar.WorksOn plain items)
    (derives : version.stack.Derives plain items) {symbol : Symbol}
    (action : .accept ∈ grammar.actions version.state symbol) :
    Subtree.Derived plain (foldRoot (m := Id) grammar version.stack.subtrees) ∧
      Subtree.symbol (foldRoot (m := Id) grammar version.stack.subtrees) =
        grammar.startSymbol := by
  have derived := derives.derived
  have rooted : Subtree.Derived plain (rootNode (m := Id) grammar version.stack.subtrees) ∧
      Subtree.symbol (rootNode (m := Id) grammar version.stack.subtrees) = grammar.startSymbol :=
    ⟨Subtree.derived_ofChildren rfl derived, rfl⟩
  unfold foldRoot
  split
  · next root only =>
      have start := accepted_symbol works derives action only
      rw [← works.start] at start
      have member : root ∈ version.stack.subtrees :=
        (List.mem_filter.1 (only ▸ List.mem_singleton_self root)).1
      have rootDerived := derived root member
      split
      · exact ⟨rootDerived, start⟩
      · split
        · exact rooted
        · next isNode =>
            refine ⟨.mk (fun _ recorded => ?_) fun child childMember => ?_, start⟩
            · obtain ⟨source, found, lhs, rhs⟩ :=
                rootDerived.own (Bool.not_eq_true _ ▸ isNode) recorded
              refine ⟨source, found, lhs, ?_⟩
              have before : ∀ extra ∈ version.stack.subtrees.takeWhile Subtree.isExtra,
                  extra.isExtra = true := fun extra => List.mem_takeWhile_imp
              have after := Subtree.plainSymbols_after only
              change Subtree.plainSymbols (_ ++ _ ++ _) = _
              rw [Subtree.plainSymbols_append, Subtree.plainSymbols_append,
                Subtree.plainSymbols_extras before, after, rhs]
              simp
            · rcases List.mem_append.1 childMember with before | after
              · rcases List.mem_append.1 before with before | inside
                · exact derived child ((List.takeWhile_prefix _).subset before)
                · exact rootDerived.child child inside
              · exact derived child
                  ((List.dropWhile_suffix _).subset (List.mem_of_mem_tail after))
  · exact rooted

variable {job : ParseJob}

/-- Without an earlier tree versions look at tokens. -/
theorem looksAt_isToken {reuse : Option ReuseCursor} (fresh : ∀ cursor ∈ reuse, False)
    (known : ∀ lookahead ∈ version.lookahead, lookahead.IsToken)
    (looks : version.LooksAt job reuse lookahead) : lookahead.IsToken := by
  cases looks with
  | pending found => exact known lookahead found
  | token unknown => exact ⟨_, _, rfl⟩
  | part unknown reusing found usable => exact (fresh _ reusing).elim

theorem move_derives (works : job.grammar.WorksOn plain items)
    (derives : version.stack.Derives plain items) (isToken : lookahead.IsToken) {moved : Version}
    (moves : version.Moves job lookahead moved) : moved.Derives plain items := by
  cases moves with
  | shift action => exact shift_derives works derives isToken action
  | @reduce production fragile _ action result =>
      have looking : Version.Derives plain items { version with lookahead := some lookahead } :=
        ⟨derives, fun known same => Option.some.inj same ▸ isToken⟩
      obtain ⟨reduced, found, reducedDerives⟩ := reduce_derives works looking action fragile
      rw [result] at found
      exact Option.some.inj found ▸ reducedDerives
  | extra noAction isExtra notEnd => exact extra_derives derives isToken
  | adopt reused state goto => exact (isToken.ne_reused reused).elim
  | reject reused => exact (isToken.ne_reused reused).elim
  | resume noAction found at_ =>
      refine ⟨?_, fun known same => Option.some.inj same ▸ ⟨_, _, rfl⟩⟩
      exact @ParseStack.KeptInRecovery.resume _ _ _ Recovery.derives_kept
        { version with lookahead := some lookahead } derives _ _ _
  | skip noAction first further =>
      refine ⟨?_, fun known none => by cases none⟩
      exact @ParseStack.KeptInRecovery.skipToken _ _ _ Recovery.derives_kept
        { version with lookahead := some lookahead } derives _

theorem end_derives (works : job.grammar.WorksOn plain items)
    (derives : version.stack.Derives plain items) {root : Subtree}
    (ends : version.EndsIn job lookahead root) :
    root.Derived plain ∧ root.symbol = job.grammar.startSymbol := by
  cases ends with
  | accept action => exact foldRoot_derives works derives action
  | giveUp noAction ended =>
      refine ⟨?_, by rw [Recovery.giveUp_root]; rfl⟩
      exact @Recovery.giveUp_derived job.grammar plain items
        { version with lookahead := some lookahead } derives _

/-- Without an earlier tree all moves keep to the path of states, and every accepted tree is derived
and has the start symbol. -/
theorem derives_preserved (works : job.grammar.WorksOn plain items) :
    Preserved job (Version.Derives plain items)
      (fun root => root.Derived plain ∧ root.symbol = job.grammar.startSymbol)
      (fun _ => False) where
  alike derives alike := by
    rw [Version.AlikeTo] at alike
    rw [alike]
    exact ⟨derives.stack, derives.lookahead⟩
  start := ⟨ParseStack.derives_nil, fun _ none => by cases none⟩
  move {_ version _ lookahead} fresh derives looks moves := by
    have isToken := looksAt_isToken fresh derives.lookahead looks
    exact @move_derives plain items { version with lookahead := none } lookahead job works
      derives.stack isToken _ moves
  finish {_ version lookahead _} _ derives _ ends :=
    @end_derives plain items { version with lookahead := none } lookahead job works derives.stack _
      ends
  later never _ := never

/-- Whatever a run is left with, its tree is derived. -/
theorem result_derived (works : job.grammar.WorksOn plain items) {run : ParseRun}
    (keeps : run.Keeps (Version.Derives plain items)
      (fun root => root.Derived plain ∧ root.symbol = job.grammar.startSymbol)
      (fun _ => False)) :
    Subtree.Derived plain (run.result (m := Id) job) := by
  unfold result
  split
  · next best found => exact (keeps.finished best (Rank.best?_mem found)).1
  · have best : Version.Derives plain items
        ((Rank.best? Version.rank run.versions).getD .start) := by
      cases found : Rank.best? Version.rank run.versions with
      | none => exact (derives_preserved works).start
      | some version => exact keeps.versions version (Rank.best?_mem found)
    generalize (Rank.best? Version.rank run.versions).getD .start = version at best
    have rooted : ∀ errors : List Subtree, (∀ error ∈ errors, error.Derived plain) →
        Subtree.Derived plain
          (rootNode (m := Id) job.grammar (version.stack.subtrees ++ errors)) := by
      intro errors derived
      refine Subtree.derived_ofChildren rfl fun child member => ?_
      exact (List.mem_append.1 member).elim (best.stack.derived child) (derived child)
    dsimp only
    split
    · exact rooted [] fun error never => absurd never List.not_mem_nil
    · exact rooted [_] (List.forall_mem_singleton.2 (Subtree.derived_ofLeaf _))

end ParseRun

end IncrementalGlr
