import IncrementalGlr.Proofs.Lalr.Resolution
import IncrementalGlr.Proofs.Recoveries.Steps
import IncrementalGlr.Proofs.Search.Session
import IncrementalGlr.Proofs.Table.Packed

/-!
# Machines that do one thing at a time

Where a table has no conflicts there is never more than one action.  Then all trees that are
accepted are alike, and a run never has more than one version alive.  So a parse without an earlier
tree makes a tree that is accepted if there is one.
-/

namespace IncrementalGlr

open Version (Advances Performs Accepts)

/-! ## Tables without conflicts -/

/-- Whether a grammar calls for at most one action at a time. -/
def Grammar.Decisive (grammar : Grammar) : Prop :=
  ∀ state symbol, (grammar.actions state symbol).length ≤ 1

theorem Grammar.Decisive.eq_singleton {grammar : Grammar} (decisive : grammar.Decisive)
    {state : StateId} {symbol : Symbol} {action : Action}
    (member : action ∈ grammar.actions state symbol) :
    grammar.actions state symbol = [action] := by
  have bound := decisive state symbol
  have length : (grammar.actions state symbol).length = 1 :=
    Nat.le_antisymm bound (List.length_pos_of_mem member)
  obtain ⟨only, same⟩ := List.length_eq_one_iff.1 length
  rw [same] at member ⊢
  rw [List.mem_singleton.1 member]

namespace Grammar.ComesFrom

variable {grammar : Grammar} {plain : PlainGrammar} {table : Lalr.Table}
  (comes : grammar.ComesFrom plain table)

include comes

theorem resolved : ∃ sources, table.IsResolved (Lalr.Context.ofGrammar plain) sources := by
  obtain ⟨-, rfl⟩ := Lalr.Table.ofGrammar_eq_ok comes.built
  exact ⟨_, Lalr.Table.isResolved_ofAutomaton⟩

/-- Where a table has no conflicts, the grammar calls for at most one action. -/
theorem decisive (quiet : table.conflicts = []) : grammar.Decisive := by
  intro state symbol
  obtain ⟨sources, resolved⟩ := comes.resolved
  have reported := resolved.conflicts
  rw [quiet, List.map_nil, eq_comm, List.flatMap_eq_nil_iff] at reported
  rw [comes.loaded.actions_eq_listed, GrammarData.listedActions, comes.states]
  cases found : table.states[state.index]?.bind fun source => lastFor source.actions symbol with
  | none => exact Nat.zero_le 1
  | some actions =>
      obtain ⟨source, sourceFound, last⟩ := Option.bind_eq_some_iff.1 found
      have none := List.map_eq_nil_iff.1
        (reported (source, state.index) (List.mem_zipIdx_iff_getElem?.2 sourceFound))
      have single := List.filter_eq_nil_iff.1 none (symbol, actions) (mem_of_lastFor last)
      rw [decide_eq_true_eq, Nat.not_le] at single
      exact Nat.le_of_lt_succ single

end Grammar.ComesFrom

/-! ## Subtrees that stand for each other -/

namespace Subtree

/-- Whether two subtrees agree in symbols and lengths throughout and play the same part on a
stack. -/
structure Twin (left right : Subtree) : Prop where
  /-- Symbols and lengths are the same. -/
  alike : left.alike right = true
  /-- Both are extras, or none is. -/
  extra : left.isExtra = right.isExtra
  /-- Both are tokens, or none is. -/
  leaf : left.isLeaf = right.isLeaf

theorem alike_iff {left right : Subtree} :
    left.alike right = true ↔ left.symbol = right.symbol ∧ left.length = right.length ∧
      alikeAll left.children right.children = true := by
  obtain ⟨leftData, leftChildren⟩ := left
  obtain ⟨rightData, rightChildren⟩ := right
  rw [alike, Bool.and_eq_true, Bool.and_eq_true, decide_eq_true_eq, beq_iff_eq, and_assoc]
  rfl

theorem alikeAll_iff {left right : List Subtree} :
    alikeAll left right = true ↔
      List.Forall₂ (fun one other => one.alike other = true) left right := by
  induction left generalizing right with
  | nil => cases right <;> simp [alikeAll]
  | cons first rest induction =>
      cases right with
      | nil => simp [alikeAll]
      | cons other others => simp [alikeAll, induction]

mutual

theorem alike_refl (subtree : Subtree) : subtree.alike subtree = true := by
  cases subtree with
  | mk data children => exact alike_iff.2 ⟨rfl, rfl, alikeAll_refl children⟩

theorem alikeAll_refl (subtrees : List Subtree) : alikeAll subtrees subtrees = true := by
  cases subtrees with
  | nil => rfl
  | cons first rest => rw [alikeAll, alike_refl first, alikeAll_refl rest, Bool.and_self]

end

mutual

theorem alike_trans {first second third : Subtree} (left : first.alike second = true)
    (right : second.alike third = true) : first.alike third = true := by
  cases first with
  | mk data children =>
      obtain ⟨symbol, length, parts⟩ := alike_iff.1 left
      obtain ⟨nextSymbol, nextLength, nextParts⟩ := alike_iff.1 right
      exact alike_iff.2 ⟨symbol.trans nextSymbol, length.trans nextLength,
        alikeAll_trans parts nextParts⟩

theorem alikeAll_trans {first second third : List Subtree} (left : alikeAll first second = true)
    (right : alikeAll second third = true) : alikeAll first third = true := by
  match first, second, third with
  | [], [], [] => rfl
  | one :: rest, other :: others, last :: lasts =>
      rw [alikeAll, Bool.and_eq_true] at left right ⊢
      exact ⟨alike_trans left.1 right.1, alikeAll_trans left.2 right.2⟩

end

theorem totalLength_alike {left right : List Subtree} (same : alikeAll left right = true) :
    totalLength left = totalLength right := by
  induction alikeAll_iff.1 same with
  | nil => rfl
  | cons alike others induction =>
      rw [totalLength_cons, totalLength_cons, induction (alikeAll_iff.2 others),
        (alike_iff.1 alike).2.1]

/-- Nodes with the same symbol are alike if their children are. -/
theorem alike_ofChildren {left right : Nat} {one other : NodeSpec} {children others : List Subtree}
    (symbol : one.symbol = other.symbol) (same : alikeAll children others = true) :
    (ofChildren left one children).alike (ofChildren right other others) = true :=
  alike_iff.2 ⟨symbol, totalLength_alike same, same⟩

theorem alikeAll_append {left right others more : List Subtree}
    (first : alikeAll left right = true) (rest : alikeAll others more = true) :
    alikeAll (left ++ others) (right ++ more) = true :=
  alikeAll_iff.2 (List.rel_append (alikeAll_iff.1 first) (alikeAll_iff.1 rest))

theorem alikeAll_twins {left right : List Subtree} (twins : List.Forall₂ Twin left right) :
    alikeAll left right = true :=
  alikeAll_iff.2 (twins.imp fun _ _ twin => twin.alike)

/-- Tokens with the same symbol and length are twins. -/
theorem twin_ofLeaf {left right : Nat} {one other : LeafSpec} (symbol : one.symbol = other.symbol)
    (length : one.length = other.length) (extra : one.extra = other.extra) :
    Twin (.ofLeaf left one) (.ofLeaf right other) :=
  ⟨alike_iff.2 ⟨symbol, length, rfl⟩, extra, rfl⟩

/-- So are nodes with the same symbol whose children are. -/
theorem twin_ofChildren {left right : Nat} {one other : NodeSpec} {children others : List Subtree}
    (symbol : one.symbol = other.symbol) (extra : one.extra = other.extra)
    (twins : List.Forall₂ Twin children others) :
    Twin (.ofChildren left one children) (.ofChildren right other others) :=
  ⟨alike_ofChildren symbol (alikeAll_twins twins), extra, rfl⟩

/-- Extras are taken from the front of both of two lists of twins. -/
theorem splitExtras_twins {left right : List Subtree} (twins : List.Forall₂ Twin left right) :
    List.Forall₂ Twin (left.takeWhile isExtra) (right.takeWhile isExtra) ∧
      List.Forall₂ Twin (left.dropWhile isExtra) (right.dropWhile isExtra) := by
  induction twins with
  | nil => exact ⟨.nil, .nil⟩
  | @cons one other _ _ twin others induction =>
      rw [List.takeWhile_cons, List.takeWhile_cons, List.dropWhile_cons, List.dropWhile_cons,
        ← twin.extra]
      cases one.isExtra with
      | false => exact ⟨.nil, .cons twin others⟩
      | true => exact ⟨.cons twin induction.1, induction.2⟩

end Subtree

/-! ## Versions that stand for each other -/

namespace ParseRun

/-- The trees that are made of twins are alike. -/
theorem foldRoot_twins (grammar : Grammar) {left right : List Subtree}
    (twins : List.Forall₂ Subtree.Twin left right) :
    Subtree.alike (foldRoot (m := Id) grammar left) (foldRoot (m := Id) grammar right) = true := by
  have rooted : Subtree.alike (rootNode (m := Id) grammar left)
      (rootNode (m := Id) grammar right) = true :=
    Subtree.alike_ofChildren rfl (Subtree.alikeAll_twins twins)
  have plain : List.Forall₂ Subtree.Twin (left.filter fun subtree => !subtree.isExtra)
      (right.filter fun subtree => !subtree.isExtra) :=
    List.rel_filter (fun _ _ twin => by simp only [twin.extra]) twins
  unfold foldRoot
  generalize left.filter (fun subtree => !subtree.isExtra) = leftPlain at plain ⊢
  generalize right.filter (fun subtree => !subtree.isExtra) = rightPlain at plain ⊢
  cases plain with
  | nil => exact rooted
  | @cons root other _ _ twin others =>
      cases others with
      | cons => exact rooted
      | nil =>
          obtain ⟨before, after⟩ := Subtree.splitExtras_twins twins
          obtain ⟨symbol, -, children⟩ := Subtree.alike_iff.1 twin.alike
          dsimp only
          rw [twins.length_eq, twin.leaf]
          split_ifs
          · exact twin.alike
          · exact rooted
          · refine Subtree.alike_ofChildren symbol (Subtree.alikeAll_append
              (Subtree.alikeAll_append (Subtree.alikeAll_twins before) children)
              (Subtree.alikeAll_twins ?_))
            generalize left.dropWhile Subtree.isExtra = leftRest at after ⊢
            generalize right.dropWhile Subtree.isExtra = rightRest at after ⊢
            cases after with
            | nil => exact .nil
            | cons _ rest => exact rest

end ParseRun

/-- Whether two entries of stacks differ at most in what does not matter for their subtrees. -/
def StackEntry.Twin (left right : StackEntry) : Prop :=
  left.state = right.state ∧ left.subtree.Twin right.subtree

namespace ParseStack

variable {left right : ParseStack} (twins : List.Forall₂ StackEntry.Twin left right)

include twins

theorem state_twins : left.state = right.state := by
  cases twins with
  | nil => rfl
  | cons twin => exact twin.1

theorem subtrees_twins : List.Forall₂ Subtree.Twin left.subtrees right.subtrees := by
  rw [subtrees, subtrees, List.forall₂_reverse_iff, List.forall₂_map_left_iff,
    List.forall₂_map_right_iff]
  exact twins.imp fun _ _ twin => twin.2

theorem pushAll_twins (state : StateId) {subtrees others : List Subtree}
    (more : List.Forall₂ Subtree.Twin subtrees others) :
    List.Forall₂ StackEntry.Twin (left.pushAll state subtrees) (right.pushAll state others) := by
  induction more generalizing left right with
  | nil => exact twins
  | cons twin rest induction => exact induction (.cons ⟨rfl, twin⟩ twins)

/-- From twins twins are taken. -/
theorem takeFrom_twins {children others trailing extras : List Subtree}
    (sameChildren : List.Forall₂ Subtree.Twin children others)
    (sameExtras : List.Forall₂ Subtree.Twin trailing extras) {count : Nat}
    {taken after : List Subtree} {below : ParseStack}
    (found : takeFrom children trailing count left = some (taken, after, below)) :
    ∃ held following rest, takeFrom others extras count right = some (held, following, rest) ∧
      List.Forall₂ Subtree.Twin taken held ∧ List.Forall₂ Subtree.Twin after following ∧
      List.Forall₂ StackEntry.Twin below rest := by
  induction twins generalizing children others trailing extras count with
  | nil =>
      cases count with
      | zero =>
          cases found
          exact ⟨others, extras, [], rfl, sameChildren, sameExtras, .nil⟩
      | succ count => cases found
  | @cons entry other left right twin rest induction =>
      cases count with
      | zero =>
          cases found
          exact ⟨others, extras, _, rfl, sameChildren, sameExtras, .cons twin rest⟩
      | succ count =>
          have empty : others.isEmpty = children.isEmpty := by
            cases sameChildren <;> rfl
          simp only [takeFrom, ← twin.2.extra, empty] at found ⊢
          split_ifs at found ⊢
          · exact induction (.cons twin.2 sameChildren) sameExtras found
          · exact induction sameChildren (.cons twin.2 sameExtras) found
          · exact induction (.cons twin.2 sameChildren) sameExtras found

end ParseStack

namespace Version

/-- Whether two versions differ at most in what does not matter for their subtrees, and in their
paths. -/
structure Twin (left right : Version) : Prop where
  /-- They are at the same place. -/
  position : left.position = right.position
  /-- They know the same of what comes next. -/
  lookahead : left.lookahead = right.lookahead
  /-- The stacks consist of twins. -/
  stack : List.Forall₂ StackEntry.Twin left.stack right.stack

namespace Twin

variable {job : ParseJob} {left right : Version} (twin : left.Twin right)

include twin

theorem state : left.state = right.state := ParseStack.state_twins twin.stack

theorem upcoming : left.upcoming job = right.upcoming job := by
  rw [Version.upcoming, Version.upcoming, twin.lookahead, twin.position, twin.state]

theorem pushLeaf (lookahead : Lookahead) (next : StateId) (extra : Bool) :
    Version.Twin (ParseRun.pushLeaf (m := Id) job.grammar left lookahead next extra)
      (ParseRun.pushLeaf (m := Id) job.grammar right lookahead next extra) := by
  have same : Subtree.Twin (ParseRun.leafOf (m := Id) job.grammar left.state extra lookahead)
      (ParseRun.leafOf (m := Id) job.grammar right.state extra lookahead) := by
    rw [twin.state]
    exact ⟨Subtree.alike_refl _, rfl, rfl⟩
  refine ⟨?_, rfl, .cons ⟨rfl, same⟩ twin.stack⟩
  change left.position + _ = right.position + _
  rw [twin.position, twin.state]

/-- A reduction makes twins of twins. -/
theorem reduce {production : ProductionId} {fragile other : Bool} {next follower : Version}
    (result : ParseRun.reduce (m := Id) job.grammar left production fragile = some next)
    (otherResult : ParseRun.reduce (m := Id) job.grammar right production other =
      some follower) : next.Twin follower := by
  obtain ⟨taken, after, below, target, found, goto⟩ := ParseRun.exists_of_reduce result
  obtain ⟨following, made⟩ := ParseRun.reduce_eq_some fragile found goto
  obtain ⟨held, later, rest, otherFound, sameTaken, sameAfter, sameBelow⟩ :=
    ParseStack.takeFrom_twins twin.stack .nil .nil found
  rw [ParseStack.state_twins sameBelow] at goto
  obtain ⟨otherFollowing, otherMade⟩ := ParseRun.reduce_eq_some other otherFound goto
  obtain rfl := Option.some.inj (result.symm.trans made)
  obtain rfl := Option.some.inj (otherResult.symm.trans otherMade)
  have top : StackEntry.Twin
      ⟨target, ParseRun.reducedNode job.grammar below.state production fragile following taken⟩
      ⟨target, ParseRun.reducedNode job.grammar rest.state production other otherFollowing held⟩ :=
    ⟨rfl, Subtree.twin_ofChildren rfl rfl sameTaken⟩
  exact ⟨twin.position, twin.lookahead,
    ParseStack.pushAll_twins (.cons top sameBelow) target sameAfter⟩

/-- Twins can only do the same if there is one action at most. -/
theorem advances (decisive : job.grammar.Decisive) {next follower : Version}
    (advances : Advances job left next) (otherAdvances : Advances job right follower) :
    next.Twin follower := by
  have upcoming := @Twin.upcoming job _ _ twin
  cases advances with
  | @act action _ listed performs =>
      have only := decisive.eq_singleton listed
      rw [upcoming, twin.state] at only
      cases otherAdvances with
      | act otherListed otherPerforms =>
          rw [only, List.mem_singleton] at otherListed
          subst otherListed
          cases performs with
          | shift =>
              cases otherPerforms
              rw [upcoming]
              exact twin.pushLeaf _ _ _
          | reduce fragile result =>
              cases otherPerforms with
              | reduce otherFragile otherResult =>
                  have looking : Twin { left with lookahead := some (right.upcoming job) }
                      { right with lookahead := some (right.upcoming job) } :=
                    ⟨twin.position, rfl, twin.stack⟩
                  rw [upcoming] at result
                  exact looking.reduce result otherResult
      | extra noAction =>
          rw [noAction] at only
          cases only
  | extra noAction =>
      cases otherAdvances with
      | act otherListed =>
          rw [upcoming, twin.state] at noAction
          rw [noAction] at otherListed
          cases otherListed
      | extra =>
          rw [upcoming, twin.state]
          exact twin.pushLeaf _ _ _

end Twin

/-- What accepts does not go on if there is one action at most. -/
theorem not_advances {job : ParseJob} (decisive : job.grammar.Decisive) {version next : Version}
    (accepts : .accept ∈ job.grammar.actions version.state (version.upcoming job).symbol) :
    ¬ Advances job version next := by
  have only := decisive.eq_singleton accepts
  intro advances
  cases advances with
  | act listed performs =>
      rw [only, List.mem_singleton] at listed
      subst listed
      cases performs
  | extra noAction =>
      rw [noAction] at only
      cases only

/-- All trees that are accepted are alike if there is one action at most. -/
theorem Accepts.alike {job : ParseJob} (decisive : job.grammar.Decisive) {left right : Version}
    {root other : Subtree} (twin : left.Twin right) (accepts : Accepts job left root)
    (otherAccepts : Accepts job right other) : root.alike other = true := by
  obtain ⟨last, runs, accept, rfl⟩ := accepts
  obtain ⟨end_, otherRuns, otherAccept, rfl⟩ := otherAccepts
  induction runs using Relation.ReflTransGen.head_induction_on generalizing right with
  | refl =>
      obtain rfl | ⟨middle, advances, -⟩ := otherRuns.cases_head
      · exact ParseRun.foldRoot_twins job.grammar (ParseStack.subtrees_twins twin.stack)
      · rw [twin.upcoming, twin.state] at accept
        exact absurd advances (not_advances decisive accept)
  | head advances _ induction =>
      obtain rfl | ⟨middle, otherAdvances, rest⟩ := otherRuns.cases_head
      · rw [← twin.upcoming, ← twin.state] at otherAccept
        exact absurd advances (not_advances decisive otherAccept)
      · exact induction (twin.advances decisive advances otherAdvances) rest

end Version

/-! ## Runs with a single version -/

namespace Version

/-- The versions and accepted trees that a version that is alone may lead to by what comes next. -/
inductive Turns (job : ParseJob) (version : Version) (lookahead : Lookahead) :
    List Version → List Subtree → Prop
  /-- A token is shifted. -/
  | shift {next : StateId} (token : ∀ node, lookahead = .reused node → node.isLeaf = true)
      (action : .shift next ∈ job.grammar.actions version.state lookahead.symbol) :
    Turns job version lookahead
      [ParseRun.pushLeaf (m := Id) job.grammar version lookahead next false] []
  /-- A production is reduced. -/
  | reduce {production : ProductionId} {fragile : Bool}
      (action : .reduce production ∈ job.grammar.actions version.state lookahead.symbol) :
    Turns job version lookahead
      (Option.toList (ParseRun.reduce (m := Id) job.grammar
        { version with lookahead := some lookahead } production fragile)) []
  /-- An extra is passed over. -/
  | extra (token : ∀ node, lookahead = .reused node → node.isLeaf = true)
      (isExtra : job.grammar.isExtra lookahead.symbol = true)
      (notEnd : lookahead.symbol ≠ .endOfInput) :
    Turns job version lookahead
      [ParseRun.pushLeaf (m := Id) job.grammar version lookahead version.state true] []
  /-- A node of the earlier tree is taken over. -/
  | adopt {node : Subtree} {next : StateId} (reused : lookahead = .reused node)
      (isNode : node.isLeaf = false)
      (goto : job.grammar.goto? version.state node.symbol = some next) :
    Turns job version lookahead
      [{ version.push next node with position := version.position + node.length }] []
  /-- A node of the earlier tree is broken into its children. -/
  | reject {node : Subtree} (reused : lookahead = .reused node) :
    Turns job version lookahead [version] []
  /-- The text is accepted. -/
  | accept (action : .accept ∈ job.grammar.actions version.state lookahead.symbol) :
    Turns job version lookahead []
      [ParseRun.foldRoot (m := Id) job.grammar version.stack.subtrees]

end Version

namespace ParseRun

variable {job : ParseJob} {run : ParseRun}

/-- What becomes of a version that is alone. -/
inductive Solo (job : ParseJob) (version : Version) (lookahead : Lookahead) (run : ParseRun) :
    ParseRun → Prop
  /-- It does what the lookahead calls for. -/
  | turns {next : ParseRun} (turns : version.Turns job lookahead next.versions
      (next.finished.map Finished.root)) : Solo job version lookahead run next
  /-- The run starts again. -/
  | restart {next : ParseRun} (restart : next.IsRestart) : Solo job version lookahead run next
  /-- It recovers from an error, as there is no earlier tree. -/
  | recover {next : ParseRun} (fresh : run.reuse = none)
      (few : next.versions.length + next.finished.length ≤ 1) :
    Solo job version lookahead run next

section Step

variable {version : Version} {lookahead : Lookahead}

theorem insertAt_alone (alone : run.versions = []) (versions : List Version) :
    run.insertAt 0 versions = { run with versions } := by
  rw [insertAt, alone, List.take_nil, List.drop_nil, List.nil_append, List.append_nil]

theorem countReuse_alone (lookahead : Lookahead) (run : ParseRun) :
    (run.countReuse lookahead).versions = run.versions ∧
      (run.countReuse lookahead).finished = run.finished := by
  cases lookahead <;> exact ⟨rfl, rfl⟩

variable (decisive : job.grammar.Decisive) (alone : run.versions = []) (none : run.finished = [])

include alone none

/-- A version that is alone recovers alone or ends. -/
theorem recover_few (version : Version) :
    let next := recover (m := Id) job version run
    next.versions.length + next.finished.length ≤ 1 := by
  obtain ⟨reuse, versions, finished, stats, lastRecovery⟩ := run
  obtain rfl : versions = [] := alone
  obtain rfl : finished = [] := none
  unfold recover
  dsimp only
  split
  · exact Nat.le_refl 1
  · split
    · exact Nat.le_refl 1
    · split
      · exact Nat.le_refl 1
      · exact Nat.zero_le 1

theorem withoutAction_solo (token : ∀ node, lookahead = .reused node → node.isLeaf = true) :
    Solo job version lookahead run (withoutAction (m := Id) job 0 version lookahead run) := by
  unfold withoutAction
  dsimp only
  split_ifs with extra stuck reusing
  · simp only [Bool.and_eq_true, decide_eq_true_eq] at extra
    obtain ⟨counted, kept⟩ := countReuse_alone lookahead run
    refine .turns ?_
    simp only [bind, pure]
    rw [insertAt_alone (counted.trans alone), kept, none]
    exact .extra token extra.1.1 extra.1.2
  · exact .restart ⟨⟨rfl, rfl, rfl, rfl⟩, rfl⟩
  · exact .recover (Option.not_isSome_iff_eq_none.1 reusing) (recover_few alone none _)
  · rw [alone, none] at stuck
    exact absurd rfl stuck

include decisive

theorem act_solo (token : ∀ node, lookahead = .reused node → node.isLeaf = true) :
    Solo job version lookahead run (act (m := Id) job 0 version lookahead run) := by
  unfold act
  dsimp only
  split
  · exact withoutAction_solo alone none token
  · next action only =>
      have listed : action ∈ job.grammar.actions version.state lookahead.symbol :=
        only ▸ List.mem_singleton_self action
      refine .turns ?_
      cases action with
      | shift next =>
          obtain ⟨counted, kept⟩ := countReuse_alone lookahead run
          simp only [apply, bind, pure]
          rw [insertAt_alone (counted.trans alone), kept, none]
          exact .shift token listed
      | reduce production =>
          simp only [apply, bind, pure]
          rw [insertAt_alone alone, none]
          exact .reduce listed
      | accept =>
          simp only [apply, bind, pure]
          rw [insertAt_alone (by exact alone), none]
          exact .accept listed
  · next actions several single =>
      have bound := decisive version.state lookahead.symbol
      rcases Nat.le_one_iff_eq_zero_or_eq_one.1 bound with empty | one
      · exact absurd (List.length_eq_zero_iff.1 empty) several
      · obtain ⟨action, only⟩ := List.length_eq_one_iff.1 one
        exact absurd only (single action)

omit decisive in
theorem reuseNode_solo {node : Subtree} (reused : lookahead = .reused node)
    (isNode : node.isLeaf = false) :
    Solo job version lookahead run (reuseNode (m := Id) job.grammar 0 version node run) := by
  subst reused
  refine .turns ?_
  unfold reuseNode
  dsimp only
  generalize pushed :
    (if (run.versions.isEmpty && node.canPushNode job.grammar version.state) = true
      then job.grammar.goto? version.state node.symbol else Option.none) = next
  cases next with
  | some next =>
      simp only [pure]
      rw [insertAt_alone (by exact alone), none]
      split at pushed
      · exact .adopt rfl isNode pushed
      · cases pushed
  | none =>
      cases before : reductionBefore? job.grammar version.state node with
      | some production =>
          simp only [bind, pure]
          rw [insertAt_alone alone, none]
          exact .reduce (reductionBefore?_allowed isNode before)
      | none =>
          simp only [pure]
          rw [insertAt_alone (by exact alone), none]
          exact .reject rfl

theorem onLookahead_solo :
    Solo job version lookahead run (onLookahead (m := Id) job 0 version lookahead run) := by
  cases lookahead with
  | token => exact act_solo decisive alone none nofun
  | reused node =>
      unfold onLookahead
      dsimp only
      split
      · next isLeaf =>
          refine act_solo decisive alone none ?_
          rintro _ ⟨⟩
          exact isLeaf
      · next isNode => exact reuseNode_solo alone none rfl (Bool.not_eq_true _ ▸ isNode)

omit alone none decisive in
theorem nextLookahead_kept (job : ParseJob) (version : Version) (run : ParseRun) :
    (nextLookahead job version run).1.versions = run.versions ∧
      (nextLookahead job version run).1.finished = run.finished := by
  unfold nextLookahead
  dsimp only
  split <;> exact ⟨rfl, rfl⟩

/-- A version that is alone does what comes next for it calls for. -/
theorem advance_solo (version : Version) :
    ∃ lookahead, version.LooksAt job run.reuse lookahead ∧
      Solo job { version with lookahead := .none } lookahead run
        (advance (m := Id) job 0 version run) := by
  cases pending : version.lookahead with
  | some lookahead =>
      refine ⟨lookahead, .pending pending, ?_⟩
      rw [advance_of_pending pending]
      exact onLookahead_solo decisive alone none
  | none =>
      have base : ComesFrom job run run := ⟨fun version member => .stay member (.refl version),
        fun finished member => .stay member, fun cursor member => ⟨cursor, member, .refl⟩⟩
      obtain ⟨-, looks⟩ := nextLookahead_comesFrom base rfl pending
      obtain ⟨sameVersions, sameFinished⟩ := nextLookahead_kept job version run
      refine ⟨_, looks, ?_⟩
      rw [advance_of_unknown pending]
      cases onLookahead_solo decisive (sameVersions.trans alone) (sameFinished.trans none) with
      | turns turns => exact .turns turns
      | restart restart => exact .restart restart
      | recover fresh few =>
          have kept := (Continues.nextLookahead job version run).reuse
          rw [fresh, Option.isSome_none, eq_comm, Option.isSome_eq_false_iff] at kept
          exact .recover (Option.isNone_iff_eq_none.1 kept) few

end Step

/-- Whether a run has a single version alive, or none and at most one tree. -/
def Few (run : ParseRun) : Prop := run.versions.length + run.finished.length ≤ 1

theorem Few.alone {version : Version} (few : run.Few) (member : version ∈ run.versions) :
    run.versions = [version] ∧ run.finished = [] := by
  have some_ := List.length_pos_of_mem member
  rw [Few] at few
  obtain ⟨only, same⟩ := List.length_eq_one_iff.1 (show run.versions.length = 1 by omega)
  rw [same, List.mem_singleton] at member
  exact ⟨member ▸ same, List.length_eq_zero_iff.1 (by omega)⟩

theorem IsRestart.few (restart : run.IsRestart) : run.Few := by
  rw [Few, restart.start.versions, restart.start.finished]
  exact Nat.le_refl 1

theorem Solo.few {version : Version} {lookahead : Lookahead} {next : ParseRun}
    (solo : Solo job version lookahead run next) : next.Few := by
  cases solo with
  | restart restart => exact restart.few
  | recover fresh few => exact few
  | turns turns =>
      rw [Few, ← List.length_map (f := Finished.root)]
      generalize next.versions = versions at turns ⊢
      generalize next.finished.map Finished.root = roots at turns ⊢
      cases turns with
      | reduce action =>
          rw [List.length_nil, Nat.add_zero]
          exact Option.length_toList_le
      | _ => exact Nat.le_refl 1

theorem Few.condense (few : run.Few) : run.condense.Few := by
  have fewer := (@map_condense_subperm run Unit (fun _ => ()) fun _ _ => rfl).length_le
  rw [List.length_map, List.length_map] at fewer
  rw [Few, condense_finished]
  rw [Few] at few
  omega

/-- A version that is alone is not dropped. -/
theorem condense_single {version : Version} (versions : run.versions = [version])
    (none : run.finished = []) :
    run.condense = { run with versions := [{ version with path := [] }] } := by
  have kept : run.survivors = [version] := by
    unfold survivors promising
    rw [versions, none]
    rfl
  unfold ParseRun.condense
  rw [kept, none]

variable (decisive : job.grammar.Decisive)

include decisive

/-- If there is a single version it moves. -/
theorem advanced?_solo {version : Version} {raw : ParseRun} (versions : run.versions = [version])
    (none : run.finished = []) (advanced : run.advanced? (m := Id) job = some raw) :
    ∃ lookahead, version.LooksAt job run.reuse lookahead ∧
      Solo job { version with lookahead := .none } lookahead run raw := by
  obtain ⟨before, other, after, parts, -, -, rfl⟩ := exists_of_advanced? advanced
  rw [versions, eq_comm, List.append_eq_singleton_iff] at parts
  obtain ⟨rfl, last⟩ | ⟨-, impossible⟩ := parts
  · obtain ⟨rfl, rfl⟩ := List.cons.inj last
    obtain ⟨lookahead, looks, solo⟩ := @advance_solo job { run with versions := [] } decisive rfl
      none other
    refine ⟨lookahead, looks, ?_⟩
    cases solo with
    | turns turns => exact .turns turns
    | restart restart => exact .restart restart
    | recover fresh few => exact .recover fresh few
  · cases impossible

theorem Few.advanced {raw : ParseRun} (few : run.Few)
    (advanced : run.advanced? (m := Id) job = some raw) : raw.Few := by
  obtain ⟨before, version, after, parts, -⟩ := exists_of_advanced? advanced
  obtain ⟨versions, none⟩ :=
    few.alone (parts ▸ List.mem_append_right _ List.mem_cons_self : version ∈ run.versions)
  obtain ⟨lookahead, -, solo⟩ := advanced?_solo decisive versions none advanced
  exact solo.few

/-- If there is one action at most there is one version at most. -/
theorem Reaches.few {last : ParseRun} (few : run.Few) (reaches : Reaches job run last) :
    last.Few := by
  induction reaches with
  | refl => exact few
  | step before stepped induction =>
      rw [step?_eq_map, Option.map_eq_some_iff] at stepped
      obtain ⟨raw, advanced, rfl⟩ := stepped
      exact (induction.advanced decisive advanced).condense

end ParseRun

/-- If something is accepted and there is one action at most, a parse without an earlier tree that
comes to its end makes a tree that is accepted. -/
theorem Parser.runJob_accepts {job : ParseJob} {plain : PlainGrammar}
    {items : StateId → Lalr.Item → Prop}
    (acts : job.grammar.ActsOn plain items) (decisive : job.grammar.Decisive) {root : Subtree}
    (accepts : Accepts job .start root) {options : ParseOptions}
    (complete : (runJob (m := Id) job options none).2.1 = .complete) :
    Accepts job .start (runJob (m := Id) job options none).1 := by
  obtain ⟨reaches, ends⟩ := @ParseRun.runFor_reaches job options.deadline 0
    (options.maxOperations.getD maxOperations) (.start none)
  have few {run raw : ParseRun} (reaches : ParseRun.Reaches job (.start none) run)
      (advanced : run.advanced? (m := Id) job = some raw) : raw.Few :=
    (@ParseRun.Reaches.few job (.start none) decisive run (Nat.le_refl 1) reaches).advanced decisive
      advanced
  have searches := reaches.searches acts ⟨root, accepts, Int.le_refl _⟩
    (fun run raw reaches advanced => raw.promising_subperm.length_le.trans
      (((Nat.le_add_right _ _).trans (few reaches advanced)).trans (by decide)))
    (fun run raw reaches advanced left leftMember right rightMember _ => by
      rw [((few reaches advanced).alone leftMember).1, List.mem_singleton] at rightMember
      rw [rightMember])
  obtain ⟨best, found, accepted, -⟩ := searches.best acts ⟨root, accepts, Int.le_refl _⟩
    ((ParseRun.step?_eq_none _).1 (ends complete))
  change Accepts job .start (ParseRun.result (m := Id) job _)
  rwa [ParseRun.result, found]

end IncrementalGlr
