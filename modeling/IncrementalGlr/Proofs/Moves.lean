import IncrementalGlr.Proofs.Condense
import IncrementalGlr.Proofs.Sharing.Erase

/-!
# The moves of a version

A step of a run without a store moves one version: what comes next is pushed, a production is
reduced, a part of an earlier tree is taken over, or the version goes on after an error.  Every
version and every accepted tree of a run comes about by such moves, so what all of them preserve
holds throughout.
-/

namespace IncrementalGlr

namespace Version

/-- Whether two versions differ at most in their paths. -/
def AlikeTo (left right : Version) : Prop := left = { right with path := left.path }

theorem AlikeTo.refl (version : Version) : version.AlikeTo version := rfl

theorem AlikeTo.trans {first second third : Version} (left : first.AlikeTo second)
    (right : second.AlikeTo third) : first.AlikeTo third := by
  rw [AlikeTo] at left right ⊢
  rw [left, right]

/-- Whether a lookahead may come next for a version of a run. -/
inductive LooksAt (job : ParseJob) (reuse : Option ReuseCursor) (version : Version) :
    Lookahead → Prop
  /-- It was found before. -/
  | pending {lookahead : Lookahead} (found : version.lookahead = some lookahead) :
    LooksAt job reuse version lookahead
  /-- It is the token at the position of the version. -/
  | token (unknown : version.lookahead = none) :
    LooksAt job reuse version
      (.token
        (job.lexer.nextInState job.text version.position (job.grammar.lexState version.state))
        (job.grammar.lexState version.state))
  /-- It is a part of an earlier tree at the position of the version. -/
  | part (unknown : version.lookahead = none) {cursor : ReuseCursor} {subtree : Subtree}
      {accepts : Subtree → Bool} (reusing : reuse = some cursor)
      (found : ReuseCursor.candidate? version.position
        (ReuseCursor.seek accepts version.position cursor) = some subtree)
      (usable : subtree.isReusable = true) :
    LooksAt job reuse version (.reused subtree)

theorem LooksAt.withPath {job : ParseJob} {reuse : Option ReuseCursor} {version : Version}
    {lookahead : Lookahead} (looks : version.LooksAt job reuse lookahead) (path : List Nat) :
    Version.LooksAt job reuse { version with path } lookahead := by
  cases looks with
  | pending found => exact .pending found
  | token unknown => exact .token unknown
  | part unknown reusing found usable =>
      refine .part ?_ reusing found usable
      exact unknown

/-- The moves of a version that has a lookahead. -/
inductive Moves (job : ParseJob) (version : Version) (lookahead : Lookahead) : Version → Prop
  /-- The lookahead is shifted. -/
  | shift {next : StateId}
      (action : .shift next ∈ job.grammar.actions version.state lookahead.symbol) :
    Moves job version lookahead
      (ParseRun.pushLeaf (m := Id) job.grammar version lookahead next false)
  /-- A production is reduced. -/
  | reduce {production : ProductionId} {fragile : Bool} {reduced : Version}
      (action : .reduce production ∈ job.grammar.actions version.state lookahead.symbol)
      (result : ParseRun.reduce (m := Id) job.grammar { version with lookahead := some lookahead }
        production fragile = some reduced) :
    Moves job version lookahead reduced
  /-- The lookahead is an extra. -/
  | extra (noAction : job.grammar.actions version.state lookahead.symbol = [])
      (isExtra : job.grammar.isExtra lookahead.symbol = true)
      (notEnd : lookahead.symbol ≠ .endOfInput) :
    Moves job version lookahead
      (ParseRun.pushLeaf (m := Id) job.grammar version lookahead version.state true)
  /-- A node of an earlier tree is pushed whole. -/
  | adopt {node : Subtree} {next : StateId} (reused : lookahead = .reused node)
      (state : node.parseState = version.state)
      (goto : job.grammar.goto? version.state node.symbol = some next) :
    Moves job version lookahead
      { version.push next node with position := version.position + node.length }
  /-- A node of an earlier tree is not used whole. -/
  | reject {node : Subtree} (reused : lookahead = .reused node) :
    Moves job version lookahead version
  /-- Parsing goes on at a later token or with fewer subtrees. -/
  | resume (noAction : job.grammar.actions version.state lookahead.symbol = [])
      {forceSkip : Bool} {resumption : Resume} {token : Token}
      (found : Recovery.find? job.grammar version forceSkip
        (Recovery.window job version.position) = some resumption)
      (at_ : (Recovery.window job version.position)[resumption.skipped]? = some token) :
    Moves job version lookahead
      (Recovery.resume (m := Id) job.grammar { version with lookahead := some lookahead }
        (Recovery.window job version.position) resumption token)
  /-- A token is skipped. -/
  | skip (noAction : job.grammar.actions version.state lookahead.symbol = []) {token : Token}
      (first : (Recovery.window job version.position).head? = some token)
      (further : ((Recovery.window job version.position).getLast?).any Token.isEnd = false) :
    Moves job version lookahead
      (Recovery.skipToken (m := Id) job.grammar { version with lookahead := some lookahead } token)

/-- The trees in which a version that has a lookahead may end, up to the path. -/
inductive EndsIn (job : ParseJob) (version : Version) (lookahead : Lookahead) : Subtree → Prop
  /-- The text is accepted. -/
  | accept (action : .accept ∈ job.grammar.actions version.state lookahead.symbol) :
    EndsIn job version lookahead
      (ParseRun.foldRoot (m := Id) job.grammar version.stack.subtrees)
  /-- There is nowhere to go on. -/
  | giveUp (noAction : job.grammar.actions version.state lookahead.symbol = [])
      (ended : ((Recovery.window job version.position).getLast?).any Token.isEnd = true) :
    EndsIn job version lookahead
      (Recovery.giveUp (m := Id) job.grammar { version with lookahead := some lookahead }
        (Recovery.window job version.position)).root

end Version

namespace Recovery

/-- A token inside an error without a store. -/
def plainErrorLeaf (grammar : Grammar) (state : StateId) (token : Token) : Subtree :=
  errorLeaf (m := Id) grammar state token

theorem mapM_errorLeaf (grammar : Grammar) (state : StateId) (tokens : List Token) :
    tokens.mapM (errorLeaf (m := Id) grammar state) = tokens.map (plainErrorLeaf grammar state) := by
  induction tokens with
  | nil => rfl
  | cons token rest induction =>
      rw [List.mapM_cons, induction]
      rfl

end Recovery

namespace ReuseCursor

/-- The cursors that come about when parts are passed and broken into their children. -/
inductive Later (cursor : ReuseCursor) : ReuseCursor → Prop
  /-- Nothing has happened. -/
  | refl : Later cursor cursor
  /-- Parts are passed. -/
  | seek {later : ReuseCursor} (accepts : Subtree → Bool) (position : Nat)
      (before : Later cursor later) : Later cursor (later.seek accepts position)
  /-- The first part is broken into its children. -/
  | reject {later : ReuseCursor} (before : Later cursor later) : Later cursor later.reject

/-- Whether a property of subtrees in their places passes on to their children in theirs. -/
def Inherited (holds : Node → Prop) : Prop :=
  ∀ node, holds node → ∀ part ∈ Subtree.placed node.start node.subtree.children, holds part

section Inherited

variable {holds : Node → Prop}

mutual

theorem Inherited.openAt (inherited : Inherited holds) (accepts : Subtree → Bool)
    (position start : Nat) {subtree : Subtree} (here : holds ⟨subtree, start⟩) :
    ∀ node ∈ ReuseCursor.openAt accepts position start subtree, holds node := by
  cases subtree with
  | mk data children =>
      rw [ReuseCursor.openAt]
      split
      · exact nofun
      · split
        · exact List.forall_mem_singleton.2 here
        · exact inherited.openAllAt accepts position start (inherited _ here)

theorem Inherited.openAllAt (inherited : Inherited holds) (accepts : Subtree → Bool)
    (position start : Nat) {subtrees : List Subtree}
    (all : ∀ node ∈ Subtree.placed start subtrees, holds node) :
    ∀ node ∈ ReuseCursor.openAllAt accepts position start subtrees, holds node := by
  cases subtrees with
  | nil => exact nofun
  | cons child rest =>
      obtain ⟨first, others⟩ := List.forall_mem_cons.1 all
      have opened := inherited.openAt accepts position start first
      simp only [ReuseCursor.openAllAt]
      cases parts : ReuseCursor.openAt accepts position start child with
      | nil => exact inherited.openAllAt accepts position (start + child.length) others
      | cons part more =>
          rw [parts] at opened
          exact List.forall_mem_append.2 ⟨opened, others⟩

end

theorem Inherited.openPending (inherited : Inherited holds) (accepts : Subtree → Bool)
    (position : Nat) {nodes : List Node} (all : ∀ node ∈ nodes, holds node) :
    ∀ node ∈ ReuseCursor.openPending accepts position nodes, holds node := by
  induction nodes with
  | nil => exact nofun
  | cons node rest induction =>
      obtain ⟨first, others⟩ := List.forall_mem_cons.1 all
      have opened := inherited.openAt accepts position node.start first
      simp only [ReuseCursor.openPending]
      cases parts : ReuseCursor.openAt accepts position node.start node.subtree with
      | nil => exact induction others
      | cons part more =>
          rw [parts] at opened
          exact List.forall_mem_append.2 ⟨opened, others⟩

theorem Inherited.reject (inherited : Inherited holds) {cursor : ReuseCursor}
    (all : ∀ node ∈ cursor.pending, holds node) : ∀ node ∈ cursor.reject.pending, holds node := by
  obtain ⟨_ | ⟨node, rest⟩⟩ := cursor
  · exact all
  · obtain ⟨first, others⟩ := List.forall_mem_cons.1 all
    exact List.forall_mem_append.2 ⟨inherited node first, others⟩

/-- What passes on to children holds of all parts that are still to come. -/
theorem Inherited.later (inherited : Inherited holds) {cursor later : ReuseCursor}
    (all : ∀ node ∈ cursor.pending, holds node) (after : cursor.Later later) :
    ∀ node ∈ later.pending, holds node := by
  induction after with
  | refl => exact all
  | seek accepts position before induction => exact inherited.openPending accepts position induction
  | reject before induction => exact inherited.reject induction

end Inherited

mutual

theorem accepts_of_openAt {accepts : Subtree → Bool} {position start : Nat} {subtree : Subtree} :
    ∀ node ∈ (openAt accepts position start subtree).head?,
      position < node.start ∨ accepts node.subtree = true := by
  cases subtree with
  | mk data children =>
      rw [openAt]
      split
      · exact nofun
      · split
        · next whole =>
            rintro node ⟨⟩
            simp only [Bool.or_eq_true, Bool.and_eq_true, decide_eq_true_eq] at whole
            exact whole.imp_right And.right
        · exact accepts_of_openAllAt

theorem accepts_of_openAllAt {accepts : Subtree → Bool} {position start : Nat}
    {subtrees : List Subtree} :
    ∀ node ∈ (openAllAt accepts position start subtrees).head?,
      position < node.start ∨ accepts node.subtree = true := by
  cases subtrees with
  | nil => exact nofun
  | cons child rest =>
      have first := @accepts_of_openAt accepts position start child
      simp only [openAllAt]
      cases parts : openAt accepts position start child with
      | nil => exact accepts_of_openAllAt
      | cons part others =>
          rw [parts] at first
          exact first

end

theorem accepts_of_openPending {accepts : Subtree → Bool} {position : Nat} {nodes : List Node} :
    ∀ node ∈ (openPending accepts position nodes).head?,
      position < node.start ∨ accepts node.subtree = true := by
  induction nodes with
  | nil => exact nofun
  | cons node rest induction =>
      have first := @accepts_of_openAt accepts position node.start node.subtree
      simp only [openPending]
      cases parts : openAt accepts position node.start node.subtree with
      | nil => exact induction
      | cons part others =>
          rw [parts] at first
          exact first

/-- What is found at a position is accepted. -/
theorem accepts_of_candidate? {accepts : Subtree → Bool} {position : Nat} {cursor : ReuseCursor}
    {subtree : Subtree}
    (found : candidate? position (seek accepts position cursor) = some subtree) :
    accepts subtree = true := by
  have first := @accepts_of_openPending accepts position cursor.pending
  simp only [candidate?, seek] at found
  cases parts : openPending accepts position cursor.pending with
  | nil => simp [parts] at found
  | cons node rest =>
      rw [parts] at found first
      dsimp only at found
      split at found
      · next here =>
          obtain rfl := Option.some.inj found
          exact (first node rfl).resolve_left (by simp [beq_iff_eq.1 here])
      · cases found

end ReuseCursor

namespace ParseRun

variable {job : ParseJob} {run : ParseRun}

/-- Whether a version was there before a step, has just started or comes from a move. -/
inductive Yields (job : ParseJob) (run : ParseRun) : Version → Prop
  /-- It was there before. -/
  | stay {version kept : Version} (member : version ∈ run.versions) (alike : kept.AlikeTo version) :
    Yields job run kept
  /-- The parse has started again. -/
  | restart {version : Version} (alike : version.AlikeTo .start) : Yields job run version
  /-- A version has moved. -/
  | move {version fork moved result : Version} {lookahead : Lookahead}
      (member : version ∈ run.versions) (looks : version.LooksAt job run.reuse lookahead)
      (alike : fork.AlikeTo { version with lookahead := none })
      (moves : fork.Moves job lookahead moved) (same : result.AlikeTo moved) :
    Yields job run result

/-- Whether a tree was accepted before a step or is accepted by it. -/
inductive Ends (job : ParseJob) (run : ParseRun) : Finished → Prop
  /-- It was there before. -/
  | stay {finished : Finished} (member : finished ∈ run.finished) : Ends job run finished
  /-- A version has ended. -/
  | finish {version fork : Version} {lookahead : Lookahead} {finished : Finished}
      (member : version ∈ run.versions) (looks : version.LooksAt job run.reuse lookahead)
      (alike : fork.AlikeTo { version with lookahead := none })
      (ends : fork.EndsIn job lookahead finished.root) : Ends job run finished

/-- Whether all of a run comes from another run by one step at most. -/
structure ComesFrom (job : ParseJob) (run next : ParseRun) : Prop where
  /-- Where its versions come from. -/
  versions : ∀ version ∈ next.versions, Yields job run version
  /-- Where its accepted trees come from. -/
  finished : ∀ finished ∈ next.finished, Ends job run finished
  /-- Where its cursor comes from. -/
  reuse : ∀ later ∈ next.reuse, ∃ cursor ∈ run.reuse, cursor.Later later

theorem Yields.alike {version other : Version} (yields : Yields job run version)
    (alike : other.AlikeTo version) : Yields job run other := by
  cases yields with
  | stay member same => exact .stay member (alike.trans same)
  | restart same => exact .restart (alike.trans same)
  | move member looks fork moves same => exact .move member looks fork moves (alike.trans same)

namespace ComesFrom

variable {current : ParseRun}

theorem insertAt (base : ComesFrom job run current) (index : Nat) {versions : List Version}
    (yields : ∀ version ∈ versions, Yields job run version) :
    ComesFrom job run (current.insertAt index versions) := by
  refine ⟨fun version member => ?_, base.finished, base.reuse⟩
  simp only [ParseRun.insertAt, List.mem_append] at member
  rcases member with (before | new) | after
  · exact base.versions version (List.mem_of_mem_take before)
  · exact yields version new
  · exact base.versions version (List.mem_of_mem_drop after)

theorem countReuse (base : ComesFrom job run current) (lookahead : Lookahead) :
    ComesFrom job run (ParseRun.countReuse lookahead current) := by
  cases lookahead <;> exact ⟨base.versions, base.finished, base.reuse⟩

theorem condense (base : ComesFrom job run current) : ComesFrom job run current.condense := by
  refine ⟨fun version member => ?_, ?_, ?_⟩
  · obtain ⟨origin, originMember, same⟩ := current.mem_condense member
    exact (base.versions origin originMember).alike same
  · rw [condense_finished]
    exact base.finished
  · rw [condense_reuse]
    exact base.reuse

end ComesFrom

/-- The reduction before a node is an action on its first token. -/
theorem reductionBefore?_allowed {grammar : Grammar} {state : StateId} {node : Subtree}
    {production : ProductionId} (isNode : node.isLeaf = false)
    (before : reductionBefore? grammar state node = some production) :
    .reduce production ∈ grammar.actions state (Lookahead.reused node).symbol := by
  unfold reductionBefore? at before
  obtain ⟨leaf, first, rest⟩ := Option.bind_eq_some_iff.1 before
  have symbol : (Lookahead.reused node).symbol = leaf.symbol := by
    simp [Lookahead.symbol, isNode, first]
  rw [symbol]
  split at rest
  · split at rest
    · next found only =>
        cases rest
        rw [only]
        exact List.mem_singleton_self _
    · cases rest
  · cases rest

section Step

variable {current : ParseRun} {version fork : Version} {lookahead : Lookahead}
  (base : ComesFrom job run current) (member : version ∈ run.versions)
  (looks : version.LooksAt job run.reuse lookahead)
  (alike : fork.AlikeTo { version with lookahead := none })

include base member looks alike

theorem apply_comesFrom (fragile : Bool) {action : Action}
    (allowed : action ∈ job.grammar.actions fork.state lookahead.symbol) :
    ComesFrom job run
        (apply (m := Id) job.grammar fork lookahead fragile current action).1 ∧
      ∀ result ∈ (apply (m := Id) job.grammar fork lookahead fragile current action).2,
        Yields job run result := by
  cases action with
  | shift next =>
      refine ⟨base.countReuse lookahead, ?_⟩
      rintro _ ⟨⟩
      exact .move member looks alike (.shift allowed) (.refl _)
  | reduce production =>
      refine ⟨base, fun result reduced => ?_⟩
      exact .move member looks alike (.reduce allowed reduced) (.refl _)
  | accept =>
      refine ⟨⟨base.versions, fun finished ended => ?_, base.reuse⟩, fun result none => by
        cases none⟩
      rcases List.mem_append.1 ended with before | new
      · exact base.finished finished before
      · obtain rfl := List.mem_singleton.1 new
        exact .finish member looks alike (.accept allowed)

theorem applyAll_comesFrom (fragile : Bool) (alternative : Nat) {actions : List Action}
    (allowed : ∀ action ∈ actions, action ∈ job.grammar.actions fork.state lookahead.symbol) :
    ComesFrom job run
        (applyAll (m := Id) job.grammar fork lookahead fragile alternative current actions).1 ∧
      ∀ result ∈
          (applyAll (m := Id) job.grammar fork lookahead fragile alternative current actions).2,
        Yields job run result := by
  induction actions generalizing alternative current with
  | nil => exact ⟨base, fun result none => absurd none List.not_mem_nil⟩
  | cons action rest induction =>
      have forked : Version.AlikeTo { fork with path := fork.path ++ [alternative] }
          { version with lookahead := none } := by
        rw [Version.AlikeTo] at alike ⊢
        rw [alike]
      obtain ⟨applied, result⟩ := apply_comesFrom base member looks forked fragile
        (allowed action List.mem_cons_self)
      obtain ⟨others, results⟩ := induction applied (alternative + 1)
        fun other later => allowed other (List.mem_cons_of_mem action later)
      refine ⟨others, fun found foundMember => ?_⟩
      rcases List.mem_append.1 foundMember with first | later
      · exact result found (Option.mem_toList.1 first)
      · exact results found later

theorem recover_comesFrom
    (noAction : job.grammar.actions fork.state lookahead.symbol = []) :
    ComesFrom job run
      (recover (m := Id) job { fork with lookahead := some lookahead } current) := by
  have going : ∀ {moved : Version}, fork.Moves job lookahead moved →
      ∀ result ∈ current.versions ++ [moved], Yields job run result := by
    intro moved moves result resultMember
    rcases List.mem_append.1 resultMember with before | new
    · exact base.versions result before
    · obtain rfl := List.mem_singleton.1 new
      exact .move member looks alike moves (.refl _)
  unfold recover
  dsimp only
  split
  · next resumption token target =>
      obtain ⟨found, foundEq, rest⟩ := Option.bind_eq_some_iff.1 target
      obtain ⟨next, at_, same⟩ := Option.bind_eq_some_iff.1 rest
      cases same
      exact ⟨going (.resume noAction foundEq at_), base.finished, base.reuse⟩
  · split
    · next ended =>
        refine ⟨base.versions, fun finished finishedMember => ?_, base.reuse⟩
        rcases List.mem_append.1 finishedMember with before | new
        · exact base.finished finished before
        · obtain rfl := List.mem_singleton.1 new
          exact .finish member looks alike (.giveUp noAction ended)
    · next further =>
        split
        · next token first =>
            exact ⟨going (.skip noAction first (Bool.not_eq_true _ ▸ further)), base.finished,
              base.reuse⟩
        · exact ⟨base.versions, base.finished, base.reuse⟩

theorem withoutAction_comesFrom (index : Nat)
    (noAction : job.grammar.actions fork.state lookahead.symbol = []) :
    ComesFrom job run (withoutAction (m := Id) job index fork lookahead current) := by
  unfold withoutAction
  dsimp only
  split
  · next extra =>
      simp only [Bool.and_eq_true, decide_eq_true_eq] at extra
      refine (base.countReuse lookahead).insertAt index fun result resultMember => ?_
      obtain rfl := List.mem_singleton.1 resultMember
      exact .move member looks alike (.extra noAction extra.1.1 extra.1.2) (.refl _)
  · split
    · split
      · refine ⟨fun result resultMember => ?_, fun finished none => absurd none List.not_mem_nil,
          fun later none => by cases none⟩
        obtain rfl := List.mem_singleton.1 resultMember
        exact .restart (.refl _)
      · exact recover_comesFrom base member looks alike noAction
    · exact base

theorem act_comesFrom (index : Nat) :
    ComesFrom job run (act (m := Id) job index fork lookahead current) := by
  unfold act
  dsimp only
  split
  · next noAction => exact withoutAction_comesFrom base member looks alike index noAction
  · next action only =>
      have allowed : action ∈ job.grammar.actions fork.state lookahead.symbol :=
        only ▸ List.mem_singleton_self action
      obtain ⟨applied, result⟩ := apply_comesFrom base member looks alike
        (!current.versions.isEmpty) allowed
      exact applied.insertAt index fun found foundMember =>
        result found (Option.mem_toList.1 foundMember)
  · next actions _ _ =>
      have all : ∀ action ∈ job.grammar.actions fork.state lookahead.symbol,
          action ∈ job.grammar.actions fork.state lookahead.symbol := fun action allowed => allowed
      obtain ⟨applied, results⟩ := applyAll_comesFrom base member looks alike true 0 all
      exact applied.insertAt index results

theorem reuseNode_comesFrom (index : Nat) {node : Subtree} (reused : lookahead = .reused node)
    (isNode : node.isLeaf = false) :
    ComesFrom job run (reuseNode (m := Id) job.grammar index fork node current) := by
  unfold reuseNode
  dsimp only
  generalize pushed : (if (current.versions.isEmpty &&
    Subtree.canPushNode job.grammar fork.state node) = true then
      job.grammar.goto? fork.state node.symbol else none) = next
  rcases next with _ | next
  · cases before : reductionBefore? job.grammar fork.state node with
    | none =>
        have rejected : ComesFrom job run
            { current with reuse := current.reuse.map ReuseCursor.reject } := by
          refine ⟨base.versions, base.finished, fun later laterMember => ?_⟩
          obtain ⟨cursor, cursorMember, rfl⟩ := Option.map_eq_some_iff.1 laterMember
          obtain ⟨origin, originMember, before⟩ := base.reuse cursor cursorMember
          exact ⟨origin, originMember, .reject before⟩
        refine rejected.insertAt index fun result resultMember => ?_
        obtain rfl := List.mem_singleton.1 resultMember
        exact .move member looks alike (.reject reused) (.refl _)
    | some production =>
        have allowed := reductionBefore?_allowed isNode before
        refine base.insertAt index fun result reduced => ?_
        rw [← reused] at allowed reduced
        exact .move member looks alike (.reduce allowed (Option.mem_toList.1 reduced)) (.refl _)
  · have counted : ComesFrom job run { current with stats := current.stats.countReused } :=
      ⟨base.versions, base.finished, base.reuse⟩
    refine counted.insertAt index fun result resultMember => ?_
    obtain rfl := List.mem_singleton.1 resultMember
    split at pushed
    · next pushable =>
        simp only [Bool.and_eq_true, Subtree.canPushNode, decide_eq_true_eq] at pushable
        exact .move member looks alike (.adopt reused pushable.2.1.1 pushed) (.refl _)
    · cases pushed

end Step

theorem nextLookahead_comesFrom {current : ParseRun} {version : Version}
    (base : ComesFrom job run current) (same : current.reuse = run.reuse)
    (unknown : version.lookahead = none) :
    ComesFrom job run (nextLookahead job version current).1 ∧
      version.LooksAt job run.reuse (nextLookahead job version current).2 := by
  unfold nextLookahead
  dsimp only
  by_cases alone : current.versions.isEmpty = true
  · rw [if_pos alone, if_pos alone, same]
    cases reusing : run.reuse with
    | none => exact ⟨⟨base.versions, base.finished, fun later none => by cases none⟩, .token unknown⟩
    | some cursor =>
        have sought : ∀ (accepts : Subtree → Bool) (stats : ParseStats), ComesFrom job run
            { current with reuse := some (cursor.seek accepts version.position), stats } := by
          intro accepts stats
          refine ⟨base.versions, base.finished, fun later laterMember => ?_⟩
          obtain rfl := Option.some.inj laterMember
          exact ⟨cursor, reusing, .seek accepts version.position (.refl)⟩
        dsimp only [Option.map_some, Option.bind_some]
        split
        · next subtree found =>
            have usable := ReuseCursor.accepts_of_candidate? found
            rw [Bool.and_eq_true] at usable
            exact ⟨sought _ _, .part unknown rfl found usable.1⟩
        · exact ⟨sought _ _, .token unknown⟩
  · rw [if_neg alone, if_neg alone]
    exact ⟨⟨base.versions, base.finished, base.reuse⟩, .token unknown⟩

theorem onLookahead_comesFrom {current : ParseRun} {version : Version} {lookahead : Lookahead}
    (base : ComesFrom job run current) (member : version ∈ run.versions)
    (looks : version.LooksAt job run.reuse lookahead) (index : Nat) :
    ComesFrom job run
      (current.onLookahead (m := Id) job index { version with lookahead := none } lookahead) := by
  cases lookahead with
  | token => exact act_comesFrom base member looks (.refl _) index
  | reused node =>
      unfold onLookahead
      dsimp only
      split
      · exact act_comesFrom base member looks (.refl _) index
      · next isNode =>
          exact reuseNode_comesFrom base member looks (.refl _) index rfl
            (Bool.not_eq_true _ ▸ isNode)

/-- Everything in a run comes from the run before. -/
theorem step?_comesFrom {next : ParseRun} (stepped : run.step? (m := Id) job = some next) :
    ComesFrom job run next := by
  unfold step? at stepped
  obtain ⟨index, indexFound, rest⟩ := Option.bind_eq_some_iff.1 stepped
  obtain ⟨version, found, same⟩ := Option.bind_eq_some_iff.1 rest
  obtain rfl := Option.some.inj same
  have member : version ∈ run.versions := List.mem_of_getElem? found
  have base : ComesFrom job run { run with versions := run.versions.eraseIdx index } := by
    refine ⟨fun other otherMember => ?_, fun finished finishedMember => .stay finishedMember,
      fun cursor cursorMember => ⟨cursor, cursorMember, .refl⟩⟩
    exact .stay ((List.eraseIdx_sublist _ _).subset otherMember) (.refl other)
  refine ComesFrom.condense ?_
  cases pending : version.lookahead with
  | some lookahead =>
      rw [advance_of_pending pending]
      exact onLookahead_comesFrom base member (.pending pending) index
  | none =>
      obtain ⟨nextBase, nextLooks⟩ := nextLookahead_comesFrom base rfl pending
      rw [advance_of_unknown pending]
      exact onLookahead_comesFrom nextBase member nextLooks index

/-- The runs that come about from a run by steps. -/
inductive Reaches (job : ParseJob) (run : ParseRun) : ParseRun → Prop
  /-- No step is made. -/
  | refl : Reaches job run run
  /-- One more step is made. -/
  | step {last next : ParseRun} (before : Reaches job run last)
      (stepped : last.step? (m := Id) job = some next) : Reaches job run next

theorem Reaches.head {first next last : ParseRun} (stepped : first.step? (m := Id) job = some next)
    (reaches : Reaches job next last) : Reaches job first last := by
  induction reaches with
  | refl => exact .step .refl stepped
  | step before stepped induction => exact .step induction stepped

/-- A bounded run makes steps only, and it is complete only if no further step is possible. -/
theorem runFor_reaches (deadline : Option Nat) (made operations : Nat) (run : ParseRun) :
    Reaches job run (runFor (m := Id) job deadline made operations run).1 ∧
      ((runFor (m := Id) job deadline made operations run).2 = .complete →
        (runFor (m := Id) job deadline made operations run).1.step? (m := Id) job = none) := by
  induction operations generalizing made run with
  | zero =>
      refine ⟨.refl, fun complete => ?_⟩
      change (if (run.step? (m := Id) job).isSome then ParseStatus.cancelled .operationLimit
        else .complete) = .complete at complete
      change run.step? (m := Id) job = none
      cases stepped : run.step? (m := Id) job with
      | none => rfl
      | some next => simp [stepped] at complete
  | succ operations induction =>
      unfold runFor
      cases stepped : run.step? (m := Id) job with
      | none => exact ⟨.refl, fun _ => stepped⟩
      | some next =>
          dsimp only
          split
          · exact ⟨.refl, fun complete => by cases complete⟩
          · obtain ⟨reaches, complete⟩ := induction (made + 1) next
            exact ⟨.head stepped reaches, complete⟩

/-- A run without a further step has no version left. -/
theorem step?_eq_none {m : Type → Type} [Monad m] [SubtreeMaker m] (run : ParseRun) :
    run.step? (m := m) job = none ↔ run.versions = [] := by
  constructor
  · intro stuck
    cases leastMin : (run.versions.map Version.position).min? with
    | none => simpa using leastMin
    | some least =>
        obtain ⟨version, member, position⟩ := List.mem_map.1 (List.min?_mem leastMin)
        cases found : run.versions.findIdx? fun version => version.position == least with
        | none =>
            have different := List.findIdx?_eq_none_iff.1 found version member
            simp [position] at different
        | some index =>
            have inside : index < run.versions.length :=
              (List.findIdx?_eq_some_iff_getElem.1 found).1
            simp [step?, nextIndex?, leastMin, found, List.getElem?_eq_getElem inside] at stuck
  · intro none
    simp [step?, nextIndex?, none]

/-- Whether properties of versions, of accepted trees and of cursors are preserved by all moves. -/
structure Preserved (job : ParseJob) (holds : Version → Prop) (final : Subtree → Prop)
    (offers : ReuseCursor → Prop) : Prop where
  /-- The path of a version does not matter. -/
  alike {version other : Version} : holds version → other.AlikeTo version → holds other
  /-- The version at the start of the text has the property. -/
  start : holds .start
  /-- Moves preserve the property. -/
  move {reuse : Option ReuseCursor} {version moved : Version} {lookahead : Lookahead} :
    (∀ cursor ∈ reuse, offers cursor) → holds version → version.LooksAt job reuse lookahead →
      Version.Moves job { version with lookahead := none } lookahead moved → holds moved
  /-- Accepted trees have their property. -/
  finish {reuse : Option ReuseCursor} {version : Version} {lookahead : Lookahead}
    {root : Subtree} :
    (∀ cursor ∈ reuse, offers cursor) → holds version → version.LooksAt job reuse lookahead →
      Version.EndsIn job { version with lookahead := none } lookahead root → final root
  /-- Cursors keep their property. -/
  later {cursor later : ReuseCursor} : offers cursor → cursor.Later later → offers later

/-- Whether all versions, accepted trees and cursors of a run have their properties. -/
structure Keeps (holds : Version → Prop) (final : Subtree → Prop) (offers : ReuseCursor → Prop)
    (run : ParseRun) : Prop where
  /-- The property of its versions. -/
  versions : ∀ version ∈ run.versions, holds version
  /-- The property of its accepted trees. -/
  finished : ∀ finished ∈ run.finished, final finished.root
  /-- The property of its cursor. -/
  reuse : ∀ cursor ∈ run.reuse, offers cursor

section Preservation

variable {holds : Version → Prop} {final : Subtree → Prop} {offers : ReuseCursor → Prop}

theorem Preserved.step (preserved : Preserved job holds final offers) {next : ParseRun}
    (keeps : run.Keeps holds final offers) (stepped : run.step? (m := Id) job = some next) :
    next.Keeps holds final offers := by
  obtain ⟨versions, finished, reuse⟩ := step?_comesFrom stepped
  refine ⟨fun version member => ?_, fun tree member => ?_, fun later member => ?_⟩
  · cases versions version member with
    | stay origin alike => exact preserved.alike (keeps.versions _ origin) alike
    | restart alike => exact preserved.alike preserved.start alike
    | @move origin fork moved _ lookahead originMember looks forked moves same =>
        have originHolds := keeps.versions origin originMember
        have forkHolds : holds { origin with path := fork.path } :=
          preserved.alike originHolds rfl
        have forkLooks := looks.withPath fork.path
        rw [Version.AlikeTo] at forked
        rw [forked] at moves
        exact preserved.alike (preserved.move keeps.reuse forkHolds forkLooks moves) same
  · cases finished tree member with
    | stay origin => exact keeps.finished tree origin
    | @finish origin fork lookahead _ originMember looks forked ends =>
        have originHolds := keeps.versions origin originMember
        have forkHolds : holds { origin with path := fork.path } :=
          preserved.alike originHolds rfl
        have forkLooks := looks.withPath fork.path
        rw [Version.AlikeTo] at forked
        rw [forked] at ends
        exact preserved.finish keeps.reuse forkHolds forkLooks ends
  · obtain ⟨cursor, cursorMember, before⟩ := reuse later member
    exact preserved.later (keeps.reuse cursor cursorMember) before

/-- What all moves preserve holds throughout a run. -/
theorem Preserved.reaches (preserved : Preserved job holds final offers) {last : ParseRun}
    (keeps : run.Keeps holds final offers) (reaches : Reaches job run last) :
    last.Keeps holds final offers := by
  induction reaches with
  | refl => exact keeps
  | step before stepped induction => exact preserved.step induction stepped

theorem Preserved.keeps_start (preserved : Preserved job holds final offers)
    {reuse : Option ReuseCursor} (offered : ∀ cursor ∈ reuse, offers cursor) :
    (ParseRun.start reuse).Keeps holds final offers := by
  refine ⟨fun version member => ?_, fun tree none => absurd none List.not_mem_nil, offered⟩
  obtain rfl := List.mem_singleton.1 member
  exact preserved.start

/-- What all moves preserve holds at the end of a bounded run. -/
theorem Preserved.runFor (preserved : Preserved job holds final offers)
    {reuse : Option ReuseCursor} (offered : ∀ cursor ∈ reuse, offers cursor)
    (deadline : Option Nat) (made operations : Nat) :
    (ParseRun.runFor (m := Id) job deadline made operations (.start reuse)).1.Keeps holds final
      offers :=
  preserved.reaches (preserved.keeps_start offered) (runFor_reaches deadline made operations _).1

/-- What all moves preserve holds throughout a run without an earlier tree, whatever may be asked of
its parts. -/
theorem Preserved.fresh (preserved : Preserved job holds final offers) {last : ParseRun}
    (reaches : Reaches job (.start none) last) : last.Keeps holds final offers :=
  preserved.reaches (preserved.keeps_start fun _ never => by cases never) reaches

end Preservation

end ParseRun

end IncrementalGlr
