import IncrementalGlr.Proofs.Coverage.Parse
import IncrementalGlr.Proofs.Search.Machine
import IncrementalGlr.Proofs.Termination.Weight

/-!
# The effort of versions

The effort of a version is the length of the text that it has passed and the weight of its stack.
Every step of the machine costs effort, and the text bounds it.  Recovery may undo work, but what it
leaves on the stack was there before or is an extra.
-/

namespace IncrementalGlr

open Grammar.ComesFrom (ItemsOf)
open Version (Advances)

/-- Work that a version has done: how far it has come, and shifts and reductions on its stack. -/
def Version.effort (version : Version) : Nat :=
  version.position + Subtree.weightAll version.stack.subtrees

namespace Recovery

variable {grammar : Grammar} {version : Version} {subtree : Subtree}

/-- Errors are extras. -/
theorem mem_of_pushError {children : List Subtree}
    (member : subtree ∈
      ParseStack.subtrees (Version.stack (pushError (m := Id) grammar version children)))
    (notExtra : subtree.isExtra = false) : subtree ∈ version.stack.subtrees := by
  have other : ∀ {below : ParseStack} {state : StateId} {nodes : List Subtree},
      subtree ∈ ParseStack.subtrees (⟨state, errorNode (m := Id) grammar nodes⟩ :: below) →
        subtree ∈ below.subtrees := by
    intro below state nodes inside
    rw [ParseStack.subtrees_cons] at inside
    refine (List.mem_append.1 inside).resolve_right fun single => ?_
    rw [List.mem_singleton.1 single] at notExtra
    cases notExtra
  obtain ⟨stack, position, lookahead, path⟩ := version
  cases children with
  | nil => exact member
  | cons child rest =>
      cases stack with
      | nil => exact other member
      | cons entry below =>
          unfold pushError at member
          dsimp only at member
          rw [if_neg (by simp)] at member
          split at member
          · rw [ParseStack.subtrees_cons]
            exact List.mem_append_left _ (other member)
          · exact other member

theorem mem_of_pushExtras {tokens : List Token}
    (member : subtree ∈ ParseStack.subtrees
      (Version.stack (tokens.foldlM (pushExtra (m := Id) grammar) version)))
    (notExtra : subtree.isExtra = false) : subtree ∈ version.stack.subtrees := by
  induction tokens generalizing version with
  | nil => exact member
  | cons token rest induction =>
      have pushed : subtree ∈
          ParseStack.subtrees (Version.stack (pushExtra (m := Id) grammar version token)) :=
        induction member
      change subtree ∈ ParseStack.subtrees (_ :: version.stack) at pushed
      rw [ParseStack.subtrees_cons] at pushed
      refine (List.mem_append.1 pushed).resolve_right fun single => ?_
      rw [List.mem_singleton.1 single] at notExtra
      cases notExtra

/-- When parsing goes on after an error, only extras are new on the stack. -/
theorem mem_of_resume {window : List Token} {resumption : Resume} {token : Token}
    (member : subtree ∈ ParseStack.subtrees
      (Version.stack (resume (m := Id) grammar version window resumption token)))
    (notExtra : subtree.isExtra = false) : subtree ∈ version.stack.subtrees := by
  have pushed := mem_of_pushError (mem_of_pushExtras member notExtra) notExtra
  change subtree ∈ ParseStack.subtrees (ParseStack.pushAll _ _ _) at pushed
  rw [ParseStack.subtrees_pushAll] at pushed
  rw [← version.stack.subtrees_take_drop resumption.popped]
  refine List.mem_append.2 ((List.mem_append.1 pushed).imp_right fun leading => ?_)
  exact (List.takeWhile_prefix Subtree.isExtra).subset leading

theorem mem_of_skipToken {token : Token}
    (member : subtree ∈ ParseStack.subtrees
      (Version.stack (skipToken (m := Id) grammar version token)))
    (notExtra : subtree.isExtra = false) : subtree ∈ version.stack.subtrees :=
  mem_of_pushError member notExtra

end Recovery

/-- What comes next for a version is what it looks at. -/
theorem Version.looksAt_upcoming {job : ParseJob} {reuse : Option ReuseCursor} {version : Version} :
    version.LooksAt job reuse (version.upcoming job) := by
  unfold upcoming
  cases known : version.lookahead with
  | some lookahead => exact .pending known
  | none => exact .token known

/-- A step of the machine is a move. -/
theorem Version.Advances.moves {job : ParseJob} {version next : Version}
    (advances : Advances job version next) :
    Version.Moves job { version with lookahead := none } (version.upcoming job) next := by
  cases advances with
  | act listed performs =>
      cases performs with
      | shift => exact .shift listed
      | reduce fragile result => exact .reduce listed result
  | extra noAction isExtra notEnd => exact .extra noAction isExtra notEnd

/-- Whether a version has come along a path of states, has the text up to its position on its stack,
and its stack is no heavier than it must be. -/
structure Version.Frugal (plain : PlainGrammar) (items : StateId → Lalr.Item → Prop) (text : Text)
    (version : Version) : Prop where
  /-- The path. -/
  derives : version.Derives plain items
  /-- The text. -/
  covers : version.Covers text
  /-- The weights. -/
  light : Subtree.AllLight plain version.stack.subtrees

namespace ParseRun

variable {job : ParseJob} {plain : PlainGrammar} {items : StateId → Lalr.Item → Prop}
  {version : Version} {lookahead : Lookahead}

/-- What comes next for a frugal version is a token. -/
theorem upcoming_isToken (frugal : version.Frugal plain items job.text) :
    (version.upcoming job).IsToken :=
  looksAt_isToken (fun _ none => by cases none) frugal.derives.lookahead
    (@Version.looksAt_upcoming job none version)

theorem upcoming_fits (inside : job.StaysInside) (frugal : version.Frugal plain items job.text) :
    (version.upcoming job).Fits job.text version.position :=
  looksAt_fits inside (fun _ none => by cases none) frugal.covers
    (@Version.looksAt_upcoming job none version)

/-- The leaf of a token is light and is not empty. -/
theorem leafOf_light (state : StateId) (extra : Bool) (isToken : lookahead.IsToken)
    (bound : version.position ≤ job.text.size)
    (fits : lookahead.Fits job.text version.position) (notEnd : lookahead.symbol ≠ .endOfInput) :
    0 < Subtree.length (leafOf (m := Id) job.grammar state extra lookahead) ∧
      Subtree.Light plain (leafOf (m := Id) job.grammar state extra lookahead) := by
  obtain ⟨token, lexState, rfl⟩ := isToken
  have stands : token.StandsAt job.text version.position := fits
  have positive := stands.length_pos bound notEnd
  exact ⟨positive, Subtree.light_of_token rfl positive⟩

theorem pushLeaf_light (next : StateId) (extra : Bool) (isToken : lookahead.IsToken)
    (covers : version.Covers job.text)
    (fits : lookahead.Fits job.text version.position) (notEnd : lookahead.symbol ≠ .endOfInput)
    (light : Subtree.AllLight plain version.stack.subtrees) :
    let pushed : Version := pushLeaf (m := Id) job.grammar version lookahead next extra
    Subtree.AllLight plain pushed.stack.subtrees ∧ version.effort < pushed.effort := by
  intro pushed
  obtain ⟨leaf, same⟩ : ∃ leaf : Subtree,
      leaf = leafOf (m := Id) job.grammar version.state extra lookahead := ⟨_, rfl⟩
  obtain ⟨positive, leafLight⟩ :=
    @leafOf_light job plain version lookahead version.state extra isToken covers.bound fits notEnd
  rw [← same] at positive leafLight
  have subtrees : pushed.stack.subtrees = version.stack.subtrees ++ [leaf] :=
    same ▸ ParseStack.subtrees_cons ..
  have position : pushed.position = version.position + leaf.length := same ▸ rfl
  constructor
  · rw [subtrees]
    intro subtree member notExtra
    rcases List.mem_append.1 member with old | new
    · exact light subtree old notExtra
    · exact List.mem_singleton.1 new ▸ leafLight
  · rw [Version.effort, Version.effort, subtrees, Subtree.weightAll_append, position]
    omega

theorem position_of_reduce {grammar : Grammar} {production : ProductionId} {fragile : Bool}
    {reduced : Version}
    (result : reduce (m := Id) grammar version production fragile = some reduced) :
    reduced.position = version.position := by
  obtain ⟨stack, rfl⟩ := eq_of_reduce result
  rfl

/-- A reduction keeps a stack light and adds one to its weight. -/
theorem reduce_light (works : job.grammar.WorksOn plain items) (acyclic : plain.Acyclic)
    (path : version.stack.Spells plain items)
    (light : Subtree.AllLight plain version.stack.subtrees) {symbol : Symbol}
    {production : ProductionId}
    (action : .reduce production ∈ job.grammar.actions version.state symbol) {fragile : Bool}
    {reduced : Version}
    (result : reduce (m := Id) job.grammar version production fragile = some reduced) :
    Subtree.AllLight plain reduced.stack.subtrees ∧ reduced.effort = version.effort + 1 := by
  obtain ⟨source, sourceFound, taken, after, below, next, found, -, symbols, extras, goto, -⟩ :=
    path.reducible works action
  obtain ⟨following, made⟩ := reduce_eq_some fragile found goto
  obtain rfl := Option.some.inj (result.symm.trans made)
  have parts := ParseStack.takeChildren_subtrees found
  rw [← parts] at light
  have node : (reducedNode job.grammar below.state production fragile following taken).Light
      plain := by
    refine Subtree.light_of_production acyclic (List.mem_of_getElem? sourceFound) symbols
      (fun child member => light child
        (List.mem_append_left _ (List.mem_append_right _ member))) rfl rfl
      (works.production sourceFound).1 rfl
  generalize nodeEq : reducedNode job.grammar below.state production fragile following taken =
    reduction at node
  have weight : reduction.weight = Subtree.weightAll taken + 1 := by
    rw [← nodeEq]
    exact Subtree.weight_plain rfl
  have subtrees : ParseStack.subtrees
      (ParseStack.pushAll (⟨next, reduction⟩ :: below) next after) =
        below.subtrees ++ [reduction] ++ after := by
    rw [ParseStack.subtrees_pushAll, ParseStack.subtrees_cons]
  constructor
  · change Subtree.AllLight plain (ParseStack.subtrees (ParseStack.pushAll _ next after))
    rw [subtrees]
    intro subtree member notExtra
    rcases List.mem_append.1 member with inside | trailing
    · rcases List.mem_append.1 inside with under | top
      · exact light subtree
          (List.mem_append_left _ (List.mem_append_left _ under)) notExtra
      · exact List.mem_singleton.1 top ▸ node
    · exact light subtree (List.mem_append_right _ trailing) notExtra
  · change version.position + Subtree.weightAll
      (ParseStack.subtrees (ParseStack.pushAll _ next after)) = _
    rw [subtrees, Version.effort, ← parts]
    simp only [Subtree.weightAll_append, Subtree.weightAll, weight]
    omega

section Moves

variable (works : job.grammar.WorksOn plain items) (acyclic : plain.Acyclic)
  (inside : job.StaysInside)

include works acyclic inside

theorem move_light (frugal : version.Frugal plain items job.text) (isToken : lookahead.IsToken)
    (fits : lookahead.Fits job.text version.position) {moved : Version}
    (moves : version.Moves job lookahead moved) :
    Subtree.AllLight plain moved.stack.subtrees := by
  cases moves with
  | shift action =>
      refine (pushLeaf_light _ _ isToken frugal.covers fits (fun ended => ?_) frugal.light).1
      rw [ended] at action
      exact inside.reserved.shift action
  | @reduce production fragile reduced action result =>
      exact (@reduce_light job plain items { version with lookahead := some lookahead } works
        acyclic frugal.derives.stack.path frugal.light _ _ action _ _ result).1
  | extra noAction isExtra notEnd =>
      exact (pushLeaf_light _ _ isToken frugal.covers fits notEnd frugal.light).1
  | adopt reused =>
      obtain ⟨token, lexState, same⟩ := isToken
      cases reused.symm.trans same
  | reject reused =>
      obtain ⟨token, lexState, same⟩ := isToken
      cases reused.symm.trans same
  | resume =>
      exact fun subtree member notExtra => frugal.light subtree
        (@Recovery.mem_of_resume job.grammar { version with lookahead := some lookahead } subtree
          _ _ _ member notExtra) notExtra
  | skip =>
      exact fun subtree member notExtra => frugal.light subtree
        (@Recovery.mem_of_skipToken job.grammar { version with lookahead := some lookahead } subtree
          _ member notExtra) notExtra

/-- Without an earlier tree all moves keep versions frugal. -/
theorem frugal_preserved :
    Preserved job (Version.Frugal plain items job.text) (fun _ => True) (fun _ => False) where
  alike frugal alike := by
    refine ⟨(derives_preserved works).alike frugal.derives alike,
      (covers_preserved inside).alike frugal.covers alike, ?_⟩
    rw [Version.AlikeTo] at alike
    rw [alike]
    exact frugal.light
  start := ⟨(derives_preserved works).start, (covers_preserved inside).start,
    fun _ never => absurd never List.not_mem_nil⟩
  move {_ version _ lookahead} fresh frugal looks moves := by
    have offered : ∀ cursor ∈ _, ReuseCursor.Fits job.text cursor :=
      fun cursor member => (fresh cursor member).elim
    refine ⟨(derives_preserved works).move fresh frugal.derives looks moves,
      (covers_preserved inside).move offered frugal.covers looks moves, ?_⟩
    have forgotten : Version.Frugal plain items job.text { version with lookahead := none } :=
      ⟨⟨frugal.derives.stack, fun _ none => by cases none⟩, frugal.covers.forget, frugal.light⟩
    have fits := looksAt_fits inside offered frugal.covers looks
    exact move_light works acyclic inside forgotten
      (looksAt_isToken fresh frugal.derives.lookahead looks) fits moves
  finish _ _ _ _ := trivial
  later never _ := never

theorem advances_frugal (frugal : version.Frugal plain items job.text) {next : Version}
    (advances : Advances job version next) : next.Frugal plain items job.text :=
  (frugal_preserved works acyclic inside).move (fun _ none => by cases none) frugal
    (@Version.looksAt_upcoming job none version) advances.moves

/-- A step of the machine costs effort and leads no way back. -/
theorem advances_effort (frugal : version.Frugal plain items job.text) {next : Version}
    (advances : Advances job version next) :
    version.effort < next.effort ∧ version.position ≤ next.position := by
  have isToken := @upcoming_isToken job _ _ _ frugal
  have fits := upcoming_fits inside frugal
  cases advances with
  | @act action next listed performs =>
      cases performs with
      | shift =>
          refine ⟨(pushLeaf_light _ _ isToken frugal.covers fits (fun ended => ?_)
            frugal.light).2, Nat.le_add_right _ _⟩
          rw [ended] at listed
          exact inside.reserved.shift listed
      | @reduce production fragile _ result =>
          have effort := (@reduce_light job plain items
            { version with lookahead := some (version.upcoming job) } works acyclic
            frugal.derives.stack.path frugal.light _ _ listed _ _ result).2
          exact ⟨effort.symm ▸ Nat.lt_succ_self _, (position_of_reduce result).ge⟩
  | extra noAction isExtra notEnd notError =>
      exact ⟨(pushLeaf_light _ _ isToken frugal.covers fits notEnd frugal.light).2,
        Nat.le_add_right _ _⟩

end Moves

end ParseRun

/-- Effort that no version in a text of a length exceeds. -/
noncomputable def PlainGrammar.maxEffort (plain : PlainGrammar) (length : Nat) : Nat :=
  length + plain.maxWeight length

/-- The text bounds the effort of a frugal version. -/
theorem Version.Frugal.effort_le {plain : PlainGrammar} {table : Lalr.Table}
    {automaton : Lalr.Automaton} {text : Text} {version : Version}
    (frugal : version.Frugal plain (ItemsOf plain automaton) text)
    (made : table.MadeFrom plain automaton) (visible : plain.NoHiddenLeftRecursion) :
    version.effort ≤ plain.maxEffort text.size := by
  have weight := frugal.derives.stack.path.weightAll_le made visible frugal.light
  rw [frugal.covers.stack.total] at weight
  refine Nat.add_le_add frugal.covers.bound (weight.trans ?_)
  exact Nat.add_le_add_right (Nat.mul_le_mul_left _ frugal.covers.bound) _

end IncrementalGlr
