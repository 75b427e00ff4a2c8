import IncrementalGlr.Proofs.Search.Machine
import Mathlib.Algebra.BigOperators.Group.List.Basic
import Mathlib.Algebra.GroupWithZero.Nat
import Mathlib.Algebra.Ring.Int.Defs

/-!
# What nondeterministic runs preserve

The stack of a version spells what is recognised and holds no error.  Its topmost symbol tells
whether a token is waiting to be shifted: after a shift it is a terminal, after a reduction a
nonterminal, and extras change neither.
-/

namespace IncrementalGlr

open ParseRun (pushLeaf reduce foldRoot rootNode ownPrecedence reducedNode)

variable {grammar : Grammar} {plain : PlainGrammar} {items : StateId → Lalr.Item → Prop}

/-- Whether a subtree holds no error and its dynamic precedence is that of its production and of its
children together. -/
structure Subtree.Clean (grammar : Grammar) (subtree : Subtree) : Prop where
  /-- It is not an error. -/
  symbol : subtree.symbol ≠ .error
  /-- It holds no error. -/
  errors : subtree.errorCount = 0
  /-- Nor do its children. -/
  below : subtree.isLeaf = false → (subtree.children.map Subtree.errorCount).sum = 0
  /-- Where its dynamic precedence comes from. -/
  precedence : subtree.isLeaf = false → subtree.dynamicPrecedence =
    ownPrecedence grammar subtree.production +
      (subtree.children.map Subtree.dynamicPrecedence).sum

theorem Subtree.clean_ofLeaf {id : Nat} {spec : LeafSpec} (symbol : spec.symbol ≠ .error)
    (noError : spec.error = false) : (ofLeaf id spec).Clean grammar where
  symbol := symbol
  errors := by
    change spec.error.toNat = 0
    rw [noError]
    rfl
  below node := by cases node
  precedence node := by cases node

namespace ParseStack

theorem errorCount_eq (stack : ParseStack) :
    stack.errorCount = (stack.subtrees.map Subtree.errorCount).sum := by
  rw [subtrees, List.map_reverse, List.sum_reverse, List.map_map]
  rfl

theorem dynamicPrecedence_eq (stack : ParseStack) :
    stack.dynamicPrecedence = (stack.subtrees.map Subtree.dynamicPrecedence).sum := by
  rw [subtrees, List.map_reverse, List.sum_reverse, List.map_map]
  rfl

end ParseStack

namespace ParseRun

theorem errors_eq_zero {subtrees : List Subtree}
    (clean : ∀ subtree ∈ subtrees, subtree.Clean grammar) :
    (subtrees.map Subtree.errorCount).sum = 0 := by
  refine List.sum_eq_zero fun count member => ?_
  obtain ⟨subtree, inside, rfl⟩ := List.mem_map.1 member
  exact (clean subtree inside).errors

/-- An accepted tree has no errors if the subtrees that it is made of have none. -/
theorem foldRoot_errorCount (start : grammar.startSymbol ≠ .error) {subtrees : List Subtree}
    (clean : ∀ subtree ∈ subtrees, subtree.errorCount = 0)
    (roots : ∀ subtree ∈ subtrees, subtree.isExtra = false → subtree.isLeaf = false →
      subtree.symbol ≠ .error ∧ (subtree.children.map Subtree.errorCount).sum = 0) :
    Subtree.errorCount (foldRoot (m := Id) grammar subtrees) = 0 := by
  have total {others : List Subtree} (inside : others ⊆ subtrees) :
      (others.map Subtree.errorCount).sum = 0 :=
    List.sum_eq_zero (List.forall_mem_map.2 fun subtree member => clean subtree (inside member))
  have rooted : Subtree.errorCount (rootNode (m := Id) grammar subtrees) = 0 := by
    change (decide (grammar.startSymbol = .error)).toNat +
      (subtrees.map Subtree.errorCount).sum = 0
    rw [decide_eq_false start, total (List.Subset.refl subtrees)]
    rfl
  unfold foldRoot
  split
  · next root only =>
      obtain ⟨member, plain⟩ := List.mem_filter.1 (only ▸ List.mem_singleton_self root)
      split
      · exact clean root member
      · split
        · exact rooted
        · next isNode =>
            obtain ⟨symbol, under⟩ := roots root member (by simpa using plain)
              (Bool.not_eq_true _ ▸ isNode)
            have before := total (List.takeWhile_prefix Subtree.isExtra).subset
            have after := total
              ((List.tail_suffix _).trans (List.dropWhile_suffix Subtree.isExtra)).subset
            change (decide (root.symbol = .error)).toNat +
              ((_ ++ root.children ++ _).map Subtree.errorCount).sum = 0
            rw [decide_eq_false symbol, List.map_append, List.map_append, List.sum_append,
              List.sum_append, under, before, after]
            rfl
  · exact rooted

/-- An accepted tree without errors has the dynamic precedences of all subtrees together. -/
theorem foldRoot_merits (start : grammar.startSymbol ≠ .error) {subtrees : List Subtree}
    (clean : ∀ subtree ∈ subtrees, subtree.Clean grammar) :
    Subtree.errorCount (foldRoot (m := Id) grammar subtrees) = 0 ∧
      Subtree.dynamicPrecedence (foldRoot (m := Id) grammar subtrees) =
        (subtrees.map Subtree.dynamicPrecedence).sum := by
  refine ⟨foldRoot_errorCount start (fun subtree member => (clean subtree member).errors)
    fun subtree member _ node => ⟨(clean subtree member).symbol,
      (clean subtree member).below node⟩, ?_⟩
  have rooted : Subtree.dynamicPrecedence (rootNode (m := Id) grammar subtrees) =
      (subtrees.map Subtree.dynamicPrecedence).sum := Int.zero_add _
  unfold foldRoot
  split
  · next root only =>
      have parts := ParseStack.split_of_filter only
      have member : root ∈ subtrees := (List.mem_filter.1 (only ▸ List.mem_singleton_self root)).1
      split
      · next single =>
          have alone : subtrees = [root] := by
            obtain ⟨first, rfl⟩ := List.length_eq_one_iff.1 (beq_iff_eq.1 single)
            rw [List.mem_singleton.1 member]
          rw [alone, List.map_singleton, List.sum_singleton]
          rfl
      · split
        · exact rooted
        · next isNode =>
            have precedences := congrArg (fun subtrees : List Subtree =>
              (subtrees.map Subtree.dynamicPrecedence).sum) parts
            simp only [List.map_append, List.map_cons, List.sum_append, List.sum_cons]
              at precedences
            change ownPrecedence grammar root.production +
              ((_ ++ root.children ++ _).map Subtree.dynamicPrecedence).sum = _
            rw [List.map_append, List.map_append, List.sum_append, List.sum_append,
              precedences, (clean root member).precedence (Bool.not_eq_true _ ▸ isNode)]
            omega
  · exact rooted

/-- The node of a reduction has the errors of its children. -/
theorem reducedNode_errorCount {production : ProductionId}
    (notError : (grammar.production production).lhs ≠ .error) (below : StateId) (fragile : Bool)
    (following : Nat) (children : List Subtree) :
    (reducedNode grammar below production fragile following children).errorCount =
      (children.map Subtree.errorCount).sum := by
  change (decide ((grammar.production production).lhs = .error)).toNat + _ = _
  rw [decide_eq_false notError, Bool.toNat_false, Nat.zero_add]
  rfl

/-- The node of a reduction is clean if its children are. -/
theorem reducedNode_clean (acts : grammar.ActsOn plain items) {state : StateId} {symbol : Symbol}
    {production : ProductionId}
    (action : .reduce production ∈ grammar.actions state symbol) (below : StateId)
    (fragile : Bool) (following : Nat) {children : List Subtree}
    (clean : ∀ child ∈ children, child.Clean grammar) :
    (reducedNode grammar below production fragile following children).Clean grammar := by
  obtain ⟨-, notError, recorded⟩ := acts.defined action
  have noErrors := errors_eq_zero clean
  refine ⟨notError, ?_, fun _ => noErrors, fun _ => ?_⟩
  · rw [reducedNode_errorCount notError, noErrors]
  · change (grammar.production production).dynamicPrecedence.toInt + _ =
      ownPrecedence grammar production + _
    rw [ownPrecedence, if_neg recorded]
    rfl

end ParseRun

namespace Version

variable {job : ParseJob} {version : Version}

/-- What holds of the versions of nondeterministic runs. -/
structure Regular (job : ParseJob) (plain : PlainGrammar) (items : StateId → Lalr.Item → Prop)
    (version : Version) : Prop where
  /-- The states form a path and the subtrees are derived. -/
  stack : version.stack.Derives plain items
  /-- There are no errors. -/
  clean : ∀ subtree ∈ version.stack.subtrees, subtree.Clean job.grammar
  /-- What is known to come next is the token at the position. -/
  token : ∀ lookahead ∈ version.lookahead, ∃ lexState, lookahead =
    .token (job.lexer.nextInState job.text version.position lexState) lexState
  /-- Some state has an action on it. -/
  active : ∀ lookahead ∈ version.lookahead, ∃ state,
    job.grammar.actions state lookahead.symbol ≠ []
  /-- If nothing is known to come next, the last action was a shift. -/
  shifted : version.lookahead = none → ∀ symbol ∈ version.stack.topSymbol?,
    plain.isTerminal symbol = true
  /-- If something is known to come next, the last action was a reduction. -/
  reduced : version.lookahead ≠ none → ∃ symbol, version.stack.topSymbol? = some symbol ∧
    plain.isTerminal symbol = false

/-- A version of which nothing is known to come next is regular if its last action was a shift. -/
theorem regular_of_shifted (unknown : version.lookahead = none)
    (stack : version.stack.Derives plain items)
    (clean : ∀ subtree ∈ version.stack.subtrees, subtree.Clean job.grammar)
    (shifted : ∀ symbol ∈ version.stack.topSymbol?, plain.isTerminal symbol = true) :
    version.Regular job plain items where
  stack := stack
  clean := clean
  token lookahead known := by
    rw [unknown] at known
    cases known
  active lookahead known := by
    rw [unknown] at known
    cases known
  shifted _ := shifted
  reduced some_ := absurd unknown some_

theorem regular_start : Regular job plain items .start :=
  regular_of_shifted rfl ParseStack.derives_nil (fun _ never => absurd never List.not_mem_nil)
    fun _ never => by cases never

/-- What comes next is the token at the position in some lexical state. -/
theorem Regular.upcoming_eq (regular : version.Regular job plain items) :
    ∃ lexState, version.upcoming job =
      .token (job.lexer.nextInState job.text version.position lexState) lexState := by
  unfold upcoming
  cases known : version.lookahead with
  | none => exact ⟨_, rfl⟩
  | some lookahead => exact regular.token lookahead known

/-- Where a version stands after a step: past what comes next, or still before it. -/
def Follows (job : ParseJob) (version next : Version) : Prop :=
  (next.lookahead = none ∧ version.position < next.position) ∨
    (next.lookahead = some (version.upcoming job) ∧ next.position = version.position)

/-- Pushing what comes next moves past it. -/
theorem Regular.pushLeaf_follows (regular : version.Regular job plain items) (next : StateId)
    (extra : Bool) (notEnd : (version.upcoming job).symbol ≠ .endOfInput) :
    version.Follows job
      (pushLeaf (m := Id) job.grammar version (version.upcoming job) next extra) := by
  left
  obtain ⟨lexState, found⟩ := regular.upcoming_eq
  rw [found] at notEnd ⊢
  have nonempty := job.lexer.nextInState_nonempty job.text version.position lexState notEnd
  exact ⟨rfl, Nat.lt_add_of_pos_right nonempty⟩

theorem Regular.isToken (regular : version.Regular job plain items) :
    (version.upcoming job).IsToken := by
  obtain ⟨lexState, found⟩ := regular.upcoming_eq
  exact ⟨_, _, found⟩

theorem Regular.leaf_clean (regular : version.Regular job plain items) (extra : Bool)
    (notError : (version.upcoming job).symbol ≠ .error) :
    Subtree.Clean job.grammar (ParseRun.leafOf (m := Id) job.grammar version.state extra
      (version.upcoming job)) := by
  obtain ⟨lexState, found⟩ := regular.upcoming_eq
  rw [found] at notError ⊢
  exact Subtree.clean_ofLeaf notError (decide_eq_false notError)

/-- A leaf that is pushed goes on top of clean subtrees. -/
theorem Regular.pushLeaf_clean (regular : version.Regular job plain items) (next : StateId)
    (extra : Bool) (notError : (version.upcoming job).symbol ≠ .error) :
    ∀ subtree ∈ ParseStack.subtrees (Version.stack
        (pushLeaf (m := Id) job.grammar version (version.upcoming job) next extra)),
      Subtree.Clean job.grammar subtree := by
  intro subtree member
  change subtree ∈ ParseStack.subtrees (⟨next, _⟩ :: version.stack) at member
  rw [ParseStack.subtrees_cons] at member
  rcases List.mem_append.1 member with below | top
  · exact regular.clean subtree below
  · rw [List.mem_singleton.1 top]
    exact regular.leaf_clean extra notError

/-- A shift leaves a regular version. -/
theorem Regular.shift (acts : job.grammar.ActsOn plain items)
    (regular : version.Regular job plain items) {next : StateId}
    (action : .shift next ∈ job.grammar.actions version.state (version.upcoming job).symbol) :
    Regular job plain items
        (pushLeaf (m := Id) job.grammar version (version.upcoming job) next false) ∧
      version.Follows job
        (pushLeaf (m := Id) job.grammar version (version.upcoming job) next false) := by
  have terminal := acts.terminal action
  have notError : (version.upcoming job).symbol ≠ .error := by
    intro same
    rw [same, acts.errorTerminal] at terminal
    cases terminal
  have notEnd : (version.upcoming job).symbol ≠ .endOfInput := by
    intro same
    rw [same] at action
    exact acts.notEnd action
  have derives := ParseRun.shift_derives acts.toWorksOn regular.stack regular.isToken action
  refine ⟨regular_of_shifted rfl derives.stack (regular.pushLeaf_clean next false notError)
    fun symbol top => ?_, regular.pushLeaf_follows next false notEnd⟩
  obtain ⟨-, sameSymbol, notExtra⟩ :=
    @ParseRun.leafOf_derived job.grammar plain _ version.state false regular.isToken
  change symbol ∈ ParseStack.topSymbol? (⟨next, _⟩ :: version.stack) at top
  rw [ParseStack.topSymbol?_enter notExtra] at top
  rw [← Option.some.inj top, sameSymbol]
  exact terminal

/-- An extra leaves a regular version. -/
theorem Regular.extra (acts : job.grammar.ActsOn plain items)
    (regular : version.Regular job plain items)
    (isExtra : job.grammar.isExtra (version.upcoming job).symbol = true)
    (notEnd : (version.upcoming job).symbol ≠ .endOfInput) :
    Regular job plain items
        (pushLeaf (m := Id) job.grammar version (version.upcoming job) version.state true) ∧
      version.Follows job
        (pushLeaf (m := Id) job.grammar version (version.upcoming job) version.state true) := by
  have notError : (version.upcoming job).symbol ≠ .error := by
    intro same
    rw [same, acts.errorExtra] at isExtra
    cases isExtra
  -- There are no actions on extras, so the last action was a shift.
  have unknown : version.lookahead = none := by
    cases known : version.lookahead with
    | none => rfl
    | some lookahead =>
        obtain ⟨state, some_⟩ := regular.active lookahead known
        rw [upcoming, known, Option.getD_some] at isExtra notEnd
        exact absurd (acts.extras isExtra notEnd) some_
  have derives := @ParseRun.extra_derives job.grammar plain items version _ regular.stack
    regular.isToken
  refine ⟨regular_of_shifted rfl derives.stack (regular.pushLeaf_clean _ true notError)
    fun symbol top => ?_, regular.pushLeaf_follows _ true notEnd⟩
  obtain ⟨-, -, leafExtra⟩ :=
    @ParseRun.leafOf_derived job.grammar plain _ version.state true regular.isToken
  change symbol ∈ ParseStack.topSymbol? (⟨version.state, _⟩ :: version.stack) at top
  rw [ParseStack.topSymbol?_extra leafExtra] at top
  exact regular.shifted unknown symbol top

/-- A reduction leaves a regular version. -/
theorem Regular.reduce (acts : job.grammar.ActsOn plain items)
    (regular : version.Regular job plain items) {production : ProductionId}
    (action : .reduce production ∈
      job.grammar.actions version.state (version.upcoming job).symbol) (fragile : Bool) :
    ∃ reduced : Version,
      ParseRun.reduce (m := Id) job.grammar
        { version with lookahead := some (version.upcoming job) } production fragile =
          some reduced ∧
      reduced.Regular job plain items ∧ version.Follows job reduced := by
  have looking : Version.Derives plain items
      { version with lookahead := some (version.upcoming job) } :=
    ⟨regular.stack, fun known same => Option.some.inj same ▸ regular.isToken⟩
  obtain ⟨result, resultEq, derives⟩ :=
    ParseRun.reduce_derives acts.toWorksOn looking action fragile
  obtain ⟨source, sourceFound, taken, after, below, next, found, path, symbols, extras, goto,
    enters⟩ := regular.stack.path.reducible acts.toWorksOn action
  have parts := ParseStack.takeChildren_subtrees found
  have clean := regular.clean
  rw [← parts] at clean
  obtain ⟨following, same⟩ := @ParseRun.reduce_eq_some job.grammar
    { version with lookahead := some (version.upcoming job) } production fragile _ _ _ _ found goto
  rw [resultEq] at same
  obtain rfl := Option.some.inj same
  have node := ParseRun.reducedNode_clean acts action below.state fragile following
    fun child member => clean child (List.mem_append_left _ (List.mem_append_right _ member))
  generalize nodeEq : ParseRun.reducedNode job.grammar below.state production fragile following
    taken = reduction at node
  have subtrees : ParseStack.subtrees (ParseStack.pushAll (⟨next, reduction⟩ :: below) next after) =
      below.subtrees ++ [reduction] ++ after := by
    rw [ParseStack.subtrees_pushAll, ParseStack.subtrees_cons]
  refine ⟨_, resultEq, ⟨derives.stack, fun subtree member => ?_, fun lookahead known => ?_,
    fun lookahead known => ?_, fun never => absurd never (Option.some_ne_none _), fun _ => ?_⟩,
    .inr ⟨rfl, rfl⟩⟩
  · rw [nodeEq, subtrees] at member
    rcases List.mem_append.1 member with before | trailing
    · rcases List.mem_append.1 before with kept | new
      · exact clean subtree (List.mem_append_left _ (List.mem_append_left _ kept))
      · rw [List.mem_singleton.1 new]
        exact node
    · exact clean subtree (List.mem_append_right _ trailing)
  · obtain rfl := Option.some.inj known
    exact regular.upcoming_eq
  · obtain rfl := Option.some.inj known
    exact ⟨version.state, List.ne_nil_of_mem action⟩
  · obtain ⟨nonterminal, -⟩ := acts.defined action
    refine ⟨(job.grammar.production production).lhs, ?_, nonterminal⟩
    rw [nodeEq, ParseStack.topSymbol?_pushAll extras,
      ParseStack.topSymbol?_enter (nodeEq ▸ rfl : reduction.isExtra = false), ← nodeEq]
    rfl

/-- Every step leads from a regular version to a regular one. -/
theorem Regular.advance (acts : job.grammar.ActsOn plain items)
    (regular : version.Regular job plain items) {next : Version}
    (advances : Advances job version next) :
    next.Regular job plain items ∧ version.Follows job next := by
  cases advances with
  | act listed performs =>
      cases performs with
      | shift => exact regular.shift acts listed
      | reduce fragile result =>
          obtain ⟨reduced, found, regular, follows⟩ := regular.reduce acts listed fragile
          rw [result] at found
          obtain rfl := Option.some.inj found
          exact ⟨regular, follows⟩
  | extra noAction isExtra notEnd notError => exact regular.extra acts isExtra notEnd

theorem Regular.runs (acts : job.grammar.ActsOn plain items)
    (regular : version.Regular job plain items) {last : Version} (runs : Runs job version last) :
    last.Regular job plain items := by
  induction runs with
  | refl => exact regular
  | tail before step induction => exact (induction.advance acts step).1

end Version

end IncrementalGlr
