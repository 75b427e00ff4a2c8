import IncrementalGlr.Proofs.Condensing.Kept
import IncrementalGlr.Proofs.Search.Regular
import Mathlib.Data.List.Pairwise

/-!
# The order of the versions alive

The first of the versions furthest behind moves on, and what becomes of it takes its place.  So the
versions that wait to shift a token all wait for one token at one place, and come before the versions
that have not looked for a token there.  Merging keeps this order, and it only merges versions that
look at one token.
-/

namespace IncrementalGlr

/-! ## Versions of one shape

Two versions have one shape if they stand at one place, look at one token, and have stacks with the
same states and with extras at the same places.  Whatever one of them may do the other may do, and
their dynamic precedences change by the same amount.
-/

namespace ParseStack

/-- The states of a stack, each with whether the subtree below it is an extra. -/
def shape (stack : ParseStack) : List (StateId × Bool) :=
  stack.map fun entry => (entry.state, entry.subtree.isExtra)

variable {left right : ParseStack}

theorem state_eq_of_shape (same : left.shape = right.shape) : left.state = right.state := by
  cases left with
  | nil =>
      cases right with
      | nil => rfl
      | cons entry rest => cases same
  | cons entry rest =>
      cases right with
      | nil => cases same
      | cons other others =>
          rw [shape, shape, List.map_cons, List.map_cons] at same
          exact congrArg Prod.fst (List.cons.inj same).1

theorem shape_pushAll (stack : ParseStack) (state : StateId) (subtrees : List Subtree) :
    shape (stack.pushAll state subtrees) =
      ((subtrees.map Subtree.isExtra).map (Prod.mk state)).reverse ++ stack.shape := by
  induction subtrees generalizing stack with
  | nil => rfl
  | cons subtree rest induction =>
      have later := induction (⟨state, subtree⟩ :: stack)
      rw [pushAll] at later ⊢
      rw [List.foldl_cons, later]
      simp [shape]

/-- What can be taken from a stack can be taken from every stack of its shape. -/
theorem takeFrom_shape {children trailing taken after : List Subtree} {below : ParseStack}
    {count : Nat}
    (found : takeFrom children trailing count right = some (taken, after, below))
    (same : left.shape = right.shape) {others extras : List Subtree}
    (sameChildren : others.isEmpty = children.isEmpty)
    (sameExtras : extras.map Subtree.isExtra = trailing.map Subtree.isExtra) :
    ∃ held following rest, takeFrom others extras count left = some (held, following, rest) ∧
      rest.shape = below.shape ∧
      following.map Subtree.isExtra = after.map Subtree.isExtra := by
  induction right generalizing left children trailing others extras count with
  | nil =>
      obtain rfl : left = [] := List.map_eq_nil_iff.1 same
      cases count with
      | zero =>
          cases found
          exact ⟨others, extras, [], rfl, rfl, sameExtras⟩
      | succ count => cases found
  | cons entry right induction =>
      obtain ⟨other, left, rfl, sameEntry, sameRest⟩ := List.map_eq_cons_iff.1 same
      have sameExtra : other.subtree.isExtra = entry.subtree.isExtra :=
        congrArg Prod.snd sameEntry
      cases count with
      | zero =>
          cases found
          exact ⟨others, extras, _, rfl, same, sameExtras⟩
      | succ count =>
          simp only [takeFrom] at found ⊢
          rw [sameExtra, sameChildren]
          cases isExtra : entry.subtree.isExtra with
          | false =>
              rw [isExtra] at found
              exact induction found sameRest rfl sameExtras
          | true =>
              rw [isExtra] at found
              cases empty : children.isEmpty with
              | true =>
                  rw [empty] at found sameChildren
                  refine induction found sameRest (sameChildren.trans empty.symm) ?_
                  rw [List.map_cons, List.map_cons, sameExtra, sameExtras]
              | false =>
                  rw [empty] at found
                  exact induction found sameRest rfl sameExtras

theorem takeChildren_shape {taken after : List Subtree} {below : ParseStack} {count : Nat}
    (found : right.takeChildren count = some (taken, after, below))
    (same : left.shape = right.shape) :
    ∃ held following rest, left.takeChildren count = some (held, following, rest) ∧
      rest.shape = below.shape ∧
      following.map Subtree.isExtra = after.map Subtree.isExtra :=
  takeFrom_shape found same rfl rfl

theorem dynamicPrecedence_cons (entry : StackEntry) (stack : ParseStack) :
    dynamicPrecedence (entry :: stack) =
      entry.subtree.dynamicPrecedence + stack.dynamicPrecedence :=
  List.sum_cons

/-- A reduction adds the dynamic precedence of its production. -/
theorem dynamicPrecedence_reduced {grammar : Grammar} {stack below : ParseStack}
    {production : ProductionId} {taken after : List Subtree} {count : Nat}
    (found : stack.takeChildren count = some (taken, after, below)) (state next : StateId)
    (fragile : Bool) (following : Nat) :
    dynamicPrecedence (pushAll
        (⟨next, ParseRun.reducedNode grammar state production fragile following taken⟩ :: below)
        next after) =
      stack.dynamicPrecedence + (grammar.production production).dynamicPrecedence.toInt := by
  generalize nodeEq : ParseRun.reducedNode grammar state production fragile following taken = node
  have precedence : node.dynamicPrecedence =
      (grammar.production production).dynamicPrecedence.toInt +
        (taken.map Subtree.dynamicPrecedence).sum := nodeEq ▸ rfl
  have parts := congrArg (fun subtrees : List Subtree =>
    (subtrees.map Subtree.dynamicPrecedence).sum) (takeChildren_subtrees found)
  rw [dynamicPrecedence_eq, dynamicPrecedence_eq, subtrees_pushAll, subtrees_cons]
  simp only [List.map_append, List.sum_append, List.map_cons, List.map_nil, List.sum_cons,
    List.sum_nil, precedence] at parts ⊢
  omega

end ParseStack

namespace Version

/-- Whether two versions have one shape. -/
structure SameShape (left right : Version) : Prop where
  /-- They stand at one place. -/
  position : left.position = right.position
  /-- The same is known to come next for both. -/
  lookahead : left.lookahead = right.lookahead
  /-- Their stacks have one shape. -/
  stack : left.stack.shape = right.stack.shape

variable {job : ParseJob} {left right next : Version}

theorem SameShape.refl (version : Version) : version.SameShape version := ⟨rfl, rfl, rfl⟩

theorem SameShape.trans {third : Version} (first : left.SameShape right)
    (second : right.SameShape third) : left.SameShape third :=
  ⟨first.position.trans second.position, first.lookahead.trans second.lookahead,
    first.stack.trans second.stack⟩

theorem SameShape.state (same : left.SameShape right) : left.state = right.state :=
  ParseStack.state_eq_of_shape same.stack

theorem SameShape.upcoming (same : left.SameShape right) :
    left.upcoming job = right.upcoming job := by
  unfold Version.upcoming
  rw [same.lookahead, same.position, same.state]

/-- A leaf is pushed on both. -/
theorem SameShape.pushLeaf (same : left.SameShape right) (lookahead : Lookahead)
    (target : StateId) (extra : Bool) :
    SameShape (ParseRun.pushLeaf (m := Id) job.grammar left lookahead target extra)
        (ParseRun.pushLeaf (m := Id) job.grammar right lookahead target extra) ∧
      ParseStack.dynamicPrecedence
          (Version.stack (ParseRun.pushLeaf (m := Id) job.grammar left lookahead target extra)) +
          right.stack.dynamicPrecedence =
        left.stack.dynamicPrecedence + ParseStack.dynamicPrecedence
          (Version.stack (ParseRun.pushLeaf (m := Id) job.grammar right lookahead target extra)) := by
  have leaf : ParseRun.leafOf (m := Id) job.grammar left.state extra lookahead =
      ParseRun.leafOf (m := Id) job.grammar right.state extra lookahead := by rw [same.state]
  refine ⟨⟨?_, rfl, ?_⟩, ?_⟩
  · change left.position + _ = right.position + _
    rw [same.position, leaf]
  · change (target, _) :: left.stack.shape = (target, _) :: right.stack.shape
    rw [same.stack, leaf]
  · change ParseStack.dynamicPrecedence (⟨target, _⟩ :: left.stack) + _ =
      _ + ParseStack.dynamicPrecedence (⟨target, _⟩ :: right.stack)
    rw [ParseStack.dynamicPrecedence_cons, ParseStack.dynamicPrecedence_cons, leaf]
    omega

/-- A production is reduced on both. -/
theorem SameShape.reduce (same : left.SameShape right) {production : ProductionId}
    {fragile : Bool}
    (result : ParseRun.reduce (m := Id) job.grammar right production fragile = some next)
    (otherFragile : Bool) :
    ∃ follower, ParseRun.reduce (m := Id) job.grammar left production otherFragile =
        some follower ∧
      follower.SameShape next ∧
      follower.stack.dynamicPrecedence + right.stack.dynamicPrecedence =
        left.stack.dynamicPrecedence + next.stack.dynamicPrecedence := by
  obtain ⟨taken, after, below, target, found, goto⟩ := ParseRun.exists_of_reduce result
  obtain ⟨following, made⟩ := ParseRun.reduce_eq_some fragile found goto
  rw [result] at made
  obtain rfl := Option.some.inj made
  obtain ⟨held, later, rest, leftFound, sameBelow, sameAfter⟩ :=
    ParseStack.takeChildren_shape found same.stack
  rw [← ParseStack.state_eq_of_shape sameBelow] at goto
  obtain ⟨leftFollowing, leftMade⟩ := ParseRun.reduce_eq_some otherFragile leftFound goto
  refine ⟨_, leftMade, ⟨same.position, same.lookahead, ?_⟩, ?_⟩
  · rw [ParseStack.shape_pushAll, ParseStack.shape_pushAll, sameAfter]
    change _ ++ (target, false) :: rest.shape = _ ++ (target, false) :: below.shape
    rw [sameBelow]
  · rw [ParseStack.dynamicPrecedence_reduced found, ParseStack.dynamicPrecedence_reduced leftFound]
    omega

/-- Whatever action a version performs a version of its shape performs too. -/
theorem SameShape.performs (same : left.SameShape right) {action : Action}
    (performs : Performs job right action next) :
    ∃ follower, Performs job left action follower ∧ follower.SameShape next ∧
      follower.stack.dynamicPrecedence + right.stack.dynamicPrecedence =
        left.stack.dynamicPrecedence + next.stack.dynamicPrecedence := by
  have upcoming := @SameShape.upcoming job _ _ same
  cases performs with
  | @shift target =>
      rw [← upcoming]
      exact ⟨_, .shift, same.pushLeaf _ target false⟩
  | reduce fragile result =>
      rw [← upcoming] at result
      have looking : SameShape { left with lookahead := some (left.upcoming job) }
          { right with lookahead := some (left.upcoming job) } := ⟨same.position, rfl, same.stack⟩
      obtain ⟨follower, made, rest⟩ := looking.reduce result fragile
      exact ⟨follower, .reduce fragile made, rest⟩

/-- Whatever a version does a version of its shape may do. -/
theorem SameShape.advance (same : left.SameShape right) (advances : Advances job right next) :
    ∃ follower, Advances job left follower ∧ follower.SameShape next ∧
      follower.stack.dynamicPrecedence + right.stack.dynamicPrecedence =
        left.stack.dynamicPrecedence + next.stack.dynamicPrecedence := by
  have upcoming := @SameShape.upcoming job _ _ same
  cases advances with
  | act listed performs =>
      obtain ⟨follower, follows, rest⟩ := same.performs performs
      rw [← upcoming, ← same.state] at listed
      exact ⟨follower, .act listed follows, rest⟩
  | extra noAction isExtra notEnd notError =>
      rw [← upcoming] at noAction isExtra notEnd notError ⊢
      rw [← same.state] at noAction ⊢
      exact ⟨_, .extra noAction isExtra notEnd notError, same.pushLeaf _ left.state true⟩

/-- Whatever run a version has a version of its shape has too. -/
theorem SameShape.runs (same : left.SameShape right) {last : Version} (runs : Runs job right last) :
    ∃ follower, Runs job left follower ∧ follower.SameShape last ∧
      follower.stack.dynamicPrecedence + right.stack.dynamicPrecedence =
        left.stack.dynamicPrecedence + last.stack.dynamicPrecedence := by
  induction runs with
  | refl => exact ⟨left, .refl, same, rfl⟩
  | tail before step induction =>
      obtain ⟨middle, reached, sameMiddle, middlePrecedence⟩ := induction
      obtain ⟨follower, advances, sameLast, precedence⟩ := sameMiddle.advance step
      exact ⟨follower, reached.tail advances, sameLast, by omega⟩

variable {plain : PlainGrammar} {items : StateId → Lalr.Item → Prop}

/-- Whether some nondeterministic run from a version accepts a tree of at least a dynamic
precedence. -/
def Promises (job : ParseJob) (version : Version) (least : Int) : Prop :=
  ∃ root, version.Accepts job root ∧ least ≤ root.dynamicPrecedence

theorem Regular.foldRoot_merits (acts : job.grammar.ActsOn plain items) {version : Version}
    (regular : version.Regular job plain items) :
    Subtree.errorCount (ParseRun.foldRoot (m := Id) job.grammar version.stack.subtrees) = 0 ∧
      Subtree.dynamicPrecedence
          (ParseRun.foldRoot (m := Id) job.grammar version.stack.subtrees) =
        version.stack.dynamicPrecedence := by
  rw [ParseStack.dynamicPrecedence_eq]
  exact ParseRun.foldRoot_merits acts.startError regular.clean

/-- What a version promises a version of its shape promises that has no smaller dynamic
precedence. -/
theorem Promises.of_sameShape (acts : job.grammar.ActsOn plain items) {least : Int}
    (promises : Promises job right least) (same : left.SameShape right)
    (leftRegular : left.Regular job plain items) (rightRegular : right.Regular job plain items)
    (better : right.stack.dynamicPrecedence ≤ left.stack.dynamicPrecedence) :
    Promises job left least := by
  obtain ⟨_, ⟨last, runs, accept, rfl⟩, enough⟩ := promises
  obtain ⟨follower, reached, sameLast, precedence⟩ := same.runs runs
  rw [((rightRegular.runs acts runs).foldRoot_merits acts).2] at enough
  refine ⟨_, ⟨follower, reached, ?_, rfl⟩, ?_⟩
  · rw [sameLast.state, sameLast.upcoming]
    exact accept
  · rw [((leftRegular.runs acts reached).foldRoot_merits acts).2]
    omega

/-- A version that promises something is accepted at once or promises it after a step. -/
theorem Promises.first {version : Version} {least : Int} (promises : Promises job version least) :
    (.accept ∈ job.grammar.actions version.state (version.upcoming job).symbol ∧
        least ≤ Subtree.dynamicPrecedence
          (ParseRun.foldRoot (m := Id) job.grammar version.stack.subtrees)) ∨
      ∃ next, Advances job version next ∧ Promises job next least := by
  obtain ⟨_, ⟨last, runs, accept, rfl⟩, enough⟩ := promises
  rcases runs.cases_head with rfl | ⟨next, step, rest⟩
  · exact .inl ⟨accept, enough⟩
  · exact .inr ⟨next, step, _, ⟨last, rest, accept, rfl⟩, enough⟩

end Version

/-! ## Versions that wait -/

namespace Version

/-- Whether a version may stand before another one among the versions alive. -/
structure Precedes (left right : Version) : Prop where
  /-- Nothing is behind a version that waits to shift a token. -/
  waiting : left.lookahead ≠ none → left.position ≤ right.position
  /-- Whoever stands before such a version is past it or waits too. -/
  later : left.lookahead = none → right.lookahead ≠ none → right.position < left.position
  /-- Versions that wait do so for one token at one place. -/
  alike : left.lookahead ≠ none → right.lookahead ≠ none →
    left.lookahead = right.lookahead ∧ left.position = right.position

variable {job : ParseJob} {version next : Version}

theorem Follows.lookahead (follows : version.Follows job next) (waits : next.lookahead ≠ none) :
    next.lookahead = some (version.upcoming job) ∧ next.position = version.position :=
  follows.resolve_left fun past => waits past.1

theorem Follows.position (follows : version.Follows job next) (past : next.lookahead = none) :
    version.position < next.position := by
  rcases follows with ⟨-, after⟩ | ⟨waits, -⟩
  · exact after
  · rw [past] at waits
    cases waits

theorem Follows.le (follows : version.Follows job next) : version.position ≤ next.position := by
  rcases follows with ⟨-, after⟩ | ⟨-, same⟩
  · exact Nat.le_of_lt after
  · exact Nat.le_of_eq same.symm

/-- What becomes of a version goes before one that is not behind it and waits, if at all, for what the
version looks at. -/
theorem Follows.precedes {result other : Version} (follows : version.Follows job result)
    (further : version.position ≤ other.position)
    (waitsFor : other.lookahead ≠ none →
      other.lookahead = some (version.upcoming job) ∧ other.position = version.position) :
    result.Precedes other := by
  refine ⟨fun waits => ?_, fun unknown waits => ?_, fun resultWaits waits => ?_⟩
  · rw [(follows.lookahead waits).2]
    exact further
  · rw [(waitsFor waits).2]
    exact follows.position unknown
  · obtain ⟨known, place⟩ := follows.lookahead resultWaits
    obtain ⟨otherKnown, otherPlace⟩ := waitsFor waits
    exact ⟨known.trans otherKnown.symm, place.trans otherPlace.symm⟩

/-- What becomes of the version that moves on may take its place. -/
theorem pairwise_precedes_advance {before after results : List Version}
    (ordered : (before ++ version :: after).Pairwise Precedes)
    (ahead : ∀ other ∈ before, version.position < other.position)
    (behind : ∀ other ∈ after, version.position ≤ other.position)
    (follows : ∀ result ∈ results, version.Follows job result) :
    (before ++ results ++ after).Pairwise Precedes := by
  obtain ⟨beforeOrdered, restOrdered, across⟩ := List.pairwise_append.1 ordered
  obtain ⟨first, afterOrdered⟩ := List.pairwise_cons.1 restOrdered
  -- No version that waits stands before the one that moves on.
  have past : ∀ other ∈ before, other.lookahead = none := by
    intro other member
    by_contra waits
    have order := (across other member version List.mem_cons_self).waiting waits
    have further := ahead other member
    omega
  -- Whoever waits after it waits for what it looks at.
  have waitsFor : ∀ other ∈ after, other.lookahead ≠ none →
      other.lookahead = some (version.upcoming job) ∧ other.position = version.position := by
    intro other member waits
    by_cases unknown : version.lookahead = none
    · have order := (first other member).later unknown waits
      have further := behind other member
      omega
    · obtain ⟨lookahead, position⟩ := (first other member).alike unknown waits
      obtain ⟨known, same⟩ := Option.ne_none_iff_exists'.1 unknown
      rw [upcoming, same, Option.getD_some, ← lookahead, same]
      exact ⟨rfl, position.symm⟩
  have within : results.Pairwise Precedes := by
    refine List.Pairwise.imp_of_mem (fun {left right} leftMember rightMember _ => ?_)
      (List.pairwise_of_forall fun _ _ => trivial : results.Pairwise fun _ _ => True)
    have rightFollows := follows right rightMember
    exact (follows left leftMember).precedes rightFollows.le rightFollows.lookahead
  rw [List.append_assoc]
  refine List.pairwise_append.2 ⟨beforeOrdered, List.pairwise_append.2 ⟨within, afterOrdered, ?_⟩, ?_⟩
  · intro result resultMember other otherMember
    exact (follows result resultMember).precedes (behind other otherMember)
      (waitsFor other otherMember)
  · intro other otherMember next nextMember
    rcases List.mem_append.1 nextMember with result | later
    · have unknown := past other otherMember
      refine ⟨fun waits => absurd unknown waits, fun _ waits => ?_,
        fun waits => absurd unknown waits⟩
      rw [((follows next result).lookahead waits).2]
      exact ahead other otherMember
    · exact across other otherMember next (List.mem_cons_of_mem version later)

theorem Precedes.replace {left right best : Version} (precedes : left.Precedes right)
    (position : best.position = left.position) (lookahead : best.lookahead = left.lookahead) :
    best.Precedes right := by
  obtain ⟨waiting, later, alike⟩ := precedes
  constructor <;> rw [position, lookahead] <;> assumption

/-- Whether versions that agree look at one token. -/
def LooksAlike (versions : List Version) : Prop :=
  ∀ left ∈ versions, ∀ right ∈ versions, left.agrees right = true →
    left.lookahead = right.lookahead

theorem LooksAlike.mono {smaller larger : List Version} (alike : LooksAlike larger)
    (subset : smaller ⊆ larger) : LooksAlike smaller :=
  fun left leftMember right rightMember => alike left (subset leftMember) right (subset rightMember)

end Version

namespace ParseRun

/-- For every version without errors a merge leaves one that agrees with it and has no smaller
dynamic precedence. -/
theorem merge_covers_precedence {versions : List Version}
    (noErrors : ∀ version ∈ versions, version.stack.errorCount = 0) :
    ∀ version ∈ versions, ∃ kept ∈ merge versions, kept.agrees version = true ∧
      version.stack.dynamicPrecedence ≤ kept.stack.dynamicPrecedence := by
  intro version member
  obtain ⟨kept, keptMember, agrees, less⟩ := merge_covers member
  have errors : kept.rank.errorCount = version.rank.errorCount :=
    (noErrors kept (merge_subset versions keptMember)).trans (noErrors version member).symm
  exact ⟨kept, keptMember, agrees, Rank.precedence_of_key_le errors less⟩

/-- Merging versions that look alike keeps their order. -/
theorem pairwise_merge {versions : List Version} (alike : Version.LooksAlike versions)
    (ordered : versions.Pairwise Version.Precedes) :
    (merge versions).Pairwise Version.Precedes := by
  have bounded : ∀ (budget : Nat) (versions : List Version), Version.LooksAlike versions →
      versions.Pairwise Version.Precedes →
      (mergeWithin budget versions).Pairwise Version.Precedes := by
    intro budget
    induction budget with
    | zero => exact fun _ _ _ => .nil
    | succ budget induction =>
        intro versions alike ordered
        cases versions with
        | nil => exact .nil
        | cons first rest =>
            obtain ⟨precedes, restOrdered⟩ := List.pairwise_cons.1 ordered
            have sublist := absorb_sublist first rest
            have agrees := absorb_agrees first rest
            have bestMember := (absorb_subperm first rest).subset List.mem_cons_self
            have kept : (absorb first rest).2 ⊆ first :: rest := fun other member =>
              List.mem_cons_of_mem first (sublist.subset member)
            refine List.pairwise_cons.2 ⟨fun other member => ?_,
              induction _ (alike.mono kept) (restOrdered.sublist sublist)⟩
            have inside := sublist.subset ((mergeWithin_subperm budget _).subset member)
            exact (precedes other inside).replace (Version.agrees_iff.1 agrees).1
              (alike _ bestMember first List.mem_cons_self agrees)
  exact bounded versions.length versions alike ordered

variable {run : ParseRun}

/-- Without errors, and if there is room for all, condensing only merges and forgets paths. -/
theorem survivors_eq_merge (noErrors : ∀ version ∈ run.versions, version.stack.errorCount = 0)
    (roomy : run.promising.length ≤ maxVersions) : run.survivors = merge run.versions := by
  have promising : run.promising = merge run.versions := by
    unfold ParseRun.promising
    split
    · refine List.filter_eq_self.2 fun version member => ?_
      rw [noErrors version (merge_subset run.versions member), decide_eq_true_eq]
      exact Nat.zero_le _
    · rfl
  rw [survivors, Nat.sub_eq_zero_of_le roomy, dropWorst, promising]

theorem versions_condense (noErrors : ∀ version ∈ run.versions, version.stack.errorCount = 0)
    (roomy : run.promising.length ≤ maxVersions) :
    run.condense.versions = merge run.versions ∨ ∃ version, merge run.versions = [version] ∧
      run.condense.versions = [{ version with path := [] }] := by
  rw [← survivors_eq_merge noErrors roomy]
  unfold condense
  split
  · next version _ only => exact .inr ⟨version, only, rfl⟩
  · exact .inl rfl

end ParseRun

end IncrementalGlr
