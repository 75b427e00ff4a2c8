import IncrementalGlr.Proofs.Condense
import IncrementalGlr.Proofs.Condensing.Kept
import Mathlib.Data.List.Pairwise

/-!
# Condensed runs

Condensing first leaves one leader of the versions that agree, as good as any of them.  Of the
leaders it removes those with more errors than a finished tree, and of the others the worst ones
while there are more than six.  Versions agree if their stacks have the same states, and stacks that
share entries need not be compared any further than these.
-/

namespace IncrementalGlr

/-!
## Comparing stacks that share entries

Stacks come about by putting new entries on stacks at hand and by taking entries from them.  So an
id stands for one entry and all that is below it, and every entry knows the height and the merits of
its stack.  Hence stacks that come to one entry agree from there on, and the comparison that stops
there gives the same answer as the one of all states.
-/

namespace SharedStack

/-- The stacks that may be at hand, with the id of the next entry. -/
inductive AtHand : Nat → List SharedStack → Prop
  /-- Nothing has been made. -/
  | nothing : AtHand 0 []
  /-- A new stack is begun. -/
  | start {nextId : Nat} {heads : List SharedStack} (history : AtHand nextId heads) :
    AtHand (nextId + 1) (.bottom nextId :: heads)
  /-- An entry is put on a stack, which stays at hand. -/
  | push {nextId : Nat} {heads : List SharedStack} {stack : SharedStack} (entry : StackEntry)
      (history : AtHand nextId heads) (member : stack ∈ heads) :
    AtHand (nextId + 1) (stack.push nextId entry :: heads)
  /-- The top entry is taken from a stack, which stays at hand. -/
  | pop {nextId : Nat} {heads : List SharedStack} {stack below : SharedStack} {subtree : Subtree}
      (history : AtHand nextId heads) (member : stack ∈ heads)
      (popped : stack.pop? = some (subtree, below)) : AtHand nextId (below :: heads)
  /-- Stacks are copied, put in another order or given up. -/
  | keep {nextId : Nat} {heads kept : List SharedStack} (history : AtHand nextId heads)
      (subset : kept ⊆ heads) : AtHand nextId kept

/-- A stack and all that is left of it when entries are taken. -/
def parts : SharedStack → List SharedStack
  | bottom id => [bottom id]
  | above id entry depth errorCount dynamicPrecedence below =>
    above id entry depth errorCount dynamicPrecedence below :: below.parts

/-- Whether a stack knows its height and its merits. -/
structure Counted (stack : SharedStack) : Prop where
  /-- The height is the number of entries. -/
  depth : stack.depth = stack.entries.length
  /-- The errors are those of all entries. -/
  errorCount : stack.errorCount = stack.entries.errorCount
  /-- The dynamic precedence is the sum over all entries. -/
  dynamicPrecedence : stack.dynamicPrecedence = stack.entries.dynamicPrecedence

/-- Whether an id stands for one stack only among all parts of the stacks at hand, and all of them
know their heights and merits. -/
structure Coherent (nextId : Nat) (heads : List SharedStack) : Prop where
  /-- The next id is new. -/
  named : ∀ stack ∈ heads, ∀ part ∈ stack.parts, part.id < nextId
  /-- Parts with one id are the same. -/
  same : ∀ left ∈ heads, ∀ right ∈ heads, ∀ part ∈ left.parts, ∀ other ∈ right.parts,
    part.id = other.id → part = other
  /-- All parts are counted. -/
  counted : ∀ stack ∈ heads, ∀ part ∈ stack.parts, part.Counted

variable {stack below left right : SharedStack} {heads : List SharedStack} {nextId : Nat}

@[simp]
theorem entries_push (id : Nat) (entry : StackEntry) (stack : SharedStack) :
    (stack.push id entry).entries = entry :: stack.entries := rfl

theorem self_mem_parts (stack : SharedStack) : stack ∈ stack.parts := by
  cases stack <;> exact List.mem_cons_self

theorem parts_push (id : Nat) (entry : StackEntry) (stack : SharedStack) :
    (stack.push id entry).parts = stack.push id entry :: stack.parts := rfl

theorem parts_of_pop? {subtree : Subtree} (popped : stack.pop? = some (subtree, below)) :
    stack.parts = stack :: below.parts := by
  cases stack with
  | bottom id => cases popped
  | above id entry depth errorCount dynamicPrecedence rest =>
      cases popped
      rfl

theorem Counted.push (counted : stack.Counted) (id : Nat) (entry : StackEntry) :
    (stack.push id entry).Counted where
  depth := by
    rw [entries_push, List.length_cons, ← counted.depth]
    rfl
  errorCount := by
    have below := counted.errorCount
    rw [ParseStack.errorCount] at below
    rw [entries_push, ParseStack.errorCount, List.map_cons, List.foldr_cons, ← below]
    exact Nat.add_comm _ _
  dynamicPrecedence := by
    have below := counted.dynamicPrecedence
    rw [ParseStack.dynamicPrecedence] at below
    rw [entries_push, ParseStack.dynamicPrecedence, List.map_cons, List.foldr_cons, ← below]
    exact Int.add_comm _ _

/-- Stacks of which each part is part of a stack at hand are coherent with them. -/
theorem Coherent.mono {others : List SharedStack} (coherent : Coherent nextId heads)
    (within : ∀ other ∈ others, ∀ part ∈ other.parts, ∃ stack ∈ heads, part ∈ stack.parts) :
    Coherent nextId others where
  named other member part inside := by
    obtain ⟨stack, stackMember, stackInside⟩ := within other member part inside
    exact coherent.named stack stackMember part stackInside
  same left leftMember right rightMember part partInside other otherInside ids := by
    obtain ⟨stack, stackMember, stackInside⟩ := within left leftMember part partInside
    obtain ⟨otherStack, otherMember, inside⟩ := within right rightMember other otherInside
    exact coherent.same stack stackMember otherStack otherMember part stackInside other inside ids
  counted other member part inside := by
    obtain ⟨stack, stackMember, stackInside⟩ := within other member part inside
    exact coherent.counted stack stackMember part stackInside

/-- A stack with a new entry on top is coherent with the stacks at hand. -/
theorem Coherent.add (coherent : Coherent nextId heads) {added : SharedStack}
    {older : List SharedStack} (id : added.id = nextId) (counted : added.Counted)
    (parts : added.parts = added :: older)
    (known : ∀ part ∈ older, ∃ stack ∈ heads, part ∈ stack.parts) :
    Coherent (nextId + 1) (added :: heads) := by
  -- A part of the new list is the new stack or an older part, and ids tell the two apart.
  have split : ∀ stack ∈ added :: heads, ∀ part ∈ stack.parts,
      part = added ∨ ∃ stack ∈ heads, part ∈ stack.parts := by
    intro stack member part inside
    rcases List.mem_cons.1 member with rfl | other
    · rw [parts] at inside
      exact (List.mem_cons.1 inside).imp_right (known part)
    · exact .inr ⟨stack, other, inside⟩
  constructor
  case named =>
    intro stack member part inside
    rcases split stack member part inside with rfl | ⟨other, otherMember, otherInside⟩
    · exact Nat.lt_succ_of_le (Nat.le_of_eq id)
    · exact Nat.lt_succ_of_lt (coherent.named other otherMember part otherInside)
  case same =>
    intro left leftMember right rightMember part partInside other otherInside ids
    rcases split left leftMember part partInside with rfl | ⟨first, firstMember, firstInside⟩ <;>
      rcases split right rightMember other otherInside with
        rfl | ⟨second, secondMember, secondInside⟩
    · rfl
    · have older := coherent.named second secondMember other secondInside
      omega
    · have older := coherent.named first firstMember part firstInside
      omega
    · exact coherent.same first firstMember second secondMember part firstInside other secondInside
        ids
  case counted =>
    intro stack member part inside
    rcases split stack member part inside with rfl | ⟨other, otherMember, otherInside⟩
    · exact counted
    · exact coherent.counted other otherMember part otherInside

/-- Whatever is done with stacks, they stay coherent. -/
theorem AtHand.coherent (history : AtHand nextId heads) : Coherent nextId heads := by
  induction history with
  | nothing => exact ⟨nofun, nofun, nofun⟩
  | start history coherent =>
      exact coherent.add rfl ⟨rfl, rfl, rfl⟩ rfl (List.forall_mem_nil _)
  | push entry history member coherent =>
      have counted := coherent.counted _ member _ (self_mem_parts _)
      exact coherent.add rfl (counted.push _ entry) (parts_push _ entry _)
        fun part inside => ⟨_, member, inside⟩
  | pop history member popped coherent =>
      refine coherent.mono fun other otherMember part inside => ?_
      rcases List.mem_cons.1 otherMember with rfl | older
      · exact ⟨_, member, parts_of_pop? popped ▸ List.mem_cons_of_mem _ inside⟩
      · exact ⟨other, older, inside⟩
  | keep history subset coherent =>
      exact coherent.mono fun other member part inside => ⟨other, subset member, inside⟩

/-- The states of a stack are those of its entries and the start state. -/
theorem states_entries_above (id : Nat) (entry : StackEntry) (depth errorCount : Nat)
    (dynamicPrecedence : Int) (below : SharedStack) :
    (above id entry depth errorCount dynamicPrecedence below).entries.states =
      entry.state :: below.entries.states := rfl

/-- If one id stands for one stack only, the comparison of stacks of one height that stops at a
shared entry tells whether all their states are the same. -/
theorem statesMatch_iff (length : left.entries.length = right.entries.length)
    (same : ∀ part ∈ left.parts, ∀ other ∈ right.parts, part.id = other.id → part = other) :
    left.statesMatch right = true ↔ left.entries.states = right.entries.states := by
  induction left generalizing right with
  | bottom id =>
      cases right with
      | bottom otherId => simp [statesMatch, entries, state]
      | above => cases length
  | above id entry depth errorCount dynamicPrecedence below induction =>
      cases right with
      | bottom otherId => cases length
      | above otherId other otherDepth otherErrors otherPrecedence otherBelow =>
          have later := induction (Nat.succ.inj length) fun part partInside other otherInside =>
            same part (List.mem_cons_of_mem _ partInside) other
              (List.mem_cons_of_mem _ otherInside)
          rw [states_entries_above, states_entries_above, List.cons.injEq, ← later]
          by_cases shared : id = otherId
          · cases same _ List.mem_cons_self _ List.mem_cons_self shared
            simp [statesMatch, later]
          · simp [statesMatch, shared]

/-- The comparison of stacks at hand that stops at a shared entry is that of all their states. -/
theorem AtHand.sameStates_eq (history : AtHand nextId heads) (leftMember : left ∈ heads)
    (rightMember : right ∈ heads) :
    left.sameStates right = (left.entries.states == right.entries.states) := by
  have coherent := history.coherent
  have leftDepth := (coherent.counted left leftMember left left.self_mem_parts).depth
  have rightDepth := (coherent.counted right rightMember right right.self_mem_parts).depth
  rw [Bool.eq_iff_iff, sameStates, Bool.and_eq_true, beq_iff_eq, beq_iff_eq, leftDepth, rightDepth]
  constructor
  · rintro ⟨length, agree⟩
    exact (statesMatch_iff length (coherent.same left leftMember right rightMember)).1 agree
  · intro states
    have length : left.entries.length = right.entries.length := by
      have lengths := congrArg List.length states
      simpa [ParseStack.states] using lengths
    exact ⟨length,
      (statesMatch_iff length (coherent.same left leftMember right rightMember)).2 states⟩

end SharedStack

namespace ParseRun

/-!
## Merging in place

Versions can be merged without a second list: a version is compared with every later one, and of two
that agree the better one takes the place of the first while the other is removed.  The versions
after a removed one move up, so that the next one to compare is at the same position.  In the end
the list is the same as if every version had absorbed what agrees with it.
-/

/-- Compares the version at a position with as many versions from `next` on as the budget says.  One
that agrees is removed, after a better one has changed places with the first. -/
def sweep (position : Nat) : Nat → Nat → List Version → List Version
  | budget + 1, next, versions =>
    match versions[position]?, versions[next]? with
    | some left, some right =>
      if left.agrees right then
        let swapped :=
          if right.rank.better left.rank then (versions.set position right).set next left
          else versions
        sweep position budget next (swapped.eraseIdx next)
      else sweep position budget (next + 1) versions
    | _, _ => versions
  | 0, _, versions => versions

/-- Sweeps from every position on, beginning with the first one given. -/
def sweepFrom : Nat → Nat → List Version → List Version
  | budget + 1, position, versions =>
    if position < versions.length then
      sweepFrom budget (position + 1)
        (sweep position (versions.length - (position + 1)) (position + 1) versions)
    else versions
  | 0, _, versions => versions

/-- The versions with those that agree merged in place. -/
def mergeInPlace (versions : List Version) : List Version :=
  sweepFrom versions.length 0 versions

/-- A version that is swept absorbs what agrees with it. -/
theorem sweep_eq (before kept rest : List Version) (version : Version) :
    sweep before.length rest.length (before.length + 1 + kept.length)
        (before ++ version :: (kept ++ rest)) =
      before ++ (absorb version rest).1 :: (kept ++ (absorb version rest).2) := by
  induction rest generalizing version kept with
  | nil => rfl
  | cons other rest induction =>
      have atVersion : (before ++ version :: (kept ++ other :: rest))[before.length]? =
          some version := by
        simp
      have atOther :
          (before ++ version :: (kept ++ other :: rest))[before.length + 1 + kept.length]? =
            some other := by
        grind
      have removed : (before ++ version :: (kept ++ other :: rest)).eraseIdx
          (before.length + 1 + kept.length) = before ++ version :: (kept ++ rest) := by
        grind
      have exchanged : (((before ++ version :: (kept ++ other :: rest)).set before.length other).set
          (before.length + 1 + kept.length) version).eraseIdx (before.length + 1 + kept.length) =
            before ++ other :: (kept ++ rest) := by
        grind
      rw [List.length_cons, sweep, atVersion, atOther, absorb, preferred]
      simp only
      split
      · split
        · rw [exchanged, induction]
        · rw [removed, induction]
      · have moved := induction (kept ++ [other]) version
        simpa [Nat.add_assoc] using moved

/-- Sweeping from a position on merges the versions from there on. -/
theorem sweepFrom_eq {budget : Nat} (before : List Version) {versions : List Version}
    (enough : versions.length ≤ budget) :
    sweepFrom budget before.length (before ++ versions) =
      before ++ mergeWithin budget versions := by
  induction budget generalizing before versions with
  | zero =>
      obtain rfl := List.length_eq_zero_iff.1 (Nat.le_zero.1 enough)
      rfl
  | succ budget induction =>
      cases versions with
      | nil => simp [sweepFrom, mergeWithin]
      | cons version rest =>
          have swept := sweep_eq before [] rest version
          have remaining :
              (before ++ version :: rest).length - (before.length + 1) = rest.length := by
            rw [List.length_append, List.length_cons]
            omega
          have shorter : (absorb version rest).2.length ≤ budget :=
            (absorb_sublist version rest).length_le.trans (Nat.le_of_succ_le_succ enough)
          have later := induction (before ++ [(absorb version rest).1]) shorter
          rw [List.nil_append, List.nil_append, List.length_nil, Nat.add_zero] at swept
          rw [sweepFrom, if_pos (by simp), remaining, swept, mergeWithin]
          simpa using later

/-- Merging in place gives the same versions in the same order. -/
theorem mergeInPlace_eq (versions : List Version) : mergeInPlace versions = merge versions :=
  sweepFrom_eq [] le_rfl

/-! ## What stays -/

variable (run : ParseRun)

/-- Every version that agrees with a merged one is no better. -/
theorem merge_least {versions : List Version} {leader version : Version}
    (leads : leader ∈ merge versions) (member : version ∈ versions)
    (agrees : leader.agrees version = true) : version.rank.better leader.rank = false := by
  obtain ⟨kept, keptMember, same, least⟩ := merge_covers member
  -- Only one of the merged versions agrees with the version.
  have through : kept.agrees leader = true := Version.agrees_trans same (Version.agrees_symm agrees)
  have alone : kept = leader := by
    by_contra different
    have symmetric : Std.Symm fun left right : Version => left.agrees right = false :=
      ⟨fun left right apart => (Version.agrees_comm right left).trans apart⟩
    have apart := (merge_apart versions).forall keptMember leads different
    rw [through] at apart
    cases apart
  exact Rank.not_better_iff.2 (alone ▸ least)

theorem survivors_apart :
    run.survivors.Pairwise fun left right => left.agrees right = false :=
  (merge_apart run.versions).sublist run.survivors_sublist

/-- A merged version is removed only if it has more errors than a finished tree or if six others
stay than which it is not better. -/
theorem mem_survivors_of_merge {leader : Version} (leads : leader ∈ merge run.versions) :
    leader ∈ run.survivors ∨
      (∃ finished ∈ run.finished, finished.root.errorCount < leader.stack.errorCount) ∨
      6 ≤ run.survivors.length ∧
        ∀ kept ∈ run.survivors, leader.rank.better kept.rank = false := by
  rcases run.mem_promising_or leads with promising | exceeds
  · refine (run.mem_survivors_or promising).imp_right fun ⟨crowded, worst⟩ => .inr ⟨crowded, ?_⟩
    exact fun kept member => Rank.not_better_iff.2 (worst kept member)
  · exact .inr (.inl exceeds)

/-- However many versions and finished trees there are, condensing leaves at most six versions, no
two of which agree.  They are leaders, up to the path of the only one.  Merging in place gives the
leaders: one for all versions that agree with it, and none of these is better.  A leader is removed
only if it has more errors than a finished tree or if six others stay than which it is not better.
Whatever has been done with stacks that share entries, they know their merits, and the comparison
that stops at a shared entry is that of all states. -/
theorem condense_keeps_best {nextId : Nat} {heads : List SharedStack}
    (history : SharedStack.AtHand nextId heads) :
    (run.condense.versions.length ≤ 6 ∧
      run.condense.versions.Pairwise fun left right => left.agrees right = false) ∧
    (run.condense.versions = run.survivors ∨
      ∃ only, run.survivors = [only] ∧ run.condense.versions = [{ only with path := [] }]) ∧
    mergeInPlace run.versions = merge run.versions ∧
    ((merge run.versions).Subperm run.versions ∧
      ((merge run.versions).Pairwise fun left right => left.agrees right = false) ∧
      (∀ version ∈ run.versions, ∃ leader ∈ merge run.versions, leader.agrees version = true) ∧
      ∀ leader ∈ merge run.versions, ∀ version ∈ run.versions, leader.agrees version = true →
        version.rank.better leader.rank = false) ∧
    (run.survivors.Sublist (merge run.versions) ∧
      ∀ leader ∈ merge run.versions, leader ∈ run.survivors ∨
        (∃ finished ∈ run.finished, finished.root.errorCount < leader.stack.errorCount) ∨
        6 ≤ run.survivors.length ∧
          ∀ kept ∈ run.survivors, leader.rank.better kept.rank = false) ∧
    ∀ left ∈ heads, left.errorCount = left.entries.errorCount ∧
      left.dynamicPrecedence = left.entries.dynamicPrecedence ∧
      ∀ right ∈ heads, left.sameStates right = (left.entries.states == right.entries.states) := by
  have kept := run.versions_condense_eq
  refine ⟨⟨?few, ?apart⟩, kept, mergeInPlace_eq run.versions,
    ⟨mergeWithin_subperm _ _, merge_apart _, ?covers, ?least⟩,
    ⟨run.survivors_sublist, fun leader => run.mem_survivors_of_merge⟩, fun left member => ?shared⟩
  case few =>
    rcases kept with same | ⟨only, -, same⟩
    · rw [same]
      exact run.length_survivors_le
    · simp [same]
  case apart =>
    rcases kept with same | ⟨only, -, same⟩
    · rw [same]
      exact run.survivors_apart
    · rw [same]
      exact List.pairwise_singleton _ _
  case covers =>
    intro version member
    obtain ⟨leader, leads, agrees, -⟩ := merge_covers member
    exact ⟨leader, leads, agrees⟩
  case least => exact fun leader leads version => merge_least leads
  case shared =>
    have counted := history.coherent.counted left member left left.self_mem_parts
    exact ⟨counted.errorCount, counted.dynamicPrecedence, fun right => history.sameStates_eq member⟩

/-- Of eight versions the second agrees with the first and took a later alternative, and the last is
the worst of seven leaders.  Two stacks at hand share their lower entries. -/
theorem condense_keeps_best_eight :
    let version (position : Nat) (path : List Nat) : Version := ⟨[], position, none, path⟩
    let run : ParseRun :=
      ⟨none, [version 0 [0], version 0 [1], version 1 [], version 2 [], version 3 [], version 4 [],
        version 5 [], version 6 [7]], [], default, none⟩
    let fork := (SharedStack.bottom 0).push 1 ⟨⟨1⟩, default⟩
    let left := fork.push 2 ⟨⟨2⟩, default⟩
    let right := fork.push 3 ⟨⟨2⟩, default⟩
    SharedStack.AtHand 4 [right, left] ∧
      run.condense.versions.map (fun version => (version.position, version.path)) =
        [(0, [0]), (1, []), (2, []), (3, []), (4, []), (5, [])] ∧
      run.condense.versions.length ≤ 6 ∧ left.sameStates right = true ∧
      left.sameStates right = (left.entries.states == right.entries.states) := by
  intro version run fork left right
  have history : SharedStack.AtHand 4 [right, left] :=
    .keep (.push _ (.push _ (.push _ (.start .nothing) List.mem_cons_self) List.mem_cons_self)
      (.tail _ (.head _))) (List.cons_subset_cons _ (List.cons_subset_cons _ (List.nil_subset _)))
  obtain ⟨⟨few, -⟩, -, -, -, -, same⟩ := run.condense_keeps_best history
  obtain ⟨-, -, alike⟩ := same left (.tail _ (.head _))
  exact ⟨history, by decide, few, by decide, alike right (.head _)⟩

end ParseRun

end IncrementalGlr
