import IncrementalGlr.Parse.Step
import Mathlib.Data.List.Lex
import Mathlib.Data.List.Perm.Subperm
import Mathlib.Data.Prod.Lex

/-!
# Merging and dropping versions

Condensing a run only removes versions.  What is left of a group of versions that agree is one of
them, and only the path of a version may be forgotten.

Outcomes are ordered by the number of errors, then by the dynamic precedence, the higher one first,
then by the alternatives taken, like words in a dictionary.  This is a linear order, and the best of
several outcomes comes first in it.
-/

namespace IncrementalGlr

/-! ## The order of outcomes -/

namespace Rank

/-- What outcomes are compared by; a better outcome comes earlier. -/
def key (rank : Rank) : ℕ ×ₗ ℤᵒᵈ ×ₗ List ℕ :=
  toLex (rank.errorCount, toLex (OrderDual.toDual rank.dynamicPrecedence, rank.path))

theorem pathBefore_iff {left right : List Nat} : pathBefore left right = true ↔ left < right := by
  induction left generalizing right with
  | nil => cases right <;> simp [pathBefore]
  | cons first rest induction =>
      cases right with
      | nil => simp [pathBefore]
      | cons other others =>
          rw [pathBefore, List.cons_lt_cons_iff]
          split
          · next different => simp [different]
          · next same =>
              rw [not_not] at same
              simp [same, induction]

theorem better_iff {left right : Rank} : left.better right = true ↔ left.key < right.key := by
  simp only [key, Prod.Lex.toLex_lt_toLex, OrderDual.toDual_lt_toDual,
    EmbeddingLike.apply_eq_iff_eq]
  unfold better
  split
  · next different => simp [different]
  · next errors =>
      split
      · next different => simp [not_not.1 errors, different]
      · next precedences => simp [not_not.1 errors, not_not.1 precedences, pathBefore_iff]

theorem not_better_iff {left right : Rank} : left.better right = false ↔ right.key ≤ left.key := by
  rw [← Bool.not_eq_true, better_iff, not_lt]

/-- With as many errors an outcome that is no worse has no smaller dynamic precedence. -/
theorem precedence_of_key_le {left right : Rank} (errors : left.errorCount = right.errorCount)
    (less : left.key ≤ right.key) : right.dynamicPrecedence ≤ left.dynamicPrecedence := by
  rw [key, key, errors, Prod.Lex.toLex_le_toLex] at less
  have below := less.resolve_left (lt_irrefl _)
  rw [Prod.Lex.toLex_le_toLex] at below
  rcases below.2 with higher | ⟨same, -⟩
  · exact (OrderDual.toDual_lt_toDual.1 higher).le
  · exact (OrderDual.toDual_inj.1 same).ge

section Best

variable {α : Type} {rank : α → Rank} {values : List α} {best : α}

/-- The better of the best outcome so far and the next one. -/
def betterOf (rank : α → Rank) (best other : α) : α :=
  if (rank other).better (rank best) then other else best

theorem best?_cons (rank : α → Rank) (first : α) (rest : List α) :
    best? rank (first :: rest) = some (rest.foldl (betterOf rank) first) := rfl

theorem betterOf_cases (best other : α) :
    betterOf rank best other = best ∧ (rank best).key ≤ (rank other).key ∨
      betterOf rank best other = other ∧ (rank other).key ≤ (rank best).key := by
  unfold betterOf
  split
  · next better => exact .inr ⟨rfl, (better_iff.1 better).le⟩
  · next worse => exact .inl ⟨rfl, not_better_iff.1 (Bool.not_eq_true _ ▸ worse)⟩

/-- The best of several outcomes is one of them, and none of them is better. -/
theorem best?_spec (found : best? rank values = some best) :
    best ∈ values ∧ ∀ value ∈ values, (rank best).key ≤ (rank value).key := by
  have folded : ∀ (first : α) (rest : List α), rest.foldl (betterOf rank) first ∈ first :: rest ∧
      ∀ value ∈ first :: rest,
        (rank (rest.foldl (betterOf rank) first)).key ≤ (rank value).key := by
    intro first rest
    induction rest generalizing first with
    | nil => exact ⟨List.mem_cons_self, List.forall_mem_singleton.2 le_rfl⟩
    | cons other rest induction =>
        obtain ⟨member, least⟩ := induction (betterOf rank first other)
        obtain ⟨atBest, atRest⟩ := List.forall_mem_cons.1 least
        rw [List.foldl_cons, List.forall_mem_cons, List.forall_mem_cons]
        rcases @betterOf_cases _ rank first other with ⟨same, less⟩ | ⟨same, less⟩ <;>
          rw [same] at member atBest atRest ⊢
        · exact ⟨List.cons_subset_cons first (List.subset_cons_self other rest) member, atBest,
            atBest.trans less, atRest⟩
        · exact ⟨List.mem_cons_of_mem first member, atBest.trans less, atBest, atRest⟩
  cases values with
  | nil => cases found
  | cons first rest =>
      rw [best?_cons] at found
      obtain rfl := Option.some.inj found
      exact folded first rest

theorem best?_mem (found : best? rank values = some best) : best ∈ values := (best?_spec found).1

/-- With as many errors in all outcomes the best one has the largest dynamic precedence. -/
theorem precedence_best? {errors : Nat} (found : best? rank values = some best)
    (same : ∀ value ∈ values, (rank value).errorCount = errors) :
    ∀ value ∈ values, (rank value).dynamicPrecedence ≤ (rank best).dynamicPrecedence := by
  obtain ⟨bestMember, least⟩ := best?_spec found
  intro value member
  exact precedence_of_key_le ((same best bestMember).trans (same value member).symm)
    (least value member)

end Best

end Rank

/-! ## Merging and dropping -/

namespace Version

theorem agrees_iff {left right : Version} : left.agrees right = true ↔
    left.position = right.position ∧ left.stack.states = right.stack.states := by
  rw [agrees, Bool.and_eq_true, beq_iff_eq, beq_iff_eq]

theorem agrees_trans {left middle right : Version} (first : left.agrees middle = true)
    (second : middle.agrees right = true) : left.agrees right = true := by
  rw [agrees_iff] at first second ⊢
  exact ⟨first.1.trans second.1, first.2.trans second.2⟩

theorem agrees_symm {left right : Version} (same : left.agrees right = true) :
    right.agrees left = true := by
  rw [agrees_iff] at same ⊢
  exact ⟨same.1.symm, same.2.symm⟩

theorem agrees_comm (left right : Version) : left.agrees right = right.agrees left :=
  Bool.eq_iff_iff.2 ⟨agrees_symm, agrees_symm⟩

theorem agrees_refl (version : Version) : version.agrees version = true :=
  agrees_iff.2 ⟨rfl, rfl⟩

end Version

namespace ParseRun

theorem preferred_eq (left right : Version) :
    preferred left right = left ∨ preferred left right = right := by
  unfold preferred
  split
  · exact .inr rfl
  · exact .inl rfl

theorem preferred_agrees {left right : Version} (agrees : left.agrees right = true) :
    (preferred left right).agrees left = true := by
  rcases preferred_eq left right with same | same
  · rw [same]
    exact left.agrees_refl
  · rw [same]
    exact Version.agrees_symm agrees

theorem absorb_agrees (version : Version) (others : List Version) :
    (absorb version others).1.agrees version = true := by
  induction others generalizing version with
  | nil => exact version.agrees_refl
  | cons other rest induction =>
      rw [absorb]
      split
      · next agrees => exact Version.agrees_trans (induction _) (preferred_agrees agrees)
      · exact induction version

theorem absorb_sublist (version : Version) (others : List Version) :
    (absorb version others).2.Sublist others := by
  induction others generalizing version with
  | nil => exact List.Sublist.refl []
  | cons other rest induction =>
      rw [absorb]
      split
      · exact (induction _).cons other
      · exact (induction version).cons_cons other

theorem absorb_subperm (version : Version) (others : List Version) :
    ((absorb version others).1 :: (absorb version others).2).Subperm (version :: others) := by
  induction others generalizing version with
  | nil => exact List.Subperm.refl _
  | cons other rest induction =>
      rw [absorb]
      split
      · refine (induction _).trans (List.Sublist.subperm ?_)
        rcases preferred_eq version other with left | right
        · rw [left]
          exact (List.sublist_cons_self other rest).cons_cons version
        · rw [right]
          exact List.sublist_cons_self version _
      · have kept := (List.subperm_cons other).2 (induction version)
        exact ((List.Perm.swap _ _ _).subperm.trans kept).trans (List.Perm.swap _ _ _).subperm

theorem mergeWithin_subperm (budget : Nat) (versions : List Version) :
    (mergeWithin budget versions).Subperm versions := by
  induction budget generalizing versions with
  | zero => exact List.nil_subperm
  | succ budget induction =>
      cases versions with
      | nil => exact List.nil_subperm
      | cons version rest =>
          exact ((List.subperm_cons _).2 (induction _)).trans (absorb_subperm version rest)

theorem merge_subset (versions : List Version) : merge versions ⊆ versions :=
  (mergeWithin_subperm versions.length versions).subset

theorem dropWorst_sublist (count : Nat) (versions : List Version) :
    (dropWorst count versions).Sublist versions := by
  induction count generalizing versions with
  | zero => exact List.Sublist.refl versions
  | succ count induction => exact (induction _).trans (List.eraseIdx_sublist _ _)

variable (run : ParseRun)

theorem promising_subperm : run.promising.Subperm run.versions := by
  have merged := mergeWithin_subperm run.versions.length run.versions
  unfold promising
  split
  · exact List.filter_sublist.subperm.trans merged
  · exact merged

theorem survivors_subperm : run.survivors.Subperm run.versions :=
  (dropWorst_sublist _ _).subperm.trans run.promising_subperm

/-- Every version that stays alive was alive, up to its path. -/
theorem mem_condense {version : Version} (member : version ∈ run.condense.versions) :
    ∃ origin ∈ run.versions, version = { origin with path := version.path } := by
  unfold condense at member
  split at member
  · next only _ kept =>
      obtain rfl := List.mem_singleton.1 member
      exact ⟨only, run.survivors_subperm.subset (kept ▸ List.mem_singleton_self only), rfl⟩
  · exact ⟨version, run.survivors_subperm.subset member, rfl⟩

/-- Condensing leaves no more of what does not depend on paths. -/
theorem map_condense_subperm {α : Type} {value : Version → α}
    (pathless : ∀ version path, value { version with path } = value version) :
    (run.condense.versions.map value).Subperm (run.versions.map value) := by
  have kept : (run.survivors.map value).Subperm (run.versions.map value) := by
    obtain ⟨listed, same, within⟩ := run.survivors_subperm
    exact ⟨listed.map value, same.map value, within.map value⟩
  unfold condense
  split
  · next only _ same =>
      rw [same] at kept
      rwa [List.map_singleton, pathless]
  · exact kept

@[simp]
theorem condense_finished : run.condense.finished = run.finished := by
  unfold condense
  split <;> simp_all

@[simp]
theorem condense_reuse : run.condense.reuse = run.reuse := by
  unfold condense
  split <;> rfl

@[simp]
theorem condense_lastRecovery : run.condense.lastRecovery = run.lastRecovery := by
  unfold condense
  split <;> rfl

/-! ## A step taken apart -/

section Step

variable {m : Type → Type} [Monad m] [SubtreeMaker m]

/-- How a version goes on that knows what comes next: a whole node of an earlier tree is taken over,
anything else is acted on. -/
def onLookahead (job : ParseJob) (index : Nat) (version : Version) (lookahead : Lookahead)
    (run : ParseRun) : m ParseRun :=
  match lookahead with
  | .reused node =>
    if node.isLeaf then run.act job index version lookahead
    else run.reuseNode job.grammar index version node
  | .token .. => run.act job index version lookahead

theorem advance_of_pending {version : Version} {lookahead : Lookahead}
    (pending : version.lookahead = some lookahead) (job : ParseJob) (index : Nat) (run : ParseRun) :
    run.advance (m := m) job index version =
      run.onLookahead job index { version with lookahead := none } lookahead := by
  unfold advance
  rw [pending]
  rfl

theorem advance_of_unknown {version : Version} (unknown : version.lookahead = none)
    (job : ParseJob) (index : Nat) (run : ParseRun) :
    run.advance (m := m) job index version =
      (run.nextLookahead job version).1.onLookahead job index { version with lookahead := none }
        (run.nextLookahead job version).2 := by
  unfold advance
  rw [unknown]
  rfl

/-- What a step leaves to be condensed. -/
def advanced? (job : ParseJob) (run : ParseRun) : Option (m ParseRun) := do
  let index ← nextIndex? run.versions
  let version ← run.versions[index]?
  some (advance job index version { run with versions := run.versions.eraseIdx index })

theorem step?_eq_map (job : ParseJob) (run : ParseRun) :
    run.step? (m := m) job = (run.advanced? (m := m) job).map fun advanced => do
      let run ← advanced
      return run.condense := by
  unfold step? advanced?
  cases nextIndex? run.versions with
  | none => rfl
  | some index =>
      change (run.versions[index]?).bind _ = ((run.versions[index]?).bind _).map _
      cases run.versions[index]? <;> rfl

end Step

end ParseRun

end IncrementalGlr
