import Mathlib.Data.List.Forall2

/-!
# Outcomes of computations that may fail

What the success of a composed computation says about its parts, and with which errors it may fail.
-/

namespace IncrementalGlr

theorem Except.bind_eq_ok {ε α β : Type} {first : Except ε α} {next : α → Except ε β} {result : β} :
    first >>= next = .ok result ↔ ∃ value, first = .ok value ∧ next value = .ok result := by
  cases first with
  | error error => exact ⟨nofun, nofun⟩
  | ok value =>
      constructor
      · exact fun succeeded => ⟨value, rfl, succeeded⟩
      · rintro ⟨_, ⟨⟩, succeeded⟩
        exact succeeded

/-- What follows a check is only reached if the check succeeds. -/
theorem Except.ite_throw_eq_ok {ε α β : Type} {refused : Prop} [Decidable refused] {error : ε}
    {skipped : α → Except ε β} {next : Except ε β} {result : β} :
    (if refused then throw error >>= skipped else next) = .ok result ↔
      ¬ refused ∧ next = .ok result := by
  split
  · next broken => exact iff_of_false nofun fun reached => reached.1 broken
  · next kept => exact (and_iff_right kept).symm

theorem Except.exists_of_isOk {ε α : Type} {outcome : Except ε α} (succeeds : outcome.isOk = true) :
    ∃ value, outcome = .ok value := by
  cases outcome with
  | error error => cases succeeds
  | ok value => exact ⟨value, rfl⟩

theorem Except.exists_of_any {ε α : Type} {outcome : Except ε α} {test : α → Bool}
    (succeeds : outcome.toOption.any test = true) :
    ∃ value, outcome = .ok value ∧ test value = true := by
  cases outcome with
  | error error => cases succeeds
  | ok value => exact ⟨value, rfl, succeeds⟩

/-- Each result of a list of computations is that of the computation at its place. -/
theorem Except.forall₂_of_mapM {ε α β : Type} {run : α → Except ε β} {values : List α}
    {results : List β} (succeeded : values.mapM run = .ok results) :
    List.Forall₂ (fun value result => run value = .ok result) values results := by
  induction values generalizing results with
  | nil =>
      cases succeeded
      exact .nil
  | cons value rest induction =>
      rw [List.mapM_cons] at succeeded
      obtain ⟨first, here, later⟩ := bind_eq_ok.1 succeeded
      obtain ⟨others, there, same⟩ := bind_eq_ok.1 later
      cases same
      exact .cons here (induction there)

/-- Each of the results belongs to one of the values. -/
theorem Except.source_of_mapM {ε α β : Type} {run : α → Except ε β} {values : List α}
    {results : List β} (succeeded : values.mapM run = .ok results) {result : β}
    (member : result ∈ results) : ∃ value ∈ values, run value = .ok result := by
  have each := forall₂_of_mapM succeeded
  clear succeeded
  induction each with
  | nil => cases member
  | cons here rest induction =>
      rcases List.mem_cons.1 member with rfl | later
      · exact ⟨_, List.mem_cons_self, here⟩
      · obtain ⟨value, valueMember, there⟩ := induction later
        exact ⟨value, List.mem_cons_of_mem _ valueMember, there⟩

/-- What every step of a computation over a list preserves holds of its result. -/
theorem Except.foldlM_preserves {ε α β : Type} {step : β → α → Except ε β} {holds : β → Prop}
    (preserves : ∀ state value next, holds state → step state value = .ok next → holds next)
    {values : List α} {first last : β} (start : holds first)
    (succeeded : values.foldlM step first = .ok last) : holds last := by
  induction values generalizing first with
  | nil =>
      cases succeeded
      exact start
  | cons value rest induction =>
      rw [List.foldlM_cons] at succeeded
      obtain ⟨next, here, later⟩ := bind_eq_ok.1 succeeded
      exact induction (preserves first value next start here) later

/-- Whether a computation fails with errors of a kind only. -/
def Except.FailsWith {ε α : Type} (kind : ε → Prop) (outcome : Except ε α) : Prop :=
  ∀ error, outcome = .error error → kind error

section Failure

variable {ε α β : Type} {kind : ε → Prop}

theorem Except.failsWith_ok (value : α) : Except.FailsWith kind (.ok value) :=
  nofun

theorem Except.failsWith_error {error : ε} (holds : kind error) :
    Except.FailsWith kind (.error error : Except ε α) := by
  rintro _ ⟨⟩
  exact holds

theorem Except.FailsWith.bind {first : Except ε α} {next : α → Except ε β}
    (firstFails : Except.FailsWith kind first)
    (nextFails : ∀ value, first = .ok value → Except.FailsWith kind (next value)) :
    Except.FailsWith kind (first >>= next) := by
  cases first with
  | error error => exact Except.failsWith_error (firstFails error rfl)
  | ok value => exact nextFails value rfl

theorem Except.failsWith_mapM {run : α → Except ε β}
    (fails : ∀ value, Except.FailsWith kind (run value)) (values : List α) :
    Except.FailsWith kind (values.mapM run) := by
  induction values with
  | nil => exact Except.failsWith_ok []
  | cons value rest induction =>
      rw [List.mapM_cons]
      refine Except.FailsWith.bind (fails value) fun result _ => ?_
      exact Except.FailsWith.bind induction fun results _ => Except.failsWith_ok _

theorem Except.failsWith_foldlM {step : β → α → Except ε β}
    (fails : ∀ state value, Except.FailsWith kind (step state value)) (values : List α) (start : β) :
    Except.FailsWith kind (values.foldlM step start) := by
  induction values generalizing start with
  | nil => exact Except.failsWith_ok start
  | cons value rest induction =>
      rw [List.foldlM_cons]
      exact Except.FailsWith.bind (fails start value) fun next _ => induction next

end Failure

/-- Whether a computation succeeds only with values of one kind and fails only with errors of
another kind. -/
def Except.Meets {ε α : Type} (good : α → Prop) (bad : ε → Prop) : Except ε α → Prop
  | .ok value => good value
  | .error error => bad error

section Contracts

variable {ε α β : Type} {good : α → Prop} {bad : ε → Prop}

theorem Except.Meets.bind {better : β → Prop} {first : Except ε α} {next : α → Except ε β}
    (meets : Except.Meets good bad first)
    (onward : ∀ value, good value → Except.Meets better bad (next value)) :
    Except.Meets better bad (first >>= next) := by
  cases first with
  | error error => exact meets
  | ok value => exact onward value meets

theorem Except.Meets.imp {better : α → Prop} {worse : ε → Prop} {outcome : Except ε α}
    (meets : Except.Meets good bad outcome) (onGood : ∀ value, good value → better value)
    (onBad : ∀ error, bad error → worse error) : Except.Meets better worse outcome := by
  cases outcome with
  | error error => exact onBad error meets
  | ok value => exact onGood value meets

theorem Except.meets_mapM {better : β → Prop} {run : α → Except ε β} {values : List α}
    (each : ∀ value ∈ values, Except.Meets better bad (run value)) :
    Except.Meets (fun results => ∀ result ∈ results, better result) bad (values.mapM run) := by
  induction values with
  | nil => exact nofun
  | cons value rest induction =>
      obtain ⟨here, later⟩ := List.forall_mem_cons.1 each
      rw [List.mapM_cons]
      refine here.bind fun result met => (induction later).bind fun results others => ?_
      exact List.forall_mem_cons.2 ⟨met, others⟩

end Contracts

end IncrementalGlr
