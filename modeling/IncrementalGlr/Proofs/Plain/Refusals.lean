import IncrementalGlr.Proofs.Plain.Expansion
import IncrementalGlr.Proofs.Plain.Terminals

/-!
# Why descriptions are refused

The stages that lead to a plain grammar only fail for what the description says: none of them has a
table to load, and none of them but the lookup of a token finds that a token was not collected.
-/

namespace IncrementalGlr

/-- Whether the loader refuses a pattern. -/
def LoadError.IsOfPattern (error : LoadError) : Prop := ∃ name, error = .invalidPattern name

namespace CompileError

/-- Whether the description is to blame for an error.  Patterns are the only part of a description
that is left to the loader. -/
def IsOfDescription (error : CompileError) : Prop :=
  ∀ defect, error = .load defect → defect.IsOfPattern

/-- Whether an error is neither one of the loader nor that of a token that was not collected. -/
def IsPlain (error : CompileError) : Prop :=
  (∀ defect, error ≠ .load defect) ∧ ∀ owner, error ≠ .invalidToken owner .notCollected

theorem IsPlain.isOfDescription {error : CompileError} (plain : error.IsPlain) :
    error.IsOfDescription := fun defect same => absurd same (plain.1 defect)

end CompileError

/-- Whether a computation only fails for reasons that lie in the description. -/
abbrev FailsFairly {α : Type} (outcome : Except CompileError α) : Prop :=
  Except.FailsWith CompileError.IsOfDescription outcome

/-- Whether a computation only fails with plain errors. -/
abbrev FailsPlainly {α : Type} (outcome : Except CompileError α) : Prop :=
  Except.FailsWith CompileError.IsPlain outcome

theorem failsPlainly_tokenPattern (owner : String) (rule : Rule) :
    FailsPlainly (rule.tokenPattern owner) := by
  unfold Rule.tokenPattern
  split
  · exact Except.failsWith_ok _
  · split
    · exact Except.failsWith_ok _
    · exact Except.failsWith_error ⟨nofun, nofun⟩

namespace Terminals

theorem failsPlainly_addExternal (terminals : Terminals) (rule : Rule) :
    FailsPlainly (terminals.addExternal rule) := by
  unfold addExternal
  split
  · exact Except.failsWith_ok _
  · exact Except.failsWith_ok _
  · exact Except.failsWith_error ⟨nofun, nofun⟩

theorem failsPlainly_addNamed (terminals : Terminals) (name : String) (rule : Rule) :
    FailsPlainly (terminals.addNamed name rule) :=
  (failsPlainly_tokenPattern name rule).bind fun _ _ => Except.failsWith_ok _

theorem failsPlainly_inlineKey (owner : String) (rule : Rule) :
    FailsPlainly (inlineKey owner rule) := by
  unfold inlineKey
  split
  · exact (failsPlainly_tokenPattern owner _).bind fun _ _ => Except.failsWith_ok _
  · refine (failsPlainly_tokenPattern owner _).bind fun pattern _ => ?_
    cases pattern <;> exact Except.failsWith_ok _

theorem failsPlainly_addInline (terminals : Terminals) (owner : String) (rule : Rule) :
    FailsPlainly (terminals.addInline owner rule) :=
  (failsPlainly_inlineKey owner rule).bind fun _ _ =>
    (failsPlainly_tokenPattern owner rule).bind fun _ _ => Except.failsWith_ok _

theorem failsPlainly_collect (owner : String) (terminals : Terminals) (rule : Rule) :
    FailsPlainly (collect owner terminals rule) := by
  rw [collect_eq]
  exact Except.failsWith_foldlM (fun terminals token =>
    (failsPlainly_addInline terminals owner token).bind fun _ _ => Except.failsWith_ok _) _ _

theorem failsPlainly_addExtra (terminals : Terminals) (rule : Rule) :
    FailsPlainly (terminals.addExtra rule) := by
  unfold addExtra
  split
  · split
    · exact Except.failsWith_ok _
    · exact Except.failsWith_error ⟨nofun, nofun⟩
  · split
    · exact (failsPlainly_addInline terminals _ _).bind fun _ _ => Except.failsWith_ok _
    · exact Except.failsWith_error ⟨nofun, nofun⟩

theorem failsPlainly_ofRules (description : Description) :
    FailsPlainly (ofRules description) := by
  refine (Except.failsWith_foldlM failsPlainly_addExternal _ _).bind fun externals _ =>
    Except.failsWith_foldlM (fun terminals entry => ?_) _ _
  obtain ⟨name, rule⟩ := entry
  dsimp only
  split
  · exact failsPlainly_addNamed terminals name rule
  · exact Except.failsWith_ok terminals

end Terminals

namespace Description

theorem failsPlainly_collectTerminals (description : Description) (named : Terminals) :
    FailsPlainly (description.collectTerminals named) :=
  (Except.failsWith_foldlM (fun terminals (entry : String × Rule) =>
    Terminals.failsPlainly_collect entry.1 terminals entry.2) _ _).bind
      fun inline _ => Except.failsWith_foldlM Terminals.failsPlainly_addExtra _ inline

theorem failsPlainly_conflictSymbols (scope : Expansion.Scope) (names : List String) :
    FailsPlainly (conflictSymbols scope names) := by
  refine Except.failsWith_mapM (fun name => ?_) names
  split
  · exact Except.failsWith_ok _
  · refine Except.failsWith_error ⟨fun _ never => ?_, fun _ never => ?_⟩ <;> cases never

end Description

end IncrementalGlr
