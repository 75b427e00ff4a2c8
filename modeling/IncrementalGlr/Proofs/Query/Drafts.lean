import IncrementalGlr.Proofs.Table.Loaded
import IncrementalGlr.Query.Basic
import IncrementalGlr.Query.Reader
import Mathlib.Data.List.Induction

/-!
# What has been read of a query

While a query is read, its steps stay a forest whose roots are still to be used, its captures are
numbered by distinct names, and its steps ask only for nodes that a tree of the grammar can show.
-/

namespace IncrementalGlr

/-! ## Steps as a forest

The steps of a query stand in a row in which each of them is used once, by a later step or as a root
of a pattern.  So the row is a forest, and it can be read as trees from its front.
-/

namespace FlatStep

/-- Whether steps in a row are a forest with the given roots. -/
structure Forest (steps : Array FlatStep) (roots : List Nat) : Prop where
  /-- A step is made of steps before it. -/
  earlier : ∀ (index : Nat) step, steps[index]? = some step →
    ∀ reference ∈ step.references, reference < index
  /-- Every step is used once, by another step or as a root. -/
  once : (steps.toList.flatMap references ++ roots).Perm (List.range steps.size)

theorem forest_empty : Forest #[] [] where
  earlier index step found := by cases found
  once := List.Perm.nil

/-- A new step uses roots and is a root itself. -/
theorem Forest.push {steps : Array FlatStep} {roots : List Nat} {step : FlatStep}
    (forest : Forest steps (step.references ++ roots)) :
    Forest (steps.push step) (steps.size :: roots) := by
  constructor
  · intro index other found reference member
    rw [Array.getElem?_push] at found
    split at found
    · next last =>
        cases found
        rw [last, ← List.mem_range, ← forest.once.mem_iff]
        exact List.mem_append_right _ (List.mem_append_left _ member)
    · exact forest.earlier index other found reference member
  · rw [Array.toList_push, List.flatMap_append, List.flatMap_singleton, Array.size_push,
      List.range_succ]
    refine List.perm_middle.trans (.trans (.cons _ ?_) (List.perm_append_singleton _ _).symm)
    rw [List.append_assoc]
    exact forest.once

theorem Forest.perm {steps : Array FlatStep} {roots others : List Nat}
    (forest : Forest steps roots) (same : roots.Perm others) : Forest steps others :=
  ⟨forest.earlier, (same.symm.append_left _).trans forest.once⟩

/-! ### Captures -/

/-- Whether a step differs from another one at most by a further capture. -/
structure Gains (capture : Nat) (before after : FlatStep) : Prop where
  /-- It is made of the same steps. -/
  references : after.references = before.references
  /-- It asks the same of a node. -/
  test : after.test? = before.test?
  /-- It has no other captures. -/
  captures : ∀ number ∈ after.captures, number ∈ before.captures ∨ number = capture

section Gains

variable {capture : Nat} {first second third : FlatStep}

theorem Gains.refl (step : FlatStep) : Gains capture step step := ⟨rfl, rfl, fun _ => .inl⟩

theorem Gains.trans (left : Gains capture first second) (right : Gains capture second third) :
    Gains capture first third :=
  ⟨right.references.trans left.references, right.test.trans left.test, fun number member =>
    (right.captures number member).elim (left.captures number) .inr⟩

theorem gains_node {test : NodeTest} {children captures : List Nat} :
    Gains capture (.node test children captures) (.node test children (captures ++ [capture])) :=
  ⟨rfl, rfl, fun _ member => (List.mem_append.1 member).imp_right List.mem_singleton.1⟩

end Gains

/-- Whether the steps of a row differ from those of another one at most by a further capture. -/
structure GainsEach (capture : Nat) (before after : Array FlatStep) : Prop where
  /-- There are as many steps. -/
  size : after.size = before.size
  /-- Each of them is as before but for the capture. -/
  each : ∀ (index : Nat) step, after[index]? = some step →
    ∃ earlier, before[index]? = some earlier ∧ Gains capture earlier step

section GainsEach

variable {capture : Nat} {first second third : Array FlatStep}

theorem GainsEach.refl (steps : Array FlatStep) : GainsEach capture steps steps :=
  ⟨rfl, fun _ step found => ⟨step, found, .refl step⟩⟩

theorem GainsEach.trans (left : GainsEach capture first second)
    (right : GainsEach capture second third) : GainsEach capture first third := by
  refine ⟨right.size.trans left.size, fun index step found => ?_⟩
  obtain ⟨between, there, later⟩ := right.each index step found
  obtain ⟨earlier, here, sooner⟩ := left.each index between there
  exact ⟨earlier, here, sooner.trans later⟩

theorem gainsEach_set {steps : Array FlatStep} {index : Nat} {before after : FlatStep}
    (found : steps[index]? = some before) (gains : Gains capture before after) :
    GainsEach capture steps (steps.setIfInBounds index after) := by
  refine ⟨Array.size_setIfInBounds, fun place step there => ?_⟩
  rw [Array.getElem?_setIfInBounds] at there
  split at there
  · next same =>
      split at there
      · cases there
        exact ⟨before, same ▸ found, gains⟩
      · cases there
  · exact ⟨step, there, .refl step⟩

theorem gainsEach_addCapture (steps : Array FlatStep) (step : Nat) :
    GainsEach capture steps (addCapture capture steps step) := by
  induction step using Nat.strongRecOn generalizing steps with
  | ind step induction =>
      -- whatever the step is made of, captures are added to earlier steps only
      have guarded (steps : Array FlatStep) (earlier : Nat) : GainsEach capture steps
          (if earlier < step then addCapture capture steps earlier else steps) := by
        split
        · next before => exact induction earlier before steps
        · exact .refl steps
      unfold addCapture
      split
      · next found => exact gainsEach_set found gains_node
      · next alternatives _ =>
          exact List.foldlRecOn alternatives _ (.refl steps)
            fun current kept earlier _ => kept.trans (guarded current earlier)
      · exact guarded steps _
      · exact guarded steps _
      · exact .refl steps

theorem GainsEach.references_eq (gains : GainsEach capture first second) :
    second.toList.map references = first.toList.map references := by
  refine List.ext_getElem? fun index => ?_
  rw [List.getElem?_map, List.getElem?_map, Array.getElem?_toList, Array.getElem?_toList]
  cases found : second[index]? with
  | none =>
      rw [Array.getElem?_eq_none_iff, gains.size, ← Array.getElem?_eq_none_iff] at found
      rw [found]
  | some step =>
      obtain ⟨earlier, before, same⟩ := gains.each index step found
      rw [before, Option.map_some, Option.map_some, same.references]

theorem Forest.gain {roots : List Nat} (forest : Forest first roots)
    (gains : GainsEach capture first second) : Forest second roots := by
  constructor
  · intro index step found reference member
    obtain ⟨earlier, before, same⟩ := gains.each index step found
    exact forest.earlier index earlier before reference (same.references ▸ member)
  · rw [List.flatMap_def, gains.references_eq, ← List.flatMap_def, gains.size]
    exact forest.once

end GainsEach

/-! ### Trees -/

theorem tree_congr {step : FlatStep} {first second : Array QueryStep}
    (same : ∀ reference ∈ step.references,
      first.getD reference default = second.getD reference default) :
    step.tree first = step.tree second := by
  cases step with
  | node test children captures =>
      exact congrArg (QueryStep.node test · captures) (List.map_congr_left same)
  | alternation alternatives => exact congrArg QueryStep.alternation (List.map_congr_left same)
  | group items => exact congrArg QueryStep.group (List.map_congr_left same)
  | repetition inner quantifier =>
      exact congrArg (QueryStep.repetition · quantifier) (same inner List.mem_cons_self)

theorem trees_push (steps : Array FlatStep) (step : FlatStep) :
    trees (steps.push step) = (trees steps).push (step.tree (trees steps)) := by
  rw [trees, Array.foldl_push]
  rfl

/-- Steps in a row are none, or a row of steps and a last one. -/
theorem push_induction {motive : Array FlatStep → Prop} (empty : motive #[])
    (push : ∀ steps step, motive steps → motive (steps.push step)) (steps : Array FlatStep) :
    motive steps := by
  have each (list : List FlatStep) : motive list.toArray := by
    induction list using List.reverseRecOn with
    | nil => exact empty
    | append_singleton rest last induction =>
        rw [← List.push_toArray]
        exact push _ last induction
  exact each steps.toList

theorem size_trees (steps : Array FlatStep) : (trees steps).size = steps.size := by
  induction steps using push_induction with
  | empty => rfl
  | push rest last induction => rw [trees_push, Array.size_push, Array.size_push, induction]

/-- The tree of a step is made of the trees of the steps that it is made of. -/
theorem trees_eq {steps : Array FlatStep}
    (earlier : ∀ (index : Nat) step, steps[index]? = some step →
      ∀ reference ∈ step.references, reference < index)
    {index : Nat} {step : FlatStep} (found : steps[index]? = some step) :
    (trees steps)[index]? = some (step.tree (trees steps)) := by
  induction steps using push_induction with
  | empty => cases found
  | push rest last induction =>
      have size : (trees rest).size = rest.size := size_trees rest
      -- a further tree does not change those before it
      have kept {bound : Nat} (small : bound ≤ rest.size) {other : FlatStep}
          (before : ∀ reference ∈ other.references, reference < bound) :
          other.tree (trees (rest.push last)) = other.tree (trees rest) := by
        refine tree_congr fun reference member => ?_
        have inside := Nat.lt_of_lt_of_le (before reference member) small
        rw [trees_push, Array.getD_eq_getD_getElem?, Array.getD_eq_getD_getElem?,
          Array.getElem?_push, if_neg (by omega)]
      have bounds := earlier index step found
      rw [Array.getElem?_push] at found
      split at found
      · next same =>
          cases found
          rw [kept (Nat.le_of_eq same) bounds, trees_push, Array.getElem?_push,
            if_pos (same.trans size.symm)]
      · have inside : index < rest.size := (Array.getElem?_eq_some_iff.1 found).1
        rw [kept (Nat.le_of_lt inside) bounds, trees_push, Array.getElem?_push,
          if_neg (by omega)]
        refine induction (fun place other there => earlier place other ?_) found
        have before : place < rest.size := (Array.getElem?_eq_some_iff.1 there).1
        rw [Array.getElem?_push, if_neg (by omega)]
        exact there

end FlatStep

theorem getElem?_of_prefix {α : Type} {first second : List α} (longer : first <+: second)
    {index : Nat} {value : α} (found : first[index]? = some value) :
    second[index]? = some value := by
  obtain ⟨inside, rfl⟩ := List.getElem?_eq_some_iff.1 found
  exact List.prefix_iff_getElem?.1 longer index inside

/-! ## Tests -/

/-- Whether a test asks for errors, for a symbol of the grammar, which is shown in trees if it is
named, or for no symbol at all. -/
def NodeTest.Fits (grammar : Grammar) : NodeTest → Prop
  | .kind symbol => symbol = .error ∨ ∃ info, grammar.symbolInfo? symbol = some info ∧
    (info.named = true → info.visible = true)
  | .named => True
  | .any => True

namespace Grammar.IsLoaded

variable {grammar : Grammar} {name : String} {symbol : Symbol}

/-- A symbol that is found by a name is a symbol of the grammar with that name. -/
theorem symbolInfo?_of_symbolForName? (loaded : grammar.IsLoaded) {named : Bool}
    (found : grammar.symbolForName? name named = some symbol) :
    symbol = .error ∨ ∃ info, grammar.symbolInfo? symbol = some info ∧ info.name = name ∧
      info.named = named := by
  unfold symbolForName? at found
  split at found
  · exact .inl (Option.some.inj found).symm
  · obtain ⟨⟨info, index⟩, entry, rfl⟩ := Option.map_eq_some_iff.1 found
    have place := List.mem_zipIdx_iff_getElem?.1
      (List.mem_of_mem_drop (List.mem_of_find?_eq_some entry))
    have inside := (List.getElem?_eq_some_iff.1 place).1
    have fewer := loaded.sound.symbolCount
    have meant := List.find?_some entry
    simp only [Bool.and_eq_true, beq_iff_eq] at meant
    refine .inr ⟨info, ?_, meant⟩
    rw [symbolInfo?, loaded.symbols, Symbol.index_ofIndex (by omega), List.getElem?_toArray]
    exact place

theorem fits_of_token (loaded : grammar.IsLoaded)
    (found : grammar.symbolForName? name false = some symbol) :
    (NodeTest.kind symbol).Fits grammar := by
  refine (loaded.symbolInfo?_of_symbolForName? found).imp_right ?_
  rintro ⟨info, known, -, anonymous⟩
  exact ⟨info, known, fun named => by cases anonymous.symm.trans named⟩

theorem fits_of_named (loaded : grammar.IsLoaded)
    (found : grammar.symbolForName? name true = some symbol)
    (visible : grammar.isVisible symbol = true) : (NodeTest.kind symbol).Fits grammar := by
  refine (loaded.symbolInfo?_of_symbolForName? found).imp_right ?_
  rintro ⟨info, known, -, -⟩
  rw [isVisible, known] at visible
  exact ⟨info, known, fun _ => visible⟩

end Grammar.IsLoaded

namespace QueryDraft

/-! ## Drafts -/

/-- Whether what has been read of a query is in order, up to roots that are still to be used. -/
structure Sound (grammar : Grammar) (stop : Nat) (draft : QueryDraft) (roots : List Nat) :
    Prop where
  /-- The steps are a forest. -/
  forest : FlatStep.Forest draft.steps roots
  /-- Every step has captures that are known. -/
  captures : ∀ (index : Nat) step, draft.steps[index]? = some step →
    ∀ number ∈ step.captures, number < draft.captureNames.length
  /-- Every step asks for nodes that there may be. -/
  tests : ∀ (index : Nat) step, draft.steps[index]? = some step →
    ∀ test ∈ step.test?, test.Fits grammar
  /-- The captures have distinct names. -/
  names : draft.captureNames.Nodup
  /-- The predicates that were set aside lie inside the text. -/
  predicates : ∀ written ∈ draft.predicates,
    written.start ≤ stop ∧ ∀ argument ∈ written.arguments, argument.start ≤ stop

/-- Whether a draft goes on from another one with captures of the given names only. -/
structure Continues (before after : QueryDraft) (names : List String) : Prop where
  /-- The captures keep their numbers. -/
  captureNames : before.captureNames <+: after.captureNames
  /-- The pattern has no other captures. -/
  patternCaptures : ∀ number ∈ after.patternCaptures, number ∈ before.patternCaptures ∨
    ∃ name ∈ names, after.captureNames[number]? = some name

section

variable {grammar : Grammar} {stop : Nat} {draft : QueryDraft} {roots : List Nat}

theorem sound_empty : empty.Sound grammar stop [] where
  forest := FlatStep.forest_empty
  captures _ _ found := by cases found
  tests _ _ found := by cases found
  names := List.nodup_nil
  predicates := nofun

theorem Sound.perm {others : List Nat} (sound : draft.Sound grammar stop roots)
    (same : roots.Perm others) : draft.Sound grammar stop others :=
  { sound with forest := sound.forest.perm same }

theorem Sound.fresh (sound : draft.Sound grammar stop roots) :
    draft.fresh.Sound grammar stop roots :=
  { sound with predicates := nofun }

theorem Sound.setAside {written : WrittenPredicate} (sound : draft.Sound grammar stop roots)
    (start : written.start ≤ stop)
    (arguments : ∀ argument ∈ written.arguments, argument.start ≤ stop) :
    (draft.setAside written).Sound grammar stop roots where
  __ := sound
  predicates other member := by
    rcases List.mem_append.1 member with earlier | last
    · exact sound.predicates other earlier
    · cases List.mem_singleton.1 last
      exact ⟨start, arguments⟩

/-- A new step uses roots and is a root itself. -/
theorem Sound.push {step : FlatStep} (sound : draft.Sound grammar stop (step.references ++ roots))
    (bare : step.captures = []) (fits : ∀ test ∈ step.test?, test.Fits grammar) :
    (draft.push step).Sound grammar stop (draft.steps.size :: roots) where
  forest := sound.forest.push
  captures index other found := by
    rw [QueryDraft.push, Array.getElem?_push] at found
    split at found
    · cases found
      rw [bare]
      exact nofun
    · exact sound.captures index other found
  tests index other found := by
    rw [QueryDraft.push, Array.getElem?_push] at found
    split at found
    · cases found
      exact fits
    · exact sound.tests index other found
  names := sound.names
  predicates := sound.predicates

/-- The number of a capture is that of its name, which may be a new one. -/
theorem getElem?_captureNames_capture (draft : QueryDraft) (step : Nat) (name : String) :
    (draft.capture step name).captureNames[
      (draft.captureNames.findIdx? (· == name)).getD draft.captureNames.length]? = some name := by
  cases known : draft.captureNames.findIdx? (· == name) with
  | none => simp [capture, known]
  | some number =>
      obtain ⟨inside, same, -⟩ := List.findIdx?_eq_some_iff_getElem.1 known
      rw [capture, known]
      exact List.getElem?_eq_some_iff.2 ⟨inside, eq_of_beq same⟩

theorem captureNames_prefix_capture (draft : QueryDraft) (step : Nat) (name : String) :
    draft.captureNames <+: (draft.capture step name).captureNames := by
  unfold capture
  dsimp only
  split
  · exact List.prefix_rfl
  · exact List.prefix_append _ _

theorem nodup_captureNames_capture (distinct : draft.captureNames.Nodup) (step : Nat)
    (name : String) : (draft.capture step name).captureNames.Nodup := by
  cases known : draft.captureNames.findIdx? (· == name) with
  | none =>
      rw [List.findIdx?_eq_none_iff] at known
      simp only [capture, List.findIdx?_eq_none_iff.2 known]
      refine List.nodup_append.2 ⟨distinct, List.pairwise_singleton _ name, ?_⟩
      rintro other member _ last rfl
      have differs : ¬ other = name := by simpa using known other member
      exact differs (List.mem_singleton.1 last)
  | some number =>
      simp only [capture, known]
      exact distinct

theorem Sound.capture (sound : draft.Sound grammar stop roots) (step : Nat) (name : String) :
    (draft.capture step name).Sound grammar stop roots where
  forest := sound.forest.gain (FlatStep.gainsEach_addCapture draft.steps step)
  captures index after found number member := by
    obtain ⟨before, there, gains⟩ :=
      (FlatStep.gainsEach_addCapture draft.steps step).each index after found
    rcases gains.captures number member with old | rfl
    · exact Nat.lt_of_lt_of_le (sound.captures index before there number old)
        (captureNames_prefix_capture draft step name).length_le
    · exact (List.getElem?_eq_some_iff.1 (getElem?_captureNames_capture draft step name)).1
  tests index after found test member := by
    obtain ⟨before, there, gains⟩ :=
      (FlatStep.gainsEach_addCapture draft.steps step).each index after found
    exact sound.tests index before there test (gains.test ▸ member)
  names := nodup_captureNames_capture sound.names step name
  predicates := sound.predicates

end

section

variable {first second third : QueryDraft} {names others : List String}

theorem Continues.refl (draft : QueryDraft) : draft.Continues draft [] :=
  ⟨List.prefix_rfl, fun _ => .inl⟩

theorem Continues.trans (left : first.Continues second names)
    (right : second.Continues third others) : first.Continues third (names ++ others) := by
  refine ⟨left.captureNames.trans right.captureNames, fun number member => ?_⟩
  rcases right.patternCaptures number member with before | ⟨name, among, known⟩
  · refine (left.patternCaptures number before).imp_right ?_
    rintro ⟨name, among, known⟩
    exact ⟨name, List.mem_append_left others among, getElem?_of_prefix right.captureNames known⟩
  · exact .inr ⟨name, List.mem_append_right names among, known⟩

theorem continues_capture (draft : QueryDraft) (step : Nat) (name : String) :
    draft.Continues (draft.capture step name) [name] := by
  refine ⟨captureNames_prefix_capture draft step name, fun number member => ?_⟩
  rcases List.mem_cons.1 member with rfl | before
  · exact .inr ⟨name, List.mem_cons_self, getElem?_captureNames_capture draft step name⟩
  · exact .inl before

theorem continues_push (draft : QueryDraft) (step : FlatStep) :
    draft.Continues (draft.push step) [] :=
  ⟨List.prefix_rfl, fun _ => .inl⟩

theorem continues_setAside (draft : QueryDraft) (written : WrittenPredicate) :
    draft.Continues (draft.setAside written) [] :=
  ⟨List.prefix_rfl, fun _ => .inl⟩

end

end QueryDraft

end IncrementalGlr
