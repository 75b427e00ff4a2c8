import IncrementalGlr.PlainGrammar.Expansion
import IncrementalGlr.Proofs.Outcome

/-!
# The terminals that are collected

However the terminals of a description are collected, the extras are among them, and lexical rules
recognise exactly those that have a pattern.
-/

namespace IncrementalGlr

mutual

/-- The tokens that are written inside a rule, in their order. -/
def Rule.inlineTokens : Rule → List Rule
  | .blank | .symbol _ => []
  | .string value => [.string value]
  | .pattern value flags => [.pattern value flags]
  | .token immediate content => [.token immediate content]
  | .aliased value named content =>
    if content.isToken then [.aliased value named content] else content.inlineTokens
  | .seq members | .choice members => inlineTokensOfAll members
  | .repetition _ content | .precedence _ _ content | .field _ content => content.inlineTokens

/-- The tokens that are written inside the rules of a list. -/
def Rule.inlineTokensOfAll : List Rule → List Rule
  | [] => []
  | rule :: rest => rule.inlineTokens ++ inlineTokensOfAll rest

end

/-- Whether lexical rules recognise a terminal exactly if it has a pattern. -/
def Terminal.IsOfKind (terminal : Terminal) : Prop :=
  terminal.info.kind = if terminal.pattern.isSome then .terminal else .external

namespace Terminals

/-- Whether the extras are among the terminals, and these are of the kinds that their patterns call
for. -/
structure Sound (terminals : Terminals) : Prop where
  /-- The extras are terminals. -/
  extras : ∀ index ∈ terminals.extras, index < terminals.list.length
  /-- Lexical rules recognise what has a pattern. -/
  kinds : ∀ terminal ∈ terminals.list, terminal.IsOfKind

theorem sound_empty : empty.Sound :=
  ⟨fun _ never => absurd never List.not_mem_nil, fun _ never => absurd never List.not_mem_nil⟩

theorem Sound.insert {terminals : Terminals} (sound : terminals.Sound) {terminal : Terminal}
    (kind : terminal.IsOfKind) :
    (terminals.insert terminal).2.Sound ∧
      (terminals.insert terminal).1 < (terminals.insert terminal).2.list.length := by
  unfold Terminals.insert
  split
  · next index found => exact ⟨sound, (List.findIdx?_eq_some_iff_getElem.1 found).1⟩
  · refine ⟨⟨fun index member => ?_, fun other member => ?_⟩, by simp⟩
    · have before := sound.extras index member
      simp only [List.length_append, List.length_singleton]
      omega
    · rcases List.mem_append.1 member with before | new
      · exact sound.kinds other before
      · exact List.mem_singleton.1 new ▸ kind

theorem Sound.addExternal {terminals next : Terminals} (sound : terminals.Sound) {rule : Rule}
    (added : terminals.addExternal rule = .ok next) : next.Sound := by
  unfold Terminals.addExternal at added
  split at added
  · cases added
    refine (sound.insert ?_).1
    rfl
  · cases added
    refine (sound.insert ?_).1
    rfl
  · cases added

theorem Sound.addNamed {terminals next : Terminals} (sound : terminals.Sound) {name : String}
    {rule : Rule} (added : terminals.addNamed name rule = .ok next) : next.Sound := by
  obtain ⟨pattern, -, ⟨⟩⟩ := Except.bind_eq_ok.1 added
  refine (sound.insert ?_).1
  rfl

/-- Tokens that are written inside rules are recognised by lexical rules. -/
theorem kind_of_inlineKey {owner : String} {rule : Rule} {key : TerminalKey} {info : SymbolInfo}
    (found : inlineKey owner rule = .ok (key, info)) : info.kind = .terminal := by
  unfold inlineKey at found
  split at found
  · obtain ⟨pattern, -, ⟨⟩⟩ := Except.bind_eq_ok.1 found
    rfl
  · obtain ⟨pattern, -, rest⟩ := Except.bind_eq_ok.1 found
    cases pattern <;> cases rest <;> rfl

theorem Sound.addInline {terminals : Terminals} (sound : terminals.Sound) {owner : String}
    {rule : Rule} {result : Nat × Terminals} (added : terminals.addInline owner rule = .ok result) :
    result.2.Sound ∧ result.1 < result.2.list.length := by
  obtain ⟨⟨key, info⟩, keyFound, rest⟩ := Except.bind_eq_ok.1 added
  obtain ⟨pattern, -, ⟨⟩⟩ := Except.bind_eq_ok.1 rest
  exact sound.insert (kind_of_inlineKey keyFound)

theorem Sound.markExtra {terminals : Terminals} (sound : terminals.Sound) {index : Nat}
    (bound : index < terminals.list.length) : (terminals.markExtra index).Sound := by
  constructor
  case extras =>
    intro extra member
    simp only [Terminals.markExtra, List.length_modify] at member ⊢
    split at member
    · exact sound.extras extra member
    · rcases List.mem_append.1 member with before | new
      · exact sound.extras extra before
      · obtain rfl := List.mem_singleton.1 new
        exact bound
  case kinds =>
    intro terminal member
    obtain ⟨place, found⟩ := List.mem_iff_getElem?.1 member
    simp only [Terminals.markExtra, List.getElem?_modify] at found
    obtain ⟨old, oldFound, rfl⟩ := Option.map_eq_some_iff.1 found
    have kind := sound.kinds old (List.mem_of_getElem? oldFound)
    split
    · exact kind
    · exact kind

theorem Sound.addExtra {terminals next : Terminals} (sound : terminals.Sound) {rule : Rule}
    (added : terminals.addExtra rule = .ok next) : next.Sound := by
  unfold Terminals.addExtra at added
  split at added
  · split at added
    · next index found =>
        cases added
        exact sound.markExtra (List.findIdx?_eq_some_iff_getElem.1 found).1
    · cases added
  · split at added
    · obtain ⟨result, inline, ⟨⟩⟩ := Except.bind_eq_ok.1 added
      obtain ⟨resultSound, bound⟩ := sound.addInline inline
      exact resultSound.markExtra bound
    · cases added

mutual

/-- The tokens inside a rule are added one after the other. -/
theorem collect_eq (owner : String) (terminals : Terminals) (rule : Rule) :
    collect owner terminals rule = rule.inlineTokens.foldlM
      (fun terminals token => return (← terminals.addInline owner token).2) terminals := by
  cases rule with
  | blank => rfl
  | symbol name => rfl
  | string value => exact (bind_pure _).symm
  | pattern value flags => exact (bind_pure _).symm
  | token immediate content => exact (bind_pure _).symm
  | aliased value named content =>
      unfold collect Rule.inlineTokens
      split
      · exact (bind_pure _).symm
      · exact collect_eq owner terminals content
  | seq members => exact collectAll_eq owner terminals members
  | choice members => exact collectAll_eq owner terminals members
  | repetition atLeastOnce content => exact collect_eq owner terminals content
  | precedence kind value content => exact collect_eq owner terminals content
  | field name content => exact collect_eq owner terminals content

theorem collectAll_eq (owner : String) (terminals : Terminals) (rules : List Rule) :
    collectAll owner terminals rules = (Rule.inlineTokensOfAll rules).foldlM
      (fun terminals token => return (← terminals.addInline owner token).2) terminals := by
  cases rules with
  | nil => rfl
  | cons rule rest =>
      rw [Rule.inlineTokensOfAll, List.foldlM_append, ← collect_eq owner terminals rule]
      exact bind_congr fun next => collectAll_eq owner next rest

end

theorem Sound.collect {terminals next : Terminals} (sound : terminals.Sound) {owner : String}
    {rule : Rule} (collected : Terminals.collect owner terminals rule = .ok next) :
    next.Sound := by
  rw [collect_eq] at collected
  refine Except.foldlM_preserves (fun state token after stateSound added => ?_) sound collected
  obtain ⟨result, inline, ⟨⟩⟩ := Except.bind_eq_ok.1 added
  exact (stateSound.addInline inline).1

theorem sound_ofRules {description : Description} {terminals : Terminals}
    (made : ofRules description = .ok terminals) : terminals.Sound := by
  obtain ⟨externals, first, rest⟩ := Except.bind_eq_ok.1 made
  refine Except.foldlM_preserves (fun state entry next sound added => ?_)
    (Except.foldlM_preserves (fun state rule next sound added => sound.addExternal added)
      sound_empty first) rest
  obtain ⟨name, rule⟩ := entry
  dsimp only at added
  split at added
  · exact sound.addNamed added
  · cases added
    exact sound

theorem sound_collectTerminals {description : Description} {named terminals : Terminals}
    (sound : named.Sound) (made : description.collectTerminals named = .ok terminals) :
    terminals.Sound := by
  obtain ⟨inline, first, rest⟩ := Except.bind_eq_ok.1 made
  exact Except.foldlM_preserves (fun state rule next sound added => sound.addExtra added)
    (Except.foldlM_preserves (fun state entry next sound added => sound.collect added)
      sound first) rest

end Terminals

end IncrementalGlr
