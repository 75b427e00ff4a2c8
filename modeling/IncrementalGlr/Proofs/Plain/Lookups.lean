import IncrementalGlr.Proofs.Plain.Lowering
import IncrementalGlr.Proofs.Plain.Refusals
import Mathlib

/-!
# Tokens are found again

The tokens inside rules are collected by one recursion over the rules and looked up by another one.
Both come to the same tokens: the expansion of a rule looks up no others than those that were
collected from it.  A terminal stays under its key once it is collected, and its key says how its
text looks.  So every lookup finds a terminal whose text looks like that of the token.
-/

namespace IncrementalGlr

namespace TokenPattern

/-- The pattern as a regular expression. -/
def regexText : TokenPattern → String
  | literal source => Rule.escapeText source
  | regex source => source

end TokenPattern

/-! ## Terminals under their keys -/

/-- Whether the key of a terminal says how its text looks.  An external token has the key of the text
by which it is given, and names say nothing. -/
def Terminal.Tells (terminal : Terminal) : Prop :=
  match terminal.key with
  | .named _ => True
  | .literal value => terminal.pattern = some (.literal value) ∨
      terminal.pattern = none ∧ terminal.info.kind = .external ∧ terminal.info.name = value
  | .pattern source => terminal.pattern = some (.regex source)
  | .aliased _ _ source => terminal.pattern.map TokenPattern.regexText = some source

namespace Terminals

/-- Whether terminals are collected on top of others: these stay under their keys, and all keys say
how texts look if they did before. -/
structure Extends (before after : Terminals) : Prop where
  /-- Terminals stay where they are. -/
  keys : before.list.map Terminal.key <+: after.list.map Terminal.key
  /-- The keys of new terminals say how their texts look. -/
  tells : (∀ terminal ∈ before.list, terminal.Tells) → ∀ terminal ∈ after.list, terminal.Tells

theorem Extends.refl (terminals : Terminals) : terminals.Extends terminals :=
  ⟨List.prefix_refl _, id⟩

theorem Extends.trans {first second third : Terminals} (left : first.Extends second)
    (right : second.Extends third) : first.Extends third :=
  ⟨left.keys.trans right.keys, fun tells => right.tells (left.tells tells)⟩

theorem find?_eq (terminals : Terminals) (key : TerminalKey) :
    terminals.find? key = (terminals.list.map Terminal.key).findIdx? (· = key) := by
  rw [List.findIdx?_map]
  rfl

/-- The terminal of a key is found where it was before. -/
theorem Extends.find?_eq_some {before after : Terminals} (extends_ : before.Extends after)
    {key : TerminalKey} {index : Nat} (found : before.find? key = some index) :
    after.find? key = some index := by
  obtain ⟨added, same⟩ := extends_.keys
  rw [find?_eq] at found ⊢
  rw [← same, List.findIdx?_append, found, Option.some_or]

theorem extends_insert (terminals : Terminals) {terminal : Terminal} (tells : terminal.Tells) :
    terminals.Extends (terminals.insert terminal).2 := by
  unfold insert
  split
  · exact .refl terminals
  · refine ⟨⟨[terminal.key], ?_⟩, fun others => ?_⟩
    · rw [List.map_append]
      rfl
    · exact List.forall_mem_append.2 ⟨others, List.forall_mem_singleton.2 tells⟩

/-- A terminal that is inserted is found under its key. -/
theorem find?_insert (terminals : Terminals) (terminal : Terminal) :
    (terminals.insert terminal).2.find? terminal.key = some (terminals.insert terminal).1 := by
  unfold insert
  split
  · next index found => exact found
  · next missing =>
      rw [find?_eq] at missing ⊢
      rw [List.map_append, List.findIdx?_append, missing]
      simp

theorem extends_markExtra (before : Terminals) (index : Nat) :
    before.Extends (before.markExtra index) := by
  constructor
  case keys =>
    have same : before.list.map Terminal.key =
        (before.markExtra index).list.map Terminal.key := by
      refine List.ext_getElem? fun place => ?_
      rw [markExtra, List.getElem?_map, List.getElem?_map, List.getElem?_modify,
        Option.map_eq_map, Option.map_map]
      refine Option.map_congr fun terminal _ => ?_
      rw [Function.comp_apply]
      split <;> rfl
    exact same ▸ List.prefix_refl _
  case tells =>
    intro tells terminal member
    obtain ⟨place, found⟩ := List.mem_iff_getElem?.1 member
    simp only [markExtra, List.getElem?_modify] at found
    obtain ⟨old, oldFound, rfl⟩ := Option.map_eq_some_iff.1 found
    have told := tells old (List.mem_of_getElem? oldFound)
    split
    · exact told
    · exact told

theorem extends_addExternal {before after : Terminals} {rule : Rule}
    (added : before.addExternal rule = .ok after) : before.Extends after := by
  unfold addExternal at added
  split at added
  · cases added
    exact extends_insert before trivial
  · cases added
    exact extends_insert before (.inr ⟨rfl, rfl, rfl⟩)
  · cases added

theorem extends_addNamed {before after : Terminals} {name : String} {rule : Rule}
    (added : before.addNamed name rule = .ok after) : before.Extends after := by
  obtain ⟨pattern, -, ⟨⟩⟩ := Except.bind_eq_ok.1 added
  exact extends_insert before trivial

/-- The key of a token that is written inside a rule says how its text looks. -/
theorem tells_of_inlineKey {owner : String} {token : Rule} {key : TerminalKey} {info : SymbolInfo}
    {pattern : TokenPattern} (keyed : inlineKey owner token = .ok (key, info))
    (looks : token.tokenPattern owner = .ok pattern) (precedence : Int16) :
    Terminal.Tells ⟨key, info, some pattern, precedence⟩ := by
  unfold inlineKey at keyed
  split at keyed
  · next value named content =>
      -- A name for trees does not change the text, so the content looks like the whole token.
      have same : (Rule.aliased value named content).tokenPattern owner =
          content.tokenPattern owner := rfl
      obtain ⟨inner, contentLooks, rest⟩ := Except.bind_eq_ok.1 keyed
      rw [← same, looks] at contentLooks
      cases contentLooks
      cases rest
      cases pattern <;> rfl
  · obtain ⟨other, looksSo, rest⟩ := Except.bind_eq_ok.1 keyed
    rw [looks] at looksSo
    cases looksSo
    cases pattern with
    | literal value =>
        cases rest
        exact .inl rfl
    | regex source =>
        cases rest
        rfl

theorem inlineKey_ne_named (owner : String) (token : Rule) (name : String) (info : SymbolInfo) :
    inlineKey owner token ≠ .ok (.named name, info) := by
  intro keyed
  unfold inlineKey at keyed
  split at keyed
  · obtain ⟨pattern, -, ⟨⟩⟩ := Except.bind_eq_ok.1 keyed
  · obtain ⟨pattern, -, rest⟩ := Except.bind_eq_ok.1 keyed
    cases pattern <;> cases rest

/-- Whether a token that is written in a rule of the given name is among the terminals. -/
def Has (terminals : Terminals) (owner : String) (token : Rule) : Prop :=
  ∃ key info pattern index, inlineKey owner token = .ok (key, info) ∧
    token.tokenPattern owner = .ok pattern ∧ terminals.find? key = some index

theorem Has.mono {before after : Terminals} {owner : String} {token : Rule}
    (has : before.Has owner token) (extends_ : before.Extends after) : after.Has owner token := by
  obtain ⟨key, info, pattern, index, keyed, looks, found⟩ := has
  exact ⟨key, info, pattern, index, keyed, looks, extends_.find?_eq_some found⟩

theorem extends_addInline {before : Terminals} {owner : String} {token : Rule}
    {result : Nat × Terminals} (added : before.addInline owner token = .ok result) :
    before.Extends result.2 ∧ result.2.Has owner token := by
  obtain ⟨⟨key, info⟩, keyed, rest⟩ := Except.bind_eq_ok.1 added
  obtain ⟨pattern, looks, ⟨⟩⟩ := Except.bind_eq_ok.1 rest
  exact ⟨extends_insert before (tells_of_inlineKey keyed looks _),
    key, info, pattern, _, keyed, looks, find?_insert before _⟩

theorem extends_addExtra {before after : Terminals} {rule : Rule}
    (added : before.addExtra rule = .ok after) : before.Extends after := by
  unfold addExtra at added
  split at added
  · split at added
    · cases added
      exact extends_markExtra before _
    · cases added
  · split at added
    · obtain ⟨result, inline, ⟨⟩⟩ := Except.bind_eq_ok.1 added
      exact (extends_addInline inline).1.trans (extends_markExtra result.2 _)
    · cases added

/-- What the steps of a collection establish one by one holds in the end, if it holds of more
terminals when it holds of fewer. -/
theorem extends_foldlM {α : Type} {step : Terminals → α → Except CompileError Terminals}
    (holds : α → Terminals → Prop)
    (mono : ∀ value before after, before.Extends after → holds value before → holds value after)
    (each : ∀ before value after, step before value = .ok after →
      before.Extends after ∧ holds value after)
    {values : List α} {before after : Terminals} (collected : values.foldlM step before = .ok after) :
    before.Extends after ∧ ∀ value ∈ values, holds value after := by
  induction values generalizing before with
  | nil =>
      cases collected
      exact ⟨.refl _, nofun⟩
  | cons value rest induction =>
      rw [List.foldlM_cons] at collected
      obtain ⟨next, here, later⟩ := Except.bind_eq_ok.1 collected
      obtain ⟨first, held⟩ := each before value next here
      obtain ⟨further, others⟩ := induction later
      exact ⟨first.trans further, List.forall_mem_cons.2 ⟨mono value next after further held, others⟩⟩

/-- After a rule is collected, the tokens inside it are among the terminals. -/
theorem extends_collect {before after : Terminals} {owner : String} {rule : Rule}
    (collected : collect owner before rule = .ok after) :
    before.Extends after ∧ ∀ token ∈ rule.inlineTokens, after.Has owner token := by
  rw [collect_eq] at collected
  refine extends_foldlM (fun token terminals => terminals.Has owner token)
    (fun token before after extends_ has => has.mono extends_)
    (fun before token after added => ?_) collected
  obtain ⟨result, inline, ⟨⟩⟩ := Except.bind_eq_ok.1 added
  exact extends_addInline inline

theorem extends_ofRules {description : Description} {named : Terminals}
    (made : ofRules description = .ok named) : empty.Extends named := by
  obtain ⟨externals, first, rest⟩ := Except.bind_eq_ok.1 made
  refine (extends_foldlM (fun _ _ => True) (fun _ _ _ _ => id)
    (fun before rule after added => ⟨extends_addExternal added, trivial⟩) first).1.trans
    (extends_foldlM (fun _ _ => True) (fun _ _ _ _ => id)
      (fun before entry after added => ⟨?_, trivial⟩) rest).1
  dsimp only at added
  split at added
  · exact extends_addNamed added
  · cases added
    exact .refl _

/-- All tokens inside the rules of nonterminals are among the terminals of a description. -/
theorem extends_collectTerminals {description : Description} {named terminals : Terminals}
    (made : description.collectTerminals named = .ok terminals) :
    named.Extends terminals ∧ ∀ entry ∈ description.nonterminals named,
      ∀ token ∈ entry.2.inlineTokens, terminals.Has entry.1 token := by
  obtain ⟨inline, first, rest⟩ := Except.bind_eq_ok.1 made
  obtain ⟨rules, has⟩ := extends_foldlM
    (fun (entry : String × Rule) terminals =>
      ∀ token ∈ entry.2.inlineTokens, terminals.Has entry.1 token)
    (fun entry before after extends_ has token member => (has token member).mono extends_)
    (fun before entry after collected => extends_collect collected) first
  obtain ⟨extras, -⟩ := extends_foldlM (fun _ _ => True) (fun _ _ _ _ => id)
    (fun before rule after added => ⟨extends_addExtra added, trivial⟩) rest
  exact ⟨rules.trans extras, fun entry member token inside =>
    (has entry member token inside).mono extras⟩

end Terminals

/-- Terminals of one key look alike, if it is the key of a token that is written inside a rule. -/
theorem Terminal.Tells.alike {terminal : Terminal} (tells : terminal.Tells) {owner : String} {token : Rule}
    {info : SymbolInfo} {pattern : TokenPattern}
    (keyed : Terminals.inlineKey owner token = .ok (terminal.key, info))
    (looks : token.tokenPattern owner = .ok pattern) :
    (∃ other, terminal.pattern = some other ∧ other.regexText = pattern.regexText) ∨
      terminal.info.kind = .external ∧ pattern = .literal terminal.info.name := by
  have told := Terminals.tells_of_inlineKey keyed looks 0
  unfold Tells at tells told
  dsimp only at told
  split at tells
  · next name same => exact absurd (same ▸ keyed) (Terminals.inlineKey_ne_named owner token name info)
  · next value same =>
      rw [same] at told
      obtain told | ⟨never, -⟩ := told
      · cases told
        obtain same | ⟨-, external, rfl⟩ := tells
        · exact .inl ⟨_, same, rfl⟩
        · exact .inr ⟨external, rfl⟩
      · cases never
  · next source same =>
      rw [same] at told
      cases told
      exact .inl ⟨_, tells, rfl⟩
  · next value named source same =>
      rw [same] at told
      obtain ⟨other, hasOther, alike⟩ := Option.map_eq_some_iff.1 tells
      exact .inl ⟨other, hasOther, alike.trans (Option.some.inj told).symm⟩

/-! ## What an expansion looks up -/

namespace Expansion

/-- Whether two steps do the same and only fail with plain errors. -/
def Agrees {α : Type} (left right : Step α) : Prop :=
  ∀ before, left before = right before ∧ FailsPlainly (left before).1

section Combinators

variable {α β : Type}

theorem agrees_pure (value : α) : Agrees (pure value) (pure value) :=
  fun _ => ⟨rfl, Except.failsWith_ok value⟩

theorem agrees_lift {outcome : Except CompileError α} (fails : FailsPlainly outcome) :
    Agrees (liftM outcome) (liftM outcome) :=
  fun _ => ⟨rfl, fails⟩

theorem agrees_modify (change : Expansion → Expansion) :
    Agrees (modify change : Step Unit) (modify change) :=
  fun _ => ⟨rfl, Except.failsWith_ok ()⟩

theorem Agrees.bind {first other : Step α} {next later : α → Step β} (here : Agrees first other)
    (there : ∀ value, Agrees (next value) (later value)) :
    Agrees (first >>= next) (other >>= later) := by
  intro before
  obtain ⟨same, fails⟩ := here before
  change ExceptT.bindCont next (first before).1 (first before).2 =
      ExceptT.bindCont later (other before).1 (other before).2 ∧
    FailsPlainly (ExceptT.bindCont next (first before).1 (first before).2).1
  rw [← same]
  rcases result : first before with ⟨error | value, between⟩
  · exact ⟨rfl, Except.failsWith_error (fails error (congrArg Prod.fst result))⟩
  · exact there value between

end Combinators

/-- Whether two scopes give the same answers for names and for some tokens in the rule of a name,
and have terminals for these tokens. -/
structure Scope.AgreesOn (left right : Scope) (owner : String) (tokens : List Rule) : Prop where
  /-- Names stand for the same symbols. -/
  names : ∀ name, left.symbol? name = right.symbol? name
  /-- The tokens have the same terminals. -/
  same : ∀ token ∈ tokens, left.terminal owner token = right.terminal owner token
  /-- No token is without a terminal. -/
  found : ∀ token ∈ tokens, FailsPlainly (left.terminal owner token)

section Agreement

variable {left right : Scope} {owner : String}

theorem Scope.AgreesOn.mono {tokens fewer : List Rule} (agrees : left.AgreesOn right owner tokens)
    (subset : fewer ⊆ tokens) : left.AgreesOn right owner fewer :=
  ⟨agrees.names, fun token member => agrees.same token (subset member),
    fun token member => agrees.found token (subset member)⟩

theorem Scope.AgreesOn.single {token : Rule} (agrees : left.AgreesOn right owner [token]) :
    Agrees (do return [Alternative.single (← left.terminal owner token)])
      (do return [Alternative.single (← right.terminal owner token)]) := by
  rw [← agrees.same token List.mem_cons_self]
  exact (agrees_lift (agrees.found token List.mem_cons_self)).bind fun _ => agrees_pure _

mutual

/-- The expansion of a rule looks up no tokens but those that are written inside it. -/
theorem agrees_expand (rule : Rule) (agrees : left.AgreesOn right owner rule.inlineTokens) :
    Agrees (expand left owner rule) (expand right owner rule) := by
  cases rule with
  | blank => exact agrees_pure _
  | string value => exact agrees.single
  | pattern value flags => exact agrees.single
  | token immediate content => exact agrees.single
  | aliased value named content =>
      unfold expand
      unfold Rule.inlineTokens at agrees
      split
      · next token =>
          rw [if_pos token] at agrees
          exact agrees.single
      · next compound =>
          rw [if_neg compound] at agrees
          exact agrees_expand content agrees
  | field name content => exact agrees_expand content agrees
  | symbol name =>
      unfold expand
      rw [agrees.names]
      split
      · exact agrees_pure _
      · exact agrees_lift (Except.failsWith_error ⟨nofun, nofun⟩)
  | seq members => exact agrees_expandSeq _ members agrees
  | choice members =>
      cases members with
      | nil => exact agrees_pure _
      | cons first rest =>
          exact (agrees_expand first (agrees.mono (List.subset_append_left _ _))).bind fun _ =>
            (agrees_expandChoice rest (agrees.mono (List.subset_append_right _ _))).bind fun _ =>
              agrees_pure _
  | repetition atLeastOnce content =>
      have added : Agrees (addHelper owner) (addHelper owner) :=
        fun _ => ⟨rfl, Except.failsWith_ok _⟩
      exact added.bind fun helper => (agrees_expand content agrees).bind fun alternatives =>
        (agrees_modify _).bind fun _ => agrees_pure _
  | precedence kind value content =>
      cases kind with
      | static associativity =>
          exact (agrees_expand content agrees).bind fun _ => agrees_pure _
      | dynamic =>
          exact (agrees_expand content agrees).bind fun _ =>
            (agrees_modify _).bind fun _ => agrees_pure _

theorem agrees_expandSeq (before : List Alternative) (members : List Rule)
    (agrees : left.AgreesOn right owner (Rule.inlineTokensOfAll members)) :
    Agrees (expandSeq left owner before members) (expandSeq right owner before members) := by
  cases members with
  | nil => exact agrees_pure _
  | cons member rest =>
      exact (agrees_expand member (agrees.mono (List.subset_append_left _ _))).bind fun _ =>
        (agrees_modify _).bind fun _ =>
          agrees_expandSeq _ rest (agrees.mono (List.subset_append_right _ _))

theorem agrees_expandChoice (members : List Rule)
    (agrees : left.AgreesOn right owner (Rule.inlineTokensOfAll members)) :
    Agrees (expandChoice left owner members) (expandChoice right owner members) := by
  cases members with
  | nil => exact agrees_pure _
  | cons member rest =>
      exact (agrees_expand member (agrees.mono (List.subset_append_left _ _))).bind fun _ =>
        (agrees_expandChoice rest (agrees.mono (List.subset_append_right _ _))).bind fun _ =>
          agrees_pure _

end

end Agreement

/-- Rules whose tokens are found are expanded alike, and with plain errors only. -/
theorem agrees_expandRules {left right : Scope} {entries : List (Symbol × String × Rule)}
    (agrees : ∀ entry ∈ entries, left.AgreesOn right entry.2.1 entry.2.2.inlineTokens) :
    Agrees (entries.forM (expandRule left)) (entries.forM (expandRule right)) := by
  induction entries with
  | nil => exact agrees_pure _
  | cons entry rest induction =>
      obtain ⟨here, later⟩ := List.forall_mem_cons.1 agrees
      exact ((agrees_expand entry.2.2 here).bind fun _ => agrees_modify _).bind
        fun _ => induction later

/-! ## What lookups come to -/

/-- The terminal at a position, found for a token in the rule of the given name whose text looks as
the pattern says. -/
structure Scope.Finds (scope : Scope) (owner : String) (token : Rule) (pattern : TokenPattern)
    (index : Nat) (terminal : Terminal) : Prop where
  /-- The terminal was collected. -/
  listed : scope.terminals.list[index]? = some terminal
  /-- It has the key of the token. -/
  key : ∃ info, Terminals.inlineKey owner token = .ok (terminal.key, info)
  /-- No other terminal comes first under this key. -/
  first : scope.terminals.find? terminal.key = some index
  /-- The text of the token. -/
  looks : token.tokenPattern owner = .ok pattern
  /-- The lookup gives the symbol of the terminal. -/
  found : scope.terminal owner token = .ok (.ofIndex (index + 1))
  /-- The symbol is a terminal. -/
  inside : (Symbol.ofIndex (index + 1)).index < scope.terminalCount
  /-- A lexical rule recognises the same text for the symbol, or the terminal is an external token
  given by the text. -/
  recognised :
    (∃ rule ∈ scope.terminals.lexRules, rule.symbol = .ofIndex (index + 1) ∧
      rule.pattern.regexText = pattern.regexText) ∨
    terminal.info.kind = .external ∧ pattern = .literal terminal.info.name

theorem Scope.finds_of_has {scope : Scope} {owner : String} {token : Rule}
    (tells : ∀ terminal ∈ scope.terminals.list, terminal.Tells)
    (has : scope.terminals.Has owner token) :
    ∃ pattern index terminal, scope.Finds owner token pattern index terminal := by
  obtain ⟨key, info, pattern, index, keyed, looks, found⟩ := has
  obtain ⟨bound, same, -⟩ := List.findIdx?_eq_some_iff_getElem.1 found
  obtain rfl := of_decide_eq_true same
  have listed := List.getElem?_eq_getElem bound
  generalize scope.terminals.list[index] = terminal at keyed found listed
  refine ⟨pattern, index, terminal, listed, ⟨info, keyed⟩, found, looks, ?_, ?_, ?_⟩
  case refine_1 =>
    refine Except.bind_eq_ok.2 ⟨_, keyed, ?_⟩
    dsimp only
    rw [found]
    rfl
  case refine_2 => exact (Nat.mod_le _ _).trans_lt (Nat.succ_lt_succ bound)
  case refine_3 =>
    obtain ⟨other, hasOther, alike⟩ | ⟨external, same⟩ :=
      (tells terminal (List.mem_of_getElem? listed)).alike keyed looks
    · refine .inl ⟨⟨.ofIndex (index + 1), other, terminal.precedence⟩, ?_, rfl, alike⟩
      refine List.mem_filterMap.2 ⟨(terminal, index), List.mem_zipIdx_iff_getElem?.2 listed, ?_⟩
      dsimp only
      rw [hasOther]
      rfl
    · exact .inr ⟨external, same⟩

end Expansion

namespace Description

variable {description : Description} {named terminals : Terminals}

/-- Every token inside the rule of a nonterminal finds its terminal. -/
theorem finds_inlineTokens (namedMade : Terminals.ofRules description = .ok named)
    (terminalsMade : description.collectTerminals named = .ok terminals) (names : List String)
    {entry : String × Rule} (member : entry ∈ description.nonterminals named) {token : Rule}
    (inside : token ∈ entry.2.inlineTokens) :
    ∃ pattern index terminal,
      Expansion.Scope.Finds ⟨terminals, names⟩ entry.1 token pattern index terminal := by
  obtain ⟨further, has⟩ := Terminals.extends_collectTerminals terminalsMade
  refine Expansion.Scope.finds_of_has ?_ (has entry member token inside)
  exact ((Terminals.extends_ofRules namedMade).trans further).tells fun _ never =>
    absurd never List.not_mem_nil

/-- The rules of a description are expanded with plain errors only, and without an expansion a
description is refused with a plain error. -/
theorem failsPlainly_expansion (description : Description) :
    FailsPlainly description.expansion ∧ ∀ scope outcome expansion,
      description.expansion = .ok (scope, outcome, expansion) → FailsPlainly outcome := by
  refine ⟨?_, fun scope outcome expansion expanded => ?_⟩
  · unfold expansion
    split
    · exact Except.failsWith_error ⟨nofun, nofun⟩
    · exact (Terminals.failsPlainly_ofRules description).bind fun named _ =>
        (failsPlainly_collectTerminals description named).bind fun _ _ => Except.failsWith_ok _
  obtain ⟨named, terminals, -, namedMade, terminalsMade, same, ran⟩ := expansion_eq_ok expanded
  have agrees : ∀ entry ∈ scope.entries (description.nonterminals named),
      scope.AgreesOn scope entry.2.1 entry.2.2.inlineTokens := by
    refine fun entry member => ⟨fun _ => rfl, fun _ _ => rfl, fun token inside => ?_⟩
    obtain ⟨index, found, -⟩ := Expansion.Scope.mem_entries.1 member
    obtain ⟨pattern, place, terminal, finds⟩ :=
      finds_inlineTokens namedMade terminalsMade _ (List.mem_of_getElem? found) inside
    rw [same, finds.found]
    exact Except.failsWith_ok _
  have fails := (Expansion.agrees_expandRules agrees
    (.start terminals (description.nonterminals named))).2
  rw [ran] at fails
  exact fails

/-- A description is never refused because a token was not collected. -/
theorem failsPlainly_toPlain (description : Description) : FailsPlainly description.toPlain := by
  obtain ⟨starts, runs⟩ := description.failsPlainly_expansion
  refine starts.bind fun (scope, outcome, expansion) expanded =>
    (runs scope outcome expansion expanded).bind fun _ _ => ?_
  dsimp only
  split
  · exact Except.failsWith_error ⟨nofun, nofun⟩
  · exact (Except.failsWith_mapM (failsPlainly_conflictSymbols _) _).bind
      fun conflicts _ => Except.failsWith_ok _

/-- A description that has no plain grammar is refused for what it says. -/
theorem failsFairly_toPlain (description : Description) : FailsFairly description.toPlain :=
  fun error refused => (failsPlainly_toPlain description error refused).isOfDescription

/-- Every token that the expansion of rules looks up was collected under the same key, and the
lookup gives a terminal that is recognised by the same text.  So no description is refused because a
token was not collected, and all symbols of productions exist. -/
theorem tokens_found (description : Description) :
    (∀ owner, description.toPlain ≠ .error (.invalidToken owner .notCollected)) ∧
    (∀ named terminals, Terminals.ofRules description = .ok named →
      description.collectTerminals named = .ok terminals →
      let rules := description.nonterminals named
      let scope : Expansion.Scope := ⟨terminals, rules.map Prod.fst⟩
      ∀ entry ∈ rules,
        (∀ token ∈ entry.2.inlineTokens, ∃ pattern index terminal,
          scope.Finds entry.1 token pattern index terminal) ∧
        ∀ other : Expansion.Scope, (∀ name, scope.symbol? name = other.symbol? name) →
          (∀ token ∈ entry.2.inlineTokens,
            scope.terminal entry.1 token = other.terminal entry.1 token) →
          Expansion.expand scope entry.1 entry.2 = Expansion.expand other entry.1 entry.2) ∧
    ∀ plain, description.toPlain = .ok plain → ∀ production ∈ plain.productions,
      production.lhs.index < plain.symbols.length ∧
        ∀ symbol ∈ production.rhs, symbol.index < plain.symbols.length := by
  refine ⟨fun owner refused => ?_, fun named terminals namedMade terminalsMade entry member => ?_,
    fun plain made production member => ?_⟩
  · exact (failsPlainly_toPlain description _ refused).2 owner rfl
  · have finds := fun token => @finds_inlineTokens _ _ _ namedMade terminalsMade
      ((description.nonterminals named).map Prod.fst) entry member token
    refine ⟨finds, fun other names same => funext fun before => ?_⟩
    refine (Expansion.agrees_expand entry.2 ⟨names, same, fun token inside => ?_⟩ before).1
    obtain ⟨pattern, index, terminal, here⟩ := finds token inside
    rw [here.found]
    exact Except.failsWith_ok _
  · exact ⟨(toPlain_numbered made).exist production member, fun symbol inside =>
      ((toPlain_sound made).rhs production member symbol inside).2⟩

/-- What is called, with a name of its own in trees. -/
def callee : Rule :=
  .field "callee" (.aliased "name" true (.precedence (.static none) 1 (.pattern "[a-z]+" none)))

/-- Calls with an argument in brackets.  Tokens stand under names for trees, fields and precedences,
and the opening bracket is an external token. -/
def calls : Description :=
  ⟨"calls", [
    ("call", .seq [callee, .string "(", .symbol "argument", .token true (.string ")")]),
    ("argument", .choice [.aliased "value" true (.symbol "number"),
      .repetition true (.aliased "comma" false (.token false (.seq [.string ",", .blank]))),
      .precedence .dynamic 1 (.pattern "[a-z]+" none)]),
    ("number", .pattern "[0-9]+" none)], [.string " "], [.string "("], []⟩

/-- The tokens of a call are found: the callee under its name for trees, the opening bracket as an
external token, and the closing bracket by its text. -/
theorem tokens_found_calls :
    ∃ named terminals, Terminals.ofRules calls = .ok named ∧
      calls.collectTerminals named = .ok terminals ∧
      (∀ token ∈ [.aliased "name" true (.precedence (.static none) 1 (.pattern "[a-z]+" none)),
          .string "(", .token true (.string ")")],
        ∃ pattern index terminal, Expansion.Scope.Finds ⟨terminals, ["call", "argument"]⟩ "call"
          token pattern index terminal) ∧
      ∃ plain, calls.toPlain = .ok plain ∧ ∀ production ∈ plain.productions,
        production.lhs.index < plain.symbols.length ∧
          ∀ symbol ∈ production.rhs, symbol.index < plain.symbols.length := by
  have succeeds : calls.toPlain.isOk = true := by cbv
  obtain ⟨plain, made⟩ := Except.exists_of_isOk succeeds
  obtain ⟨named, terminals, -, -, -, namedMade, terminalsMade, -⟩ := toPlain_eq_ok made
  obtain ⟨-, finds, inside⟩ := tokens_found calls
  cases namedMade
  exact ⟨_, terminals, rfl, terminalsMade,
    (finds _ terminals rfl terminalsMade ("call", _) List.mem_cons_self).1,
    plain, made, inside plain made⟩

end Description

end IncrementalGlr
