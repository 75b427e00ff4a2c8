import IncrementalGlr.Proofs.Plain.Denotation

/-!
# Plain grammars derive what rules denote

The productions of a nonterminal are the alternatives of its rule, and those of a helper iterate
the content of its repetition.  So the languages of the nonterminals satisfy the rules, and a tree
of bounded height only derives what every solution of the rules holds.
-/

namespace IncrementalGlr

open scoped Computability

namespace PlainGrammar

/-- Whether some production replaces a symbol by the given ones. -/
def Rewrites (plain : PlainGrammar) (symbol : Symbol) (rhs : List Symbol) : Prop :=
  ∃ production ∈ plain.productions, production.lhs = symbol ∧ production.rhs = rhs

instance (plain : PlainGrammar) (symbol : Symbol) (rhs : List Symbol) :
    Decidable (plain.Rewrites symbol rhs) :=
  inferInstanceAs (Decidable (∃ production ∈ plain.productions, _))

theorem Rewrites.produces {plain : PlainGrammar} {symbol : Symbol} {rhs : List Symbol}
    (rewrites : plain.Rewrites symbol rhs) (before after : List Symbol) :
    plain.Produces (before ++ symbol :: after) (before ++ rhs ++ after) := by
  obtain ⟨production, member, rfl, rfl⟩ := rewrites
  exact .replace before after member

/-- Whether the productions of a plain grammar come of expanding the rules of its nonterminals. -/
structure Lowers (plain : PlainGrammar) (scope : Expansion.Scope) (rules : List (String × Rule)) :
    Prop where
  /-- The terminals are those of the scope. -/
  terminalCount : plain.terminalCount = scope.terminalCount
  /-- The rules are those of the scope's nonterminals. -/
  count : scope.nonterminals.length = rules.length
  /-- The symbols fit their ids. -/
  small : scope.terminalCount + rules.length < 65536
  /-- Only nonterminals are defined. -/
  defines : plain.DefinesNonterminals
  /-- What is defined is a symbol. -/
  exist : ∀ production ∈ plain.productions, production.lhs.index < plain.symbols.length
  /-- The right sides of a nonterminal are the alternatives of its rule. -/
  expanded : ∀ index name rule, rules[index]? = some (name, rule) →
    ∃ before after alternatives,
      Expansion.expand scope name rule before = (.ok alternatives, after) ∧
      Expansion.Covers scope plain.Rewrites before after ∧
      ∀ rhs, plain.Rewrites (.ofIndex (scope.terminalCount + index)) rhs ↔
        rhs ∈ Alternative.forms alternatives

section Languages

variable {plain : PlainGrammar} {symbol : Symbol} {word : List Symbol}

theorem mem_sidesLanguage {meaning : Symbol → Language Symbol} {forms : List (List Symbol)} :
    word ∈ Expansion.sidesLanguage meaning forms ↔
      ∃ form ∈ forms, word ∈ (form.map meaning).prod := by
  induction forms with
  | nil => simp [Expansion.sidesLanguage]
  | cons form rest induction =>
      rw [Expansion.sidesLanguage, List.map_cons, List.sum_cons, Language.mem_add,
        List.exists_mem_cons_iff]
      exact or_congr_right induction

/-- The trees of a nonterminal are one higher than those of its right sides. -/
theorem languageIn_succ_eq (nonterminal : plain.isTerminal symbol = false)
    {forms : List (List Symbol)} (sides : ∀ rhs, plain.Rewrites symbol rhs ↔ rhs ∈ forms)
    (height : Nat) :
    plain.languageIn (height + 1) symbol =
      Expansion.sidesLanguage (plain.languageIn height) forms := by
  ext word
  rw [mem_languageIn_succ nonterminal, mem_sidesLanguage]
  constructor
  · rintro ⟨production, member, same, inside⟩
    exact ⟨production.rhs, (sides _).1 ⟨production, member, same, rfl⟩, inside⟩
  · rintro ⟨form, member, inside⟩
    obtain ⟨production, listed, same, rfl⟩ := (sides form).2 member
    exact ⟨production, listed, same, inside⟩

/-- The language of a symbol has all that its right sides have. -/
theorem sidesLanguage_le {forms : List (List Symbol)}
    (sides : ∀ form ∈ forms, plain.Rewrites symbol form) :
    Expansion.sidesLanguage plain.language forms ≤ plain.language symbol := by
  intro word member
  obtain ⟨form, listed, inside⟩ := mem_sidesLanguage.1 member
  obtain ⟨production, found, rfl, rfl⟩ := sides form listed
  exact prod_le_language found inside

theorem language_terminal (defines : plain.DefinesNonterminals)
    (terminal : plain.isTerminal symbol = true) : plain.language symbol = {[symbol]} := by
  ext word
  rw [mem_language_iff defines]
  simp only [languageIn_terminal terminal, exists_const]

end Languages

section Helpers

variable {plain : PlainGrammar} {scope : Expansion.Scope} {helper : Symbol}
  {forms : List (List Symbol)}

/-- The right sides of a helper: the content, and the content after the helper. -/
theorem mem_helperForms {rhs : List Symbol} :
    rhs ∈ forms.map ([helper] ++ ·) ++ forms ↔
      ∃ form ∈ forms, rhs = helper :: form ∨ rhs = form := by
  simp only [List.mem_append, List.mem_map, exists_or, and_or_left]
  constructor
  · rintro (⟨form, member, rfl⟩ | member)
    · exact .inl ⟨form, member, rfl⟩
    · exact .inr ⟨rhs, member, rfl⟩
  · rintro (⟨form, member, rfl⟩ | ⟨form, member, rfl⟩)
    · exact .inl ⟨form, member, rfl⟩
    · exact .inr member

theorem sidesLanguage_helperForms (meaning : Symbol → Language Symbol) :
    Expansion.sidesLanguage meaning (forms.map ([helper] ++ ·) ++ forms) =
      meaning helper * Expansion.sidesLanguage meaning forms +
        Expansion.sidesLanguage meaning forms := by
  rw [Expansion.sidesLanguage_append, Expansion.sidesLanguage_prefix, List.map_singleton,
    List.prod_singleton]

/-- A tree of a helper is a chain of trees of its content. -/
theorem languageIn_helper_le (nonterminal : plain.isTerminal helper = false)
    (sides : ∀ rhs, plain.Rewrites helper rhs ↔ ∃ form ∈ forms, rhs = helper :: form ∨ rhs = form)
    (height : Nat) :
    plain.languageIn height helper ≤ Expansion.sidesLanguage (plain.languageIn height) forms *
      (Expansion.sidesLanguage (plain.languageIn height) forms)∗ := by
  induction height with
  | zero =>
      rw [languageIn_zero nonterminal]
      exact bot_le
  | succ height induction =>
      have larger : Expansion.sidesLanguage (plain.languageIn height) forms ≤
          Expansion.sidesLanguage (plain.languageIn (height + 1)) forms := fun word member => by
        obtain ⟨form, listed, inside⟩ := mem_sidesLanguage.1 member
        exact mem_sidesLanguage.2 ⟨form, listed,
          prod_map_mono (fun other _ => languageIn_mono (Nat.le_succ height) other) inside⟩
      rw [languageIn_succ_eq nonterminal (fun rhs => (sides rhs).trans mem_helperForms.symm),
        sidesLanguage_helperForms]
      generalize Expansion.sidesLanguage (plain.languageIn height) forms = content at *
      calc plain.languageIn height helper * content + content
          ≤ content * content∗ * content + content :=
            add_le_add (mul_le_mul' induction le_rfl) le_rfl
        _ = content * (1 + content∗ * content) := by rw [mul_add, mul_one, mul_assoc, add_comm]
        _ = content * content∗ := by rw [one_add_kstar_mul]
        _ ≤ _ := mul_le_mul' larger (kstar_mono larger)

/-- The language of a helper has all chains of what its content derives. -/
theorem kstar_le_language_helper
    (sides : ∀ rhs, plain.Rewrites helper rhs ↔ ∃ form ∈ forms, rhs = helper :: form ∨ rhs = form) :
    Expansion.sidesLanguage plain.language forms *
      (Expansion.sidesLanguage plain.language forms)∗ ≤ plain.language helper := by
  have closed := @sidesLanguage_le plain helper _ fun form member =>
    (sides form).2 (mem_helperForms.1 member)
  rw [sidesLanguage_helperForms] at closed
  exact mul_kstar_le (le_trans le_add_self closed) (le_trans le_self_add closed)

end Helpers

section Lowers

variable {plain : PlainGrammar} {scope : Expansion.Scope} {rules : List (String × Rule)}

theorem Lowers.isTerminal (lowers : plain.Lowers scope rules) {index : Nat}
    (inside : index < scope.terminals.list.length) :
    plain.isTerminal (.ofIndex (index + 1)) = true := by
  have small := lowers.small
  have terminalCount : scope.terminalCount = scope.terminals.list.length + 1 := rfl
  rw [PlainGrammar.isTerminal, lowers.terminalCount, Symbol.index_ofIndex (by omega)]
  exact decide_eq_true (by omega)

theorem Lowers.isNonterminal (lowers : plain.Lowers scope rules) {index : Nat}
    (inside : index < rules.length) :
    plain.isTerminal (.ofIndex (scope.terminalCount + index)) = false := by
  have small := lowers.small
  rw [PlainGrammar.isTerminal, lowers.terminalCount, Symbol.index_ofIndex (by omega)]
  exact decide_eq_false (by omega)

theorem Lowers.isHelper (lowers : plain.Lowers scope rules) {helper : Symbol}
    (later : scope.terminalCount ≤ helper.index) : plain.isTerminal helper = false := by
  rw [PlainGrammar.isTerminal, lowers.terminalCount]
  exact decide_eq_false (Nat.not_lt.2 later)

/-- The trees of one height more derive no more than the rules call for. -/
theorem Lowers.languageIn_succ_le (lowers : plain.Lowers scope rules) {index : Nat} {name : String}
    {rule : Rule} (found : rules[index]? = some (name, rule)) (height : Nat) :
    plain.languageIn (height + 1) (.ofIndex (scope.terminalCount + index)) ≤
      scope.language (fun index => plain.languageIn height (.ofIndex (scope.terminalCount + index)))
        name rule := by
  obtain ⟨before, after, alternatives, expanded, covers, sides⟩ := lowers.expanded _ _ _ found
  rw [languageIn_succ_eq (lowers.isNonterminal (List.getElem?_eq_some_iff.1 found).1) sides]
  exact Expansion.compares_expand Expansion.compares_le
    ⟨fun index inside => languageIn_terminal (lowers.isTerminal inside) height, fun _ _ => rfl⟩
    (fun helper forms later sides => languageIn_helper_le (lowers.isHelper later) sides height)
    rule _ _ _ expanded covers

/-- The languages of the nonterminals satisfy the rules. -/
theorem Lowers.satisfies (lowers : plain.Lowers scope rules) :
    scope.Satisfies rules fun index =>
      plain.language (.ofIndex (scope.terminalCount + index)) := by
  intro index name rule found
  obtain ⟨before, after, alternatives, expanded, covers, sides⟩ := lowers.expanded _ _ _ found
  refine le_trans ?_ (sidesLanguage_le fun form => (sides form).2)
  exact Expansion.compares_expand Expansion.compares_ge
    ⟨fun index inside => language_terminal lowers.defines (lowers.isTerminal inside),
      fun _ _ => rfl⟩
    (fun helper forms later sides => kstar_le_language_helper sides) rule _ _ _ expanded covers

/-- Every solution of the rules has what the trees derive. -/
theorem Lowers.languageIn_le (lowers : plain.Lowers scope rules) {names : Nat → Language Symbol}
    (satisfied : scope.Satisfies rules names) (height : Nat) {index : Nat}
    (inside : index < rules.length) :
    plain.languageIn height (.ofIndex (scope.terminalCount + index)) ≤ names index := by
  induction height generalizing index with
  | zero =>
      rw [languageIn_zero (lowers.isNonterminal inside)]
      exact bot_le
  | succ height induction =>
      have found : rules[index]? = some (rules[index].1, rules[index].2) :=
        List.getElem?_eq_getElem inside
      exact (lowers.languageIn_succ_le found height).trans
        ((Expansion.Scope.language_mono
          (fun other bound => induction (lowers.count ▸ bound)) _).trans (satisfied _ _ _ found))

/-- The language of a nonterminal is what the rules denote. -/
theorem Lowers.language_eq (lowers : plain.Lowers scope rules) {index : Nat}
    (inside : index < rules.length) :
    plain.language (.ofIndex (scope.terminalCount + index)) = scope.denotation rules index := by
  refine le_antisymm (fun word member names satisfied => ?_) fun word member =>
    member _ lowers.satisfies
  obtain ⟨height, within⟩ := (mem_language_iff lowers.defines).1 member
  exact lowers.languageIn_le satisfied height inside within

/-- The language of a nonterminal is that of its rule. -/
theorem Lowers.language_eq_rule (lowers : plain.Lowers scope rules) {index : Nat} {name : String}
    {rule : Rule} (found : rules[index]? = some (name, rule)) :
    plain.language (.ofIndex (scope.terminalCount + index)) =
      scope.language (scope.denotation rules) name rule := by
  refine le_antisymm (fun word member => ?_) ?_
  · obtain ⟨height, within⟩ := (mem_language_iff lowers.defines).1 member
    refine (lowers.languageIn_succ_le found height).trans (Expansion.Scope.language_mono
      (fun other bound => ?_) rule) (languageIn_mono (Nat.le_succ height) _ within)
    rw [← lowers.language_eq (lowers.count ▸ bound)]
    exact languageIn_le_language height _
  · refine (Expansion.Scope.language_mono (fun other bound => ?_) rule).trans
      (lowers.satisfies index name rule found)
    rw [lowers.language_eq (lowers.count ▸ bound)]

end Lowers

end PlainGrammar

section Entries

variable {scope : Expansion.Scope} {rules : List (String × Rule)}

theorem Expansion.Scope.mem_entries {entry : Symbol × String × Rule} :
    entry ∈ scope.entries rules ↔ ∃ index, rules[index]? = some entry.2 ∧
      entry.1 = .ofIndex (scope.terminalCount + index) := by
  constructor
  · intro member
    obtain ⟨⟨⟨name, rule⟩, index⟩, listed, rfl⟩ := List.mem_map.1 member
    exact ⟨index, List.mem_zipIdx_iff_getElem?.1 listed, rfl⟩
  · rintro ⟨index, found, same⟩
    refine List.mem_map.2 ⟨(entry.2, index), List.mem_zipIdx_iff_getElem?.2 found, ?_⟩
    exact Prod.ext same.symm rfl

/-- No two nonterminals are the same symbol. -/
theorem Expansion.Scope.nodup_entries (small : scope.terminalCount + rules.length < 65536) :
    ((scope.entries rules).map Prod.fst).Nodup := by
  have positions : (scope.entries rules).map Prod.fst =
      (List.range' 0 rules.length).map fun index => .ofIndex (scope.terminalCount + index) := by
    rw [← List.zipIdx_map_snd 0 rules, entries, List.map_map, List.map_map]
    rfl
  rw [positions]
  refine List.Nodup.map_on (fun index inside other otherInside same => ?_) List.nodup_range'
  rw [List.mem_range'_1] at inside otherInside
  have equal := congrArg Symbol.index same
  rw [Symbol.index_ofIndex (by omega), Symbol.index_ofIndex (by omega)] at equal
  omega

/-- What comes of expanding the rules from no productions. -/
theorem PlainGrammar.lowers_of_expandRules {plain : PlainGrammar} {before after : Expansion}
    (expanded : (scope.entries rules).forM (Expansion.expandRule scope) before = (.ok (), after))
    (small : after.symbols.size ≤ 65535) (empty : before.productions = #[])
    (size : before.symbols.size = scope.terminalCount + rules.length)
    (count : scope.nonterminals.length = rules.length)
    (terminalCount : plain.terminalCount = scope.terminalCount)
    (symbols : plain.symbols = after.symbols.toList)
    (productions : plain.productions = after.productions.toList) : plain.Lowers scope rules := by
  have untouched : ∀ symbol rhs, ¬ before.Rewrites symbol rhs := by
    rintro symbol rhs ⟨production, member, -⟩
    rw [empty] at member
    exact Array.not_mem_empty _ member
  have room := Expansion.grows_compositional.expandRules _ _ Expansion.grows_addProductions _ _ _
    expanded
  have rewrites : ∀ symbol rhs, plain.Rewrites symbol rhs ↔ after.Rewrites symbol rhs :=
    fun symbol rhs => by simp only [PlainGrammar.Rewrites, Expansion.Rewrites, productions,
      Array.mem_toList_iff]
  have place : ∀ index < rules.length,
      (Symbol.ofIndex (scope.terminalCount + index)).index = scope.terminalCount + index :=
    fun index inside => Symbol.index_ofIndex (by omega)
  obtain ⟨-, closed, same, lowered⟩ := Expansion.expandRules_eq_ok expanded small
    (fun symbol rhs held => absurd held (untouched symbol rhs))
    (fun entry member => by
      obtain ⟨index, found, equal⟩ := Expansion.Scope.mem_entries.1 member
      have inside := (List.getElem?_eq_some_iff.1 found).1
      rw [equal, place index inside]
      omega)
    (fun entry _ => untouched entry.1) (Expansion.Scope.nodup_entries (by omega))
  refine ⟨terminalCount, count, by omega, fun production member => ?_, fun production member => ?_,
    fun index name rule found => ?_⟩
  · -- a symbol before the nonterminals is none of them, so it is replaced as at first
    by_contra terminal
    rw [Bool.not_eq_false, PlainGrammar.isTerminal, decide_eq_true_eq, terminalCount] at terminal
    refine untouched production.lhs production.rhs ((same _ _ (by omega) fun listed => ?_).1
      ((rewrites _ _).1 ⟨production, member, rfl, rfl⟩))
    obtain ⟨entry, entryMember, equal⟩ := List.mem_map.1 listed
    obtain ⟨index, found, position⟩ := Expansion.Scope.mem_entries.1 entryMember
    rw [← equal, position, place index (List.getElem?_eq_some_iff.1 found).1] at terminal
    omega
  · rw [symbols, Array.length_toList]
    exact closed _ _ ((rewrites _ _).1 ⟨production, member, rfl, rfl⟩)
  · obtain ⟨entry⟩ := lowered (.ofIndex (scope.terminalCount + index), name, rule)
      (Expansion.Scope.mem_entries.2 ⟨index, found, rfl⟩)
    exact ⟨entry.start, entry.stop, entry.alternatives, entry.expanded,
      ⟨Nat.le_trans entry.room small, entry.closed,
        Nat.le_trans (by omega) entry.later, fun symbol rhs new inside =>
          (rewrites symbol rhs).trans (entry.helpers symbol rhs new inside)⟩,
      fun rhs => (rewrites _ rhs).trans (entry.sides rhs)⟩

end Entries

namespace Description

/-- The productions of a plain grammar come of expanding the rules of the description. -/
theorem toPlain_lowers {description : Description} {plain : PlainGrammar}
    (made : description.toPlain = .ok plain) :
    ∃ named terminals, Terminals.ofRules description = .ok named ∧
      description.collectTerminals named = .ok terminals ∧
      plain.Lowers ⟨terminals, (description.nonterminals named).map Prod.fst⟩
        (description.nonterminals named) := by
  obtain ⟨named, terminals, expansion, conflicts, -, namedMade, terminalsMade, expanded, small,
    rfl⟩ := toPlain_eq_ok made
  exact ⟨named, terminals, namedMade, terminalsMade,
    PlainGrammar.lowers_of_expandRules expanded (Nat.le_of_lt small) rfl Expansion.size_start
      (List.length_map ..) rfl rfl rfl⟩

/-- The symbols of a plain grammar are numbered as they should be. -/
theorem toPlain_numbered {description : Description} {plain : PlainGrammar}
    (made : description.toPlain = .ok plain) : plain.Numbered := by
  have sound := toPlain_sound made
  obtain ⟨named, terminals, -, -, lowers⟩ := toPlain_lowers made
  refine ⟨?_, sound.terminalCount, Nat.lt_succ_of_lt sound.symbolCount, lowers.defines, lowers.exist⟩
  rw [lowers.terminalCount]
  exact Nat.succ_pos _

/-- The terminals that can be derived from a nonterminal are what the description's rules denote
for it, which is the language of its rule expression. -/
theorem toPlain_language {description : Description} {plain : PlainGrammar}
    (made : description.toPlain = .ok plain) :
    ∃ named terminals, Terminals.ofRules description = .ok named ∧
      description.collectTerminals named = .ok terminals ∧
      let rules := description.nonterminals named
      let scope : Expansion.Scope := ⟨terminals, rules.map Prod.fst⟩
      ∀ index name rule, rules[index]? = some (name, rule) →
        plain.language (.ofIndex (plain.terminalCount + index)) = scope.denotation rules index ∧
        plain.language (.ofIndex (plain.terminalCount + index)) =
          scope.language (scope.denotation rules) name rule := by
  obtain ⟨named, terminals, namedMade, terminalsMade, lowers⟩ := toPlain_lowers made
  refine ⟨named, terminals, namedMade, terminalsMade, fun index name rule found => ?_⟩
  rw [lowers.terminalCount]
  exact ⟨lowers.language_eq (List.getElem?_eq_some_iff.1 found).1, lowers.language_eq_rule found⟩

/-- Words and bracketed lists of texts. -/
def nested : Description :=
  ⟨"nested", [("text", .choice [.string "w",
    .seq [.string "(", .repetition false (.symbol "text"), .string ")"]])], [], [], []⟩

/-- A text is a word or any number of texts in brackets. -/
theorem toPlain_language_nested :
    ∃ plain, nested.toPlain = .ok plain ∧
      plain.language (.ofIndex plain.terminalCount) = {[.ofIndex 1]} +
        {[.ofIndex 2]} * ((plain.language (.ofIndex plain.terminalCount))∗ * {[.ofIndex 3]}) := by
  have succeeds : nested.toPlain.isOk = true := by decide +kernel
  obtain ⟨plain, made⟩ := Except.exists_of_isOk succeeds
  obtain ⟨named, terminals, namedMade, terminalsMade, same⟩ := toPlain_language made
  cases namedMade
  cases terminalsMade
  obtain ⟨denotes, rule⟩ := same 0 _ _ rfl
  rw [Nat.add_zero] at denotes rule
  refine ⟨plain, made, ?_⟩
  nth_rewrite 2 [denotes]
  refine rule.trans ?_
  change {[Symbol.ofIndex 1]} + ({[Symbol.ofIndex 2]} * (_∗ * ({[Symbol.ofIndex 3]} * 1)) + 0) = _
  rw [mul_one, add_zero]
  rfl

end Description

end IncrementalGlr
