import IncrementalGlr.Description.Compiled
import IncrementalGlr.Proofs.Blob.RoundTrip
import IncrementalGlr.Proofs.Lalr.Bounds
import IncrementalGlr.Proofs.Plain.Lowering
import IncrementalGlr.Proofs.Plain.Lookups
import IncrementalGlr.Proofs.Table.Compiled

/-!
# Loading what was compiled

What is put together from a plain grammar and its table passes the check of its contents, and all
its counts fit their words.  So a description is refused by the loader for a malformed pattern only,
and the binary form of a compiled grammar is loaded as the grammar itself.
-/

namespace IncrementalGlr

/-- Whether the lengths of all texts of a grammar fit the words in which they are stored. -/
structure GrammarData.TextsFit (data : GrammarData) : Prop where
  /-- The name is not too long. -/
  name : data.name.toUTF8.size < 2 ^ 32
  /-- No symbol has too long a name. -/
  symbolNames : ∀ info ∈ data.symbols, info.name.toUTF8.size < 2 ^ 32
  /-- No lexical rule has too long a pattern. -/
  patterns : ∀ rule ∈ data.lexRules, rule.pattern.source.toUTF8.size < 2 ^ 32

instance (data : GrammarData) : Decidable data.TextsFit :=
  decidable_of_iff (data.name.toUTF8.size < 2 ^ 32 ∧
      (∀ info ∈ data.symbols, info.name.toUTF8.size < 2 ^ 32) ∧
      ∀ rule ∈ data.lexRules, rule.pattern.source.toUTF8.size < 2 ^ 32)
    ⟨fun ⟨name, symbolNames, patterns⟩ => ⟨name, symbolNames, patterns⟩,
      fun ⟨name, symbolNames, patterns⟩ => ⟨name, symbolNames, patterns⟩⟩

theorem GrammarData.Storable.textsFit {data : GrammarData} (storable : data.Storable) :
    data.TextsFit :=
  ⟨storable.name, storable.symbolNames, storable.patterns⟩

theorem PlainProduction.lhs_of_compile {production : PlainProduction} {stored : Production}
    (compiled : production.compile = .ok stored) : stored.lhs = production.lhs := by
  unfold compile at compiled
  split at compiled
  · cases compiled
  · cases compiled
    rfl

namespace PlainGrammar

section Symbols

variable {plain : PlainGrammar} (sound : plain.Sound) {table : Lalr.Table}
  {productions : List Production}

include sound

theorem Sound.isTerminal_contents {symbol : Symbol} :
    (plain.contents table productions).isTerminal symbol = true ↔
      symbol.index < plain.terminalCount := by
  rw [GrammarData.isTerminal, sound.terminalCount_contents, decide_eq_true_iff]

theorem Sound.isNonterminal_contents {symbol : Symbol} :
    (plain.contents table productions).isNonterminal symbol = true ↔
      plain.terminalCount ≤ symbol.index ∧ symbol.index < plain.symbols.length := by
  rw [GrammarData.isNonterminal, sound.terminalCount_contents, Bool.and_eq_true,
    decide_eq_true_iff, decide_eq_true_iff]
  rfl

/-- The end of the input, the terminals and the nonterminals stand where the loader expects them. -/
theorem Sound.kindFits_contents {index : Nat} {info : SymbolInfo}
    (found : plain.symbols[index]? = some info) :
    (plain.contents table productions).kindFits index info.kind = true := by
  obtain ⟨terminals, nonterminals, same, count, terminalKinds, nonterminalKinds⟩ := sound.symbols
  rw [GrammarData.kindFits, sound.terminalCount_contents]
  rw [same] at found
  cases index with
  | zero =>
      obtain rfl := Option.some.inj found
      rfl
  | succ place =>
      rw [if_neg (Nat.succ_ne_zero place)]
      rw [List.cons_append, List.getElem?_cons_succ] at found
      split
      · next terminal =>
          rw [List.getElem?_append_left (by omega)] at found
          rcases terminalKinds info (List.mem_of_getElem? found) with kind | kind <;>
            rw [kind] <;> rfl
      · next nonterminal =>
          rw [List.getElem?_append_right (by omega)] at found
          rw [nonterminalKinds info (List.mem_of_getElem? found)]
          rfl

end Symbols

section Contents

variable {plain : PlainGrammar} {table : Lalr.Table} {productions : List Production}
  (sound : plain.Sound) (built : Lalr.Table.ofGrammar plain = .ok table)
  (stored : plain.productions.mapM PlainProduction.compile = .ok productions)
  (ids : productions.length < 65535)

include sound built stored ids

/-- What is put together from a plain grammar and its table passes the check of the loader. -/
theorem sound_contents (numbered : plain.Numbered) :
    (plain.contents table productions).Sound := by
  obtain ⟨automaton, made⟩ := Lalr.Table.madeFrom_of_ofGrammar sound built
  have count := (Except.forall₂_of_mapM stored).length_eq
  have fits := fun {state} (member : state ∈ table.states) => made.fits sound (count ▸ ids) member
  constructor
  case symbolCount => exact sound.symbolCount
  case terminalCount => exact sound.terminalCount_contents ▸ sound.positive
  case terminals => exact sound.terminalCount_contents.trans_le sound.terminalCount
  case stateCount =>
    have first := (Array.getElem?_eq_some_iff.1 made.complete.start).1
    exact ⟨made.size.symm ▸ first, made.size.symm ▸ made.small⟩
  case kinds => exact fun index info found => sound.kindFits_contents found
  case start => exact sound.isNonterminal_contents.2 sound.start
  case lexRules => exact sound.lexRules
  case productions =>
    intro production member
    obtain ⟨source, sourceMember, compiled⟩ := Except.source_of_mapM stored member
    rw [PlainProduction.lhs_of_compile compiled]
    have defined := numbered.defines source sourceMember
    exact sound.isNonterminal_contents.2 ⟨Nat.le_of_not_lt (of_decide_eq_false defined),
      numbered.exist source sourceMember⟩
  case lexStates =>
    exact fun valid member symbol listed =>
      sound.isTerminal_contents.2 (made.lexical.terminals valid member symbol listed).2
  case lexState => exact fun state member => (fits member).lexState
  case actions =>
    exact fun state member entry listed =>
      sound.isTerminal_contents.2 ((fits member).terminals entry listed)
  case shift => exact fun state member => (fits member).shift
  case reduce =>
    exact fun state member entry listed production reduces =>
      count ▸ (fits member).reduce entry listed production reduces
  case gotos =>
    exact fun state member entry listed =>
      sound.isNonterminal_contents.2 ((fits member).gotos entry listed)
  case targets => exact fun state member => (fits member).targets

/-- Only the lengths of texts may be too large to be stored. -/
theorem storable_contents (texts : (plain.contents table productions).TextsFit) :
    (plain.contents table productions).Storable := by
  obtain ⟨automaton, made⟩ := Lalr.Table.madeFrom_of_ofGrammar sound built
  have count := (Except.forall₂_of_mapM stored).length_eq
  have symbolCount := sound.symbolCount
  have terminalCount := sound.terminalCount
  have lexRules := sound.lexRuleCount
  have states : table.states.length < 65535 := made.size ▸ made.small
  have lexStates := made.lexical.count
  constructor
  case name => exact texts.name
  case symbols => exact symbolCount.trans (by decide)
  case symbolNames => exact texts.symbolNames
  case lexRules => exact (lexRules.trans_le terminalCount).trans (symbolCount.trans (by decide))
  case patterns => exact texts.patterns
  case productions => exact ids.trans (by decide)
  case lexStates => exact lexStates.trans_lt (states.trans (by decide))
  case terminals =>
    exact fun valid member => (made.lexical.sizes valid member).trans_lt (by decide)
  case states => exact states.trans (by decide)
  case state =>
    intro state member
    have fits := made.fits sound (count ▸ ids) member
    refine ⟨fits.cellCount.trans_lt ?_, fun entry listed => ?_, fits.gotoCount.trans_lt (by decide)⟩
    · exact (terminalCount.trans_lt symbolCount).trans (by decide)
    · exact (fits.alternatives entry listed).trans_lt (by omega)

end Contents

end PlainGrammar

/-! ## Refusals of the loader -/

theorem Lexicon.failsWith_compile (nameOf : Symbol → String) (rules : List LexRule) :
    Except.FailsWith LoadError.IsOfPattern (compile nameOf rules) := by
  refine Except.FailsWith.bind (Except.failsWith_mapM (fun rule => ?_) rules) fun patterns _ => ?_
  · split
    · exact Except.failsWith_ok _
    · exact Except.failsWith_error ⟨_, rfl⟩
  · dsimp only
    split
    · exact Except.failsWith_error ⟨_, rfl⟩
    · exact Except.failsWith_ok _

/-- Contents that pass the check are only refused for a malformed pattern. -/
theorem Grammar.failsWith_ofData {data : GrammarData} (sound : data.Sound) :
    Except.FailsWith LoadError.IsOfPattern (ofData data) := by
  unfold ofData withChecksum
  rw [GrammarData.defect?_eq_none.2 sound]
  exact (Lexicon.failsWith_compile _ _).bind fun lexicon _ => Except.failsWith_ok _

/-- The contents of a grammar with their checksum are loaded exactly from their binary form, if
everything in them can be stored. -/
theorem Grammar.ofBytes_encode_iff {data : GrammarData} {grammar : Grammar}
    (loaded : ofData data = .ok grammar) :
    ofBytes (Blob.encode data) = .ok grammar ↔ data.Storable := by
  constructor
  · intro read
    obtain ⟨⟨found, checksum⟩, decoded, checked⟩ := Except.bind_eq_ok.1 read
    obtain ⟨storable, -⟩ := Blob.decodeWithChecksum_eq_ok.1 decoded
    have same := (isLoaded_of_withChecksum checked).1.symm.trans (isLoaded_of_ofData loaded).1
    exact same ▸ storable
  · intro storable
    have decoded := Blob.decodeWithChecksum_eq_ok.2
      ⟨storable, Blob.body data, Blob.denotes_body data, rfl, rfl⟩
    rw [Blob.encode, ofBytes, decoded]
    exact loaded

theorem failsFairly_ofGrammar (plain : PlainGrammar) :
    FailsFairly (Lalr.Table.ofGrammar plain) := by
  unfold Lalr.Table.ofGrammar
  dsimp only
  split
  · exact Except.failsWith_error nofun
  · exact Except.failsWith_ok _

theorem failsFairly_production (production : PlainProduction) : FailsFairly production.compile := by
  unfold PlainProduction.compile
  split
  · exact Except.failsWith_error nofun
  · exact Except.failsWith_ok _

namespace Description

/-- The loader refuses no description but for a malformed pattern. -/
theorem failsFairly_compile (description : Description) : FailsFairly description.compile := by
  refine (failsFairly_toPlain description).bind fun plain plainMade =>
    (failsFairly_ofGrammar plain).bind fun table tableMade =>
      (Except.failsWith_mapM failsFairly_production _).bind fun productions stored => ?_
  dsimp only
  split
  · exact Except.failsWith_error nofun
  · next fits =>
      split
      · exact Except.failsWith_ok _
      · next defect refused =>
          have sound := PlainGrammar.sound_contents (toPlain_sound plainMade) tableMade stored
            (Nat.lt_of_not_le fits) (toPlain_numbered plainMade)
          refine Except.failsWith_error ?_
          rintro _ ⟨⟩
          exact Grammar.failsWith_ofData sound defect refused

/-- What a description is compiled to can be loaded: the loader refuses no contents but for a
malformed pattern, and the binary form is loaded as the grammar itself, with its contents and its
checksum.  Lengths are stored in 32 bits, so this takes texts of less than four gigabytes. -/
theorem compile_loads (description : Description) :
    (∀ error, description.compile = .error (.load error) →
      ∃ name, error = .invalidPattern name) ∧
    ∀ compiled, description.compile = .ok compiled →
      (Grammar.ofBytes compiled.bytes = .ok compiled.grammar ↔ compiled.grammar.data.TextsFit) := by
  refine ⟨fun error refused => failsFairly_compile description _ refused error rfl,
    fun compiled made => ?_⟩
  obtain ⟨plain, table, productions, plainMade, tableMade, stored, ids, loaded⟩ := compile_eq_ok made
  obtain ⟨contents, -⟩ := Grammar.isLoaded_of_ofData loaded
  rw [Compiled.bytes, Grammar.toBytes, contents, Grammar.ofBytes_encode_iff loaded]
  exact ⟨GrammarData.Storable.textsFit,
    PlainGrammar.storable_contents (toPlain_sound plainMade) tableMade stored ids⟩

/-- Texts described by a pattern whose group is not closed. -/
def unclosed : Description := ⟨"unclosed", [("text", .pattern "(w" none)], [], [], []⟩

/-- Whether a description is refused because its table cannot be loaded. -/
def isRefusedByLoader (description : Description) : Bool :=
  match description.compile with
  | .error (.load _) => true
  | _ => false

theorem refused_of_isRefusedByLoader {description : Description}
    (refused : description.isRefusedByLoader = true) :
    ∃ error, description.compile = .error (.load error) := by
  unfold isRefusedByLoader at refused
  split at refused
  · next error same => exact ⟨error, same⟩
  · cases refused

/-- Nested brackets are loaded as they were compiled, an unclosed group is refused. -/
theorem compile_loads_nested :
    (∃ compiled, nested.compile = .ok compiled ∧
      Grammar.ofBytes compiled.bytes = .ok compiled.grammar) ∧
    ∃ error, unclosed.compile = .error (.load error) ∧ ∃ name, error = .invalidPattern name := by
  constructor
  · have computed : (nested.compile.toOption.any fun compiled =>
        decide compiled.grammar.data.TextsFit) = true := by decide +kernel
    obtain ⟨compiled, made, texts⟩ := Except.exists_of_any computed
    exact ⟨compiled, made, ((compile_loads nested).2 compiled made).2 (of_decide_eq_true texts)⟩
  · have computed : unclosed.isRefusedByLoader = true := by decide +kernel
    obtain ⟨error, refused⟩ := refused_of_isRefusedByLoader computed
    exact ⟨error, refused, (compile_loads unclosed).1 error refused⟩

end Description

end IncrementalGlr
