import IncrementalGlr.Proofs.Edits.Repeated
import IncrementalGlr.Proofs.Reparsing.Warm

/-!
# Texts that are parsed again after each edit

What an edit leaves alone of a sound tree is grown over the new text as well.  So the parse with the
earlier tree and the edit makes a sound tree again, and after every edit it makes what a new parser
makes of the text.  The tokens must not depend on the state of the parser, though: a token behind a
node that is taken over is read in the state behind the node, while a new parser reads it in the
state before the reduction.
-/

namespace IncrementalGlr

open Lalr (Item)
open Version (Accepts)

/-- The parses with a compiled grammar that has no precedences and no conflicts, over texts whose
tokens do not depend on the state of the parser. -/
theorem Description.exists_settled {description : Description} {compiled : Compiled}
    (made : description.compile = .ok compiled) {plain : PlainGrammar}
    (lowered : description.toPlain = .ok plain) (neutral : plain.Neutral)
    (quiet : compiled.conflicts = []) (apart : compiled.grammar.ExtrasApart plain)
    (ahead : Lexer.LooksAhead compiled.grammar) :
    ∃ items expects, ∀ text : Text, text.WellFormed → Lexer.Uniform ⟨compiled.grammar, none⟩ text →
      ParseJob.Settled ⟨⟨compiled.grammar, none⟩, text⟩ plain items expects := by
  obtain ⟨source, table, sourceLowered, comes⟩ := compile_comesFrom made
  obtain rfl := Except.ok.inj (lowered.symm.trans sourceLowered)
  obtain ⟨automaton, madeFrom⟩ := Lalr.Table.madeFrom_of_ofGrammar comes.sound comes.built
  obtain ⟨_, _, _, -, -, -, -, loaded⟩ := compile_eq_ok made
  obtain ⟨-, filled⟩ := Grammar.isFilled_of_ofData loaded
  have numbered := toPlain_numbered lowered
  rw [conflicts_of_compile made lowered comes.built] at quiet
  obtain ⟨expects, predicts⟩ := comes.exists_predicts numbered neutral quiet
  exact ⟨Grammar.ComesFrom.ItemsOf plain automaton, expects, fun text wellFormed uniform =>
    { filled, internal := rfl, wellFormed, uniform, ahead, predicts, numbered
      acts := comes.actsOn madeFrom apart
      begins := Grammar.ComesFrom.start_of_whole madeFrom
      decisive := comes.decisive quiet
      terminals := comes.isTerminal_eq }⟩

/-- The parsers, their last outputs and the texts that come about when a text is parsed and then,
after each of several edits, parsed again with the tree of the parse before and the edit.  All
parses come to their end, and over no text the tokens depend on the state of the parser. -/
inductive Retyped (grammar : Grammar) (options : ParseOptions) :
    Parser → ParseOutput → Text → Prop
  /-- The text is parsed. -/
  | first {parser : Parser} {trees : List SyntaxTree} (session : Session grammar none parser trees)
      (configured : parser.options = options) {text : Text} (wellFormed : text.WellFormed)
      (uniform : Lexer.Uniform ⟨grammar, none⟩ text)
      (complete : (parser.parse text none []).1.status = .complete) :
    Retyped grammar options (parser.parse text none []).2 (parser.parse text none []).1 text
  /-- It is edited and parsed again. -/
  | edit {parser : Parser} {output : ParseOutput} {before after : Text} {edit : Edit}
      (earlier : Retyped grammar options parser output before) (turns : edit.Turns before after)
      (wellFormed : after.WellFormed) (uniform : Lexer.Uniform ⟨grammar, none⟩ after)
      (complete : (parser.parse after (some output.tree) [edit]).1.status = .complete) :
    Retyped grammar options (parser.parse after (some output.tree) [edit]).2
      (parser.parse after (some output.tree) [edit]).1 after

/-- Whether a tree is that of a run without an earlier tree, or has no errors and is alike one that
is accepted. -/
def Subtree.Agrees (job : ParseJob) (options : ParseOptions) (root : Subtree) : Prop :=
  root.Regrown job ∨ root = (Parser.runJob (m := Id) job options none).1

/-- A run that may take over parts of a tree and comes to its end makes a sound tree that is as good
as that of a run without it. -/
theorem Parser.runJob_agrees {job : ParseJob} {plain : PlainGrammar}
    {items : StateId → Item → Prop} {expects : StateId → Item → Symbol → Prop}
    (settled : job.Settled plain items expects) {reuse : Option Subtree}
    (offered : ∀ root ∈ reuse, root.Offered job.lexer plain job.text 0) {options : ParseOptions}
    (complete : (runJob (m := Id) job options (reuse.map ReuseCursor.ofRoot)).2.1 = .complete) :
    let root := (runJob (m := Id) job options (reuse.map ReuseCursor.ofRoot)).1
    root.SoundTree job.lexer plain job.text ∧ root.Agrees job options := by
  have fresh := runJob_sound settled.toSteady settled.acts settled.terminals options
  cases reuse with
  | none => exact ⟨fresh, .inr rfl⟩
  | some root =>
      rcases runJob_regrown settled (offered root rfl) complete with ⟨sound, regrown⟩ | full
      · exact ⟨sound, .inl regrown⟩
      · have same := (runJob_full complete full).1
        exact ⟨same ▸ fresh, .inr same.symm⟩

/-- What holds of a parser of a grammar, its last output and the text. -/
structure Parser.UpToDate (grammar : Grammar) (plain : PlainGrammar) (parser : Parser)
    (output : ParseOutput) (text : Text) : Prop where
  /-- The tree was made by the parser. -/
  session : ∃ trees, Session grammar none parser trees ∧ output.tree ∈ trees
  /-- The parser remembers the text, if any. -/
  last : ∀ pair ∈ parser.last, pair.2 = text
  /-- The tree is as long as the text. -/
  length : output.tree.length = text.size
  /-- It is sound. -/
  sound : output.tree.root.erase.SoundTree ⟨grammar, none⟩ plain text
  /-- It is as good as that of a run without an earlier tree. -/
  agrees : output.tree.root.erase.Agrees ⟨⟨grammar, none⟩, text⟩ parser.options
  /-- The output is complete. -/
  complete : output.status = .complete
  /-- The messages are those about the tree. -/
  diagnostics : output.diagnostics =
    (ParseOutput.ofTree output.tree text output.status output.stats).diagnostics

namespace Parser.UpToDate

variable {grammar : Grammar} {plain : PlainGrammar} {parser : Parser} {output : ParseOutput}
  {before after : Text} (upToDate : parser.UpToDate grammar plain output before) {edit : Edit}
  (turns : edit.Turns before after)

include upToDate turns

/-- If the tree is left as it is, so is the text. -/
theorem text_eq {tree : SyntaxTree}
    (fits : (parser.considered after (some output.tree) [edit]).1 = .unchanged tree) :
    after = before := by
  rcases parser.considered_tree after output.tree [edit] with useless | considered
  · cases fits.symm.trans useless
  · rcases (considerTree_unchanged (considered.symm.trans fits)).2 with none | again
    · refine turns.eq_of_isNoop (Bool.not_eq_false _ ▸ fun effective => ?_)
      simp [effective] at none
    · obtain ⟨pair, found, rfl⟩ := exists_of_isLastParse again
      exact upToDate.last pair found

/-- If the tree is edited, what the edit makes of it is offered for the text. -/
theorem offered {edited : Subtree}
    (fits : (parser.considered after (some output.tree) [edit]).1 = .edited edited) :
    Subtree.Offered ⟨grammar, none⟩ plain after 0
      (afterEdits [edit] output.tree.root.erase) := by
  rcases parser.considered_tree after output.tree [edit] with useless | considered
  · cases fits.symm.trans useless
  · have unchanged := (Subtree.Built.of_erase upToDate.sound.built).unchanged
    obtain ⟨whole, partly⟩ := considerTree_edited unchanged (considered.symm.trans fits)
    have effective : edit.isNoop = false := by
      by_contra noop
      have noop := Bool.not_eq_false _ ▸ noop
      exact whole noop (turns.eq_of_isNoop noop ▸ upToDate.length)
    have nonempty : 0 < before.size := by
      have inside := turns.inside
      have ordered := turns.removes
      by_contra empty
      have room := partly effective (by omega)
      rw [upToDate.length] at room
      omega
    rw [afterEdits, List.filter_singleton, effective]
    exact Subtree.offered_afterEdit turns nonempty
      ((Subtree.erase_length _).trans upToDate.length) upToDate.sound.parts

end Parser.UpToDate

section UpToDate

variable {description : Description} {compiled : Compiled}
  (made : description.compile = .ok compiled) {plain : PlainGrammar}
  {items : StateId → Item → Prop} {expects : StateId → Item → Symbol → Prop} {text : Text}
  (settled : ParseJob.Settled ⟨⟨compiled.grammar, none⟩, text⟩ plain items expects)
  {parser : Parser}

include made settled

/-- A parse that runs is up to date if the parts that it takes over are those of the text. -/
theorem Parser.upToDate_of_run {trees : List SyntaxTree}
    (session : Session compiled.grammar none parser trees) {previous : Option SyntaxTree}
    (earlier : ∀ tree ∈ previous, tree ∈ trees) {edits : List Edit}
    (last : ∀ pair ∈ (parser.parse text previous edits).2.last, pair.2 = text)
    {reuse : Option Subtree}
    (offered : ∀ root ∈ reuse, root.Offered ⟨compiled.grammar, none⟩ plain text 0)
    (image : ((parser.parse text previous edits).1.tree.root.erase,
        (parser.parse text previous edits).1.status, (parser.parse text previous edits).1.stats) =
      runJob (m := Id) ⟨⟨parser.grammar, parser.external⟩, text⟩ parser.options
        (reuse.map ReuseCursor.ofRoot))
    (complete : (parser.parse text previous edits).1.status = .complete) :
    (parser.parse text previous edits).2.UpToDate compiled.grammar plain
      (parser.parse text previous edits).1 text := by
  obtain ⟨grammar, external, -⟩ := session.valid
  rw [grammar, external] at image
  have root : (parser.parse text previous edits).1.tree.root.erase = _ := congrArg Prod.fst image
  have status : (parser.parse text previous edits).1.status = _ :=
    congrArg (fun outcome => outcome.2.1) image
  obtain ⟨sound, agrees⟩ := runJob_agrees settled offered (status.symm.trans complete)
  rw [← root] at sound agrees
  refine ⟨⟨_, session.parse text previous edits earlier, List.mem_cons_self⟩, last,
    (session.parse_whole made (fun _ none => by cases none) text earlier edits).2, sound, ?_,
    complete, parse_diagnostics parser text previous edits⟩
  rw [parse_options]
  exact agrees

theorem Parser.UpToDate.first {trees : List SyntaxTree}
    (session : Session compiled.grammar none parser trees)
    (complete : (parser.parse text none []).1.status = .complete) :
    (parser.parse text none []).2.UpToDate compiled.grammar plain (parser.parse text none []).1
      text := by
  obtain ⟨-, -, memory, valid, -⟩ := session.valid
  have noTree : ∀ tree ∈ (none : Option SyntaxTree), memory.Knows tree.root := fun _ => nofun
  rcases parse_considered valid noTree text [] with
    ⟨tree, never, -⟩ | ⟨last, reuse, -, offers, image⟩
  · cases never
  · refine upToDate_of_run made settled session (fun _ none => by cases none) last
      (fun root member => ?_) image complete
    obtain ⟨-, tree, never, -⟩ := offers root member
    cases never

/-- After an edit the parse with the tree of the parse before is up to date again. -/
theorem Parser.UpToDate.edit {output : ParseOutput} {before : Text}
    (upToDate : parser.UpToDate compiled.grammar plain output before) {edit : Edit}
    (turns : edit.Turns before text)
    (complete : (parser.parse text (some output.tree) [edit]).1.status = .complete) :
    (parser.parse text (some output.tree) [edit]).2.UpToDate compiled.grammar plain
      (parser.parse text (some output.tree) [edit]).1 text := by
  obtain ⟨trees, session, listed⟩ := upToDate.session
  have earlier : ∀ tree ∈ some output.tree, tree ∈ trees := by
    rintro _ ⟨⟩
    exact listed
  obtain ⟨-, -, memory, valid, known⟩ := session.valid
  rcases parse_considered valid (fun tree member => known tree (earlier tree member)) text
      [edit] with ⟨tree, same, fits, result, remembered⟩ | ⟨last, reuse, used, offers, image⟩
  · obtain rfl := Option.some.inj same
    obtain rfl := upToDate.text_eq turns fits
    have tree : (parser.parse text (some output.tree) [edit]).1.tree = output.tree := by
      rw [result]
      rfl
    refine ⟨⟨_, session.parse text _ [edit] earlier, List.mem_cons_self⟩,
      remembered ▸ upToDate.last, ?_, ?_, ?_, complete, parse_diagnostics ..⟩
    · rw [tree]
      exact upToDate.length
    · rw [tree]
      exact upToDate.sound
    · rw [parse_options, tree]
      exact upToDate.agrees
  · refine upToDate_of_run made settled session earlier last (fun root member => ?_) image complete
    obtain ⟨-, tree, same, rfl⟩ := offers root member
    obtain rfl := Option.some.inj same
    obtain ⟨edited, fits⟩ := used.1 (Option.isSome_iff_exists.2 ⟨_, member⟩)
    exact upToDate.offered turns fits

end UpToDate

/-- Whatever is parsed again after edits is up to date. -/
theorem Retyped.upToDate {description : Description} {compiled : Compiled}
    (made : description.compile = .ok compiled) {plain : PlainGrammar}
    {items : StateId → Item → Prop} {expects : StateId → Item → Symbol → Prop}
    (settled : ∀ text : Text, text.WellFormed → Lexer.Uniform ⟨compiled.grammar, none⟩ text →
      ParseJob.Settled ⟨⟨compiled.grammar, none⟩, text⟩ plain items expects)
    {options : ParseOptions} {parser : Parser} {output : ParseOutput} {text : Text}
    (retyped : Retyped compiled.grammar options parser output text) :
    text.WellFormed ∧ Lexer.Uniform ⟨compiled.grammar, none⟩ text ∧ parser.options = options ∧
      parser.UpToDate compiled.grammar plain output text := by
  induction retyped with
  | first session configured wellFormed uniform complete =>
      exact ⟨wellFormed, uniform, (Parser.parse_options ..).trans configured,
        .first made (settled _ wellFormed uniform) session complete⟩
  | edit earlier turns wellFormed uniform complete induction =>
      obtain ⟨-, -, configured, upToDate⟩ := induction
      exact ⟨wellFormed, uniform, (Parser.parse_options ..).trans configured,
        upToDate.edit made (settled _ wellFormed uniform) turns complete⟩

/-- What is up to date is what a new parser makes of the text. -/
theorem Parser.UpToDate.agrees_fresh {compiled : Compiled} {plain : PlainGrammar}
    {items : StateId → Item → Prop} {expects : StateId → Item → Symbol → Prop} {text : Text}
    (settled : ParseJob.Settled ⟨⟨compiled.grammar, none⟩, text⟩ plain items expects)
    {parser : Parser} {output : ParseOutput}
    (upToDate : parser.UpToDate compiled.grammar plain output text) (nextId : Nat) :
    let fresh :=
      ((Parser.ofGrammar compiled.grammar none parser.options nextId).parse text none []).1
    fresh.status = .complete →
      output.tree.root.alike fresh.tree.root = true ∧ output.diagnostics = fresh.diagnostics := by
  intro fresh complete
  have image : (fresh.tree.root.erase, fresh.status, fresh.stats) =
      runJob (m := Id) ⟨⟨compiled.grammar, none⟩, text⟩ parser.options none :=
    parse_fresh_eq (Store.valid_fromId nextId) text []
  have root : fresh.tree.root.erase = _ := congrArg Prod.fst image
  have status : fresh.status = _ := congrArg (fun outcome => outcome.2.1) image
  have messages : fresh.diagnostics =
      (ParseOutput.ofTree fresh.tree text fresh.status fresh.stats).diagnostics :=
    parse_diagnostics ..
  rw [← Subtree.alike_erase, upToDate.diagnostics, upToDate.complete, messages, complete]
  rcases upToDate.agrees with ⟨clean, other, accepts, alike⟩ | same
  · have accepted := runJob_accepts settled.acts settled.decisive accepts
      (status.symm.trans complete)
    rw [← root] at accepted
    have same := accepts.alike settled.decisive ⟨rfl, rfl, .nil⟩ accepted
    refine ⟨Subtree.alike_trans alike same, ?_⟩
    have otherClean := accepted.errorCount settled.acts
    rw [Subtree.erase_errorCount] at clean otherClean
    rw [ParseOutput.diagnostics_of_clean clean, ParseOutput.diagnostics_of_clean otherClean]
  · rw [same, root]
    exact ⟨Subtree.alike_refl _, ParseOutput.diagnostics_ofTree (same.trans root.symm) ..⟩

/-- If a text is parsed and then, after each of several edits, parsed again with the tree of the
parse before and the edit, the tree is in all symbols and lengths that of a new parser, and the
messages are the same.  This is so if the grammar has no precedences and no conflicts and keeps
extras apart, no lexical rule looks behind and over no text the tokens depend on the state of the
parser. -/
theorem Retyped.matches_fresh_parse {description : Description} {compiled : Compiled}
    (made : description.compile = .ok compiled) {plain : PlainGrammar}
    (lowered : description.toPlain = .ok plain) (neutral : plain.Neutral)
    (quiet : compiled.conflicts = []) (apart : compiled.grammar.ExtrasApart plain)
    (ahead : Lexer.LooksAhead compiled.grammar) {options : ParseOptions} {parser : Parser}
    {output : ParseOutput} {text : Text}
    (retyped : Retyped compiled.grammar options parser output text) (nextId : Nat) :
    let fresh := ((Parser.ofGrammar compiled.grammar none options nextId).parse text none []).1
    fresh.status = .complete →
      output.tree.root.alike fresh.tree.root = true ∧ output.diagnostics = fresh.diagnostics := by
  obtain ⟨items, expects, settled⟩ :=
    Description.exists_settled made lowered neutral quiet apart ahead
  obtain ⟨wellFormed, uniform, rfl, upToDate⟩ := retyped.upToDate made settled
  exact upToDate.agrees_fresh (settled text wellFormed uniform) nextId

/-- A blank is put into a text in brackets. -/
theorem matches_fresh_parse_bracketed :
    ∃ compiled, Description.bracketed.compile = .ok compiled ∧
      let parser := Parser.ofGrammar compiled.grammar none .standard 0
      let first := parser.parse (.ofString "(w)") none []
      let edited := Edit.replace (.ofString "(w)") ⟨1, 1⟩ (.ofString " ")
      let second := first.2.parse edited.1 (some first.1.tree) [edited.2]
      let fresh := parser.parse edited.1 none []
      second.1.stats.reused ≠ 0 ∧ second.1.tree.root.alike fresh.1.tree.root = true ∧
        second.1.diagnostics = fresh.1.diagnostics := by
  have computed : (Description.bracketed.compile.toOption.any fun compiled =>
      let lexer : Lexer := ⟨compiled.grammar, none⟩
      let edited := Edit.replace (.ofString "(w)") ⟨1, 1⟩ (.ofString " ")
      let first := Parser.runJob (m := Id) ⟨lexer, .ofString "(w)"⟩ .standard none
      let image := first.1.afterEdit edited.2
      let second := Parser.runJob (m := Id) ⟨lexer, edited.1⟩ .standard (some (.ofRoot image))
      let fresh := Parser.runJob (m := Id) ⟨lexer, edited.1⟩ .standard none
      (Description.bracketed.toPlain.toOption.any fun plain =>
        plain.Neutral && compiled.grammar.ExtrasApart plain) &&
      compiled.conflicts.isEmpty &&
      compiled.grammar.lexicon.patterns.all (fun pattern => !pattern.looksBehind) &&
      lexer.Uniform (.ofString "(w)") && lexer.Uniform edited.1 &&
      first.2.1 = .complete && image.length = edited.1.size && second.2.1 = .complete &&
      second.2.2.reused ≠ 0 && fresh.2.1 = .complete) = true := by
    decide +kernel
  obtain ⟨compiled, made, facts⟩ := Except.exists_of_any computed
  simp only [Bool.and_eq_true, decide_eq_true_eq, List.isEmpty_iff, List.all_eq_true,
    Bool.not_eq_true'] at facts
  obtain ⟨⟨⟨⟨⟨⟨⟨⟨⟨grammars, quiet⟩, ahead⟩, uniform⟩, editedUniform⟩, firstEnds⟩, spans⟩, ends⟩,
    reused⟩, freshEnds⟩ := facts
  obtain ⟨plain, lowered, properties⟩ := Except.exists_of_any grammars
  simp only [Bool.and_eq_true, decide_eq_true_eq] at properties
  refine ⟨compiled, made, ?_⟩
  intro parser first edited second fresh
  have valid := @Store.valid_fromId 0
  have firstImage : (first.1.tree.root.erase, first.1.status, first.1.stats) = _ :=
    Parser.parse_fresh_eq valid (.ofString "(w)") []
  have freshImage : (fresh.1.tree.root.erase, fresh.1.status, fresh.1.stats) = _ :=
    Parser.parse_fresh_eq valid edited.1 []
  have secondImage : (second.1.tree.root.erase, second.1.status, second.1.stats) = _ :=
    Parser.parse_edited_new compiled.grammar (by decide) (by decide) nofun spans
  have start : Retyped compiled.grammar .standard first.2 first.1 (.ofString "(w)") :=
    .first (.new .standard 0) rfl (Text.wellFormed_ofString "(w)") uniform
      ((congrArg (fun outcome => outcome.2.1) firstImage).trans firstEnds)
  have turns : edited.2.Turns (.ofString "(w)") edited.1 :=
    Edit.turns_replace (by decide) (by decide) _
  have sameText : edited.1 = .ofString "( w)" :=
    congrArg Text.mk (ByteArray.ext (by decide +kernel))
  have wellFormed : edited.1.WellFormed := sameText ▸ Text.wellFormed_ofString "( w)"
  have retyped : Retyped compiled.grammar .standard second.2 second.1 edited.1 :=
    start.edit turns wellFormed editedUniform
      ((congrArg (fun outcome => outcome.2.1) secondImage).trans ends)
  have complete : fresh.1.status = .complete :=
    (congrArg (fun outcome => outcome.2.1) freshImage).trans freshEnds
  refine ⟨?_, Retyped.matches_fresh_parse made lowered properties.1 quiet properties.2 ahead retyped
    0 complete⟩
  rw [show second.1.stats = _ from congrArg (fun outcome => outcome.2.2) secondImage]
  exact reused

/-- Texts in which a word is followed by a letter that may be the beginning of another token. -/
def Description.hurried : Description :=
  ⟨"hurried", [("s", .choice [.seq [.symbol "a", .string "b", .string "c", .string "d"],
    .seq [.string "z", .symbol "a", .string "bc"]]), ("a", .seq [.string "x", .string "y"])],
    [], [], []⟩

/-- Tokens that depend on the state of the parser may not be those of a new parser behind a node
that is taken over. -/
theorem matches_fresh_parse_hurried_fails :
    ∃ compiled, Description.hurried.compile = .ok compiled ∧
      let parser := Parser.ofGrammar compiled.grammar none .standard 0
      let first := parser.parse (.ofString "xybcdd") none []
      let edited := Edit.replace (.ofString "xybcdd") ⟨5, 6⟩ (.ofString "")
      let second := first.2.parse edited.1 (some first.1.tree) [edited.2]
      let fresh := parser.parse edited.1 none []
      first.1.status = .complete ∧ second.1.status = .complete ∧ fresh.1.status = .complete ∧
        second.1.tree.root.errorCount = 0 ∧ fresh.1.tree.root.errorCount ≠ 0 ∧
        second.1.tree.root.alike fresh.1.tree.root = false := by
  have computed : (Description.hurried.compile.toOption.any fun compiled =>
      let lexer : Lexer := ⟨compiled.grammar, none⟩
      let edited := Edit.replace (.ofString "xybcdd") ⟨5, 6⟩ (.ofString "")
      let first := Parser.runJob (m := Id) ⟨lexer, .ofString "xybcdd"⟩ .standard none
      let image := first.1.afterEdit edited.2
      let second := Parser.runJob (m := Id) ⟨lexer, edited.1⟩ .standard (some (.ofRoot image))
      let fresh := Parser.runJob (m := Id) ⟨lexer, edited.1⟩ .standard none
      first.2.1 = .complete && image.length = edited.1.size && second.2.1 = .complete &&
        fresh.2.1 = .complete && second.1.errorCount = 0 && fresh.1.errorCount ≠ 0 &&
        !second.1.alike fresh.1) = true := by
    decide +kernel
  obtain ⟨compiled, made, facts⟩ := Except.exists_of_any computed
  simp only [Bool.and_eq_true, decide_eq_true_eq, Bool.not_eq_true'] at facts
  obtain ⟨⟨⟨⟨⟨⟨firstEnds, spans⟩, ends⟩, freshEnds⟩, clean⟩, errors⟩, differs⟩ := facts
  refine ⟨compiled, made, ?_⟩
  intro parser first edited second fresh
  have valid := @Store.valid_fromId 0
  have firstImage : (first.1.tree.root.erase, first.1.status, first.1.stats) = _ :=
    Parser.parse_fresh_eq valid (.ofString "xybcdd") []
  have freshImage : (fresh.1.tree.root.erase, fresh.1.status, fresh.1.stats) = _ :=
    Parser.parse_fresh_eq valid edited.1 []
  have secondImage : (second.1.tree.root.erase, second.1.status, second.1.stats) = _ :=
    Parser.parse_edited_new compiled.grammar (by decide) (by decide) nofun spans
  have secondRoot : second.1.tree.root.erase = _ := congrArg Prod.fst secondImage
  have freshRoot : fresh.1.tree.root.erase = _ := congrArg Prod.fst freshImage
  refine ⟨(congrArg (fun outcome => outcome.2.1) firstImage).trans firstEnds,
    (congrArg (fun outcome => outcome.2.1) secondImage).trans ends,
    (congrArg (fun outcome => outcome.2.1) freshImage).trans freshEnds, ?_, ?_, ?_⟩
  · rw [← Subtree.erase_errorCount, secondRoot]
    exact clean
  · rw [← Subtree.erase_errorCount, freshRoot]
    exact errors
  · rw [← Subtree.alike_erase, secondRoot, freshRoot]
    exact differs

end IncrementalGlr
