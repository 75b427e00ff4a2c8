import IncrementalGlr.Proofs.Coverage.Parse
import IncrementalGlr.Proofs.Lalr.Bounds
import IncrementalGlr.Proofs.Sharing.Session

/-!
# Every tree covers its text

Compiled grammars keep the end of the input apart from all other symbols.  So whatever happens to a
parser, the trees that it returns are exactly as long as the texts, and so are all nodes in them as
their children.
-/

namespace IncrementalGlr

namespace Grammar.ComesFrom

variable {grammar : Grammar} {plain : PlainGrammar} {table : Lalr.Table}
  {automaton : Lalr.Automaton}

theorem endFree (comes : grammar.ComesFrom plain table) (made : table.MadeFrom plain automaton) :
    Lexer.EndFree grammar := by
  have loaded := comes.loaded
  constructor
  case rules => exact loaded.lexRule_ne
  case patterns => exact loaded.length_patterns
  case valid =>
    intro lexState
    have never : ∀ symbols : List Symbol, .endOfInput ∉ symbols →
        (SymbolSet.ofList symbols).contains .endOfInput = false := by
      intro symbols absent
      rw [Bool.eq_false_iff]
      exact fun present => absent (SymbolSet.contains_ofList.1 present)
    unfold validSymbols
    split
    · rw [loaded.allTerminals]
      refine never _ fun member => ?_
      obtain ⟨index, listed, isEnd⟩ := List.mem_map.1 member
      rw [List.tail_range, List.mem_range'_1] at listed
      have bound := grammar.data.terminalCount.toNat_lt
      exact Symbol.ofIndex_ne_endOfInput (by omega) (by omega) isEnd
    · rw [loaded.validTable, List.getElem?_toArray, List.getElem?_map]
      cases found : grammar.data.lexStates[lexState.index]? with
      | none => rfl
      | some valid =>
          refine never valid ?_
          rw [comes.lexStates] at found
          exact fun listed =>
            (made.lexical.terminals valid (List.mem_of_getElem? found) _ listed).1 rfl

/-- A compiled grammar keeps the end of the input apart. -/
theorem endReserved (comes : grammar.ComesFrom plain table)
    (made : table.MadeFrom plain automaton) : grammar.EndReserved where
  lexer := comes.endFree made
  start := comes.loaded.sound.nonterminal_ne comes.loaded.sound.start
  shift {state next} member := by
    obtain ⟨⟨production, dot, advanced⟩, origin⟩ := (comes.recognizes made).shift member
    exact (comes.sound.called_inner (origin advanced).2).1 rfl
  reduce {state symbol production} member := by
    have stored := comes.loaded.reduce_listed member
    exact comes.loaded.sound.nonterminal_ne
      (comes.loaded.sound.productions _ (List.mem_of_getElem? stored))
  accept member := ((comes.recognizes made).accept member).1

end Grammar.ComesFrom

/-- A compiled grammar keeps the end of the input apart. -/
theorem Description.compile_endReserved {description : Description} {compiled : Compiled}
    (made : description.compile = .ok compiled) : compiled.grammar.EndReserved := by
  obtain ⟨plain, table, -, comes⟩ := Description.compile_comesFrom made
  obtain ⟨automaton, madeFrom⟩ := Lalr.Table.madeFrom_of_ofGrammar comes.sound comes.built
  exact comes.endReserved madeFrom

/-- The tree of a parse that may take over parts of a whole tree, which is as long as the text, is
whole and as long as the text. -/
theorem Parser.runJob_whole_of_root {job : ParseJob} (inside : job.StaysInside)
    (options : ParseOptions) {reuse : Option Subtree}
    (offered : ∀ root ∈ reuse, root.length = job.text.size ∧ root.IsWhole) :
    (runJob (m := Id) job options (reuse.map ReuseCursor.ofRoot)).1.IsWhole ∧
      (runJob (m := Id) job options (reuse.map ReuseCursor.ofRoot)).1.length = job.text.size := by
  refine runJob_whole inside options fun cursor member node pending => ?_
  obtain ⟨root, rootMember, rfl⟩ := Option.map_eq_some_iff.1 member
  obtain rfl := List.mem_singleton.1 pending
  obtain ⟨length, whole⟩ := offered root rootMember
  exact ⟨whole, by rw [Nat.zero_add]; exact length.le⟩

/-- Edits keep trees whole. -/
theorem Subtree.IsWhole.afterEdit {root : Subtree} (whole : root.IsWhole) (edit : Edit) :
    (root.afterEdit edit).IsWhole := ⟨whole.1.afterEdit edit, whole.2.afterEdit edit⟩

/-- Whatever happens to a parser of a compiled grammar, the trees that it has made are whole, and so
is that of the next parse, which is as long as the text. -/
theorem Session.parse_whole {description : Description} {compiled : Compiled}
    (made : description.compile = .ok compiled) {external : Option ExternalScanner}
    (inside : ∀ scanner ∈ external, ExternalScanner.StaysInside scanner) {parser : Parser}
    {trees : List SyntaxTree} (session : Session compiled.grammar external parser trees)
    (text : Text) {previous : Option SyntaxTree} (earlier : ∀ tree ∈ previous, tree ∈ trees)
    (edits : List Edit) :
    (parser.parse text previous edits).1.tree.root.erase.IsWhole ∧
      (parser.parse text previous edits).1.tree.length = text.size := by
  have stays : ∀ text, ParseJob.StaysInside ⟨⟨compiled.grammar, external⟩, text⟩ :=
    fun _ => ⟨Description.compile_endReserved made, inside⟩
  have edited : ∀ root edit, Subtree.IsWhole root → (Subtree.afterEdit edit root).IsWhole :=
    fun _ edit whole => whole.afterEdit edit
  have whole : ∀ tree ∈ trees, tree.root.erase.IsWhole :=
    session.forall_root edited fun text options _ offered =>
      (Parser.runJob_whole_of_root (stays text) options offered).1
  rcases session.parse_outcome edited whole text earlier edits with
    ⟨tree, older, length, same⟩ | ⟨reuse, stats, offered, -, same⟩
  · rw [same]
    exact ⟨whole tree older, length⟩
  · obtain ⟨rootWhole, rootLength⟩ :=
      Parser.runJob_whole_of_root (stays text) parser.options offered
    have root : (parser.parse text previous edits).1.tree.root.erase = _ := congrArg Prod.fst same
    rw [← root] at rootWhole rootLength
    exact ⟨rootWhole, (Subtree.erase_length _).symm.trans rootLength⟩

/-- Texts that are a word or a word in brackets. -/
def Description.bracketed : Description :=
  ⟨"bracketed", [("text", .choice [.symbol "word", .seq [.string "(", .symbol "word", .string ")"]]),
    ("word", .string "w")], [.string " "], [], []⟩

end IncrementalGlr
