import IncrementalGlr.Proofs.Sharing.History

/-!
# Trees of several parsers cover their texts

Parsers of compiled grammars may take over parts of each other's trees, and of trees that are built
by hand.  As long as nobody makes a token by hand that stands for the end of the input, the tree of
each parse is as long as the text.
-/

namespace IncrementalGlr

/-- All edits together keep a tree whole. -/
theorem Subtree.IsWhole.afterEdits {root : Subtree} (whole : root.IsWhole) (edits : List Edit) :
    (Parser.afterEdits edits root).IsWhole :=
  List.foldlRecOn _ _ whole fun _ whole edit _ => whole.afterEdit edit

namespace History

/-- Whether all parsers at hand are of compiled grammars and have scanners that stay inside the
texts, and no tree at hand is nothing but the end of the input.  A reused token that stands for the
end of the input would be taken for the end of the text. -/
structure Orderly (parsers : List Parser) (trees : List SyntaxTree) : Prop where
  /-- The grammars are compiled. -/
  compiled : ∀ parser ∈ parsers, ∃ description compiled,
    Description.compile description = .ok compiled ∧ parser.grammar = compiled.grammar
  /-- The tokens of the scanners lie inside the texts. -/
  inside : ∀ parser ∈ parsers, ∀ scanner ∈ parser.external, ExternalScanner.StaysInside scanner
  /-- No tree is the end of the input. -/
  notEnd : ∀ tree ∈ trees, tree.root.symbol ≠ .endOfInput

variable {nextId : Nat} {parsers : List Parser} {trees : List SyntaxTree} {parser : Parser}
  {tree : SyntaxTree}

namespace Orderly

theorem fewerParsers (orderly : Orderly (parser :: parsers) trees) : Orderly parsers trees :=
  ⟨(List.forall_mem_cons.1 orderly.compiled).2, (List.forall_mem_cons.1 orderly.inside).2,
    orderly.notEnd⟩

theorem fewerTrees (orderly : Orderly parsers (tree :: trees)) : Orderly parsers trees :=
  ⟨orderly.compiled, orderly.inside, (List.forall_mem_cons.1 orderly.notEnd).2⟩

theorem staysInside (orderly : Orderly parsers trees) (listed : parser ∈ parsers) (text : Text) :
    ParseJob.StaysInside ⟨⟨parser.grammar, parser.external⟩, text⟩ := by
  obtain ⟨description, compiled, made, grammar⟩ := orderly.compiled parser listed
  exact ⟨grammar ▸ Description.compile_endReserved made, orderly.inside parser listed⟩

/-- One more whole tree changes nothing. -/
theorem moreTrees (orderly : Orderly parsers trees) (whole : tree.root.erase.IsWhole) :
    Orderly parsers (tree :: trees) := by
  refine ⟨orderly.compiled, orderly.inside, List.forall_mem_cons.2 ⟨?_, orderly.notEnd⟩⟩
  rw [← Subtree.erase_symbol]
  exact whole.2.symbol

end Orderly

/-- If the trees at hand are whole, so is that of the next parse, which is as long as the text. -/
theorem whole_of_parse (history : History nextId parsers trees) (listed : parser ∈ parsers)
    {text : Text} (stays : ParseJob.StaysInside ⟨⟨parser.grammar, parser.external⟩, text⟩)
    (whole : ∀ tree ∈ trees, tree.root.erase.IsWhole) {previous : Option SyntaxTree}
    (earlier : ∀ tree ∈ previous, tree ∈ trees) (edits : List Edit) :
    let tree := ((parser.continueFrom nextId).parse text previous edits).1.tree
    tree.root.erase.IsWhole ∧ tree.length = text.size := by
  intro tree
  rcases history.parse_outcome listed text earlier edits with
    ⟨old, rfl, length, same, -⟩ | ⟨reuse, offered, image⟩
  · rw [show tree = old from same]
    exact ⟨whole old (earlier old rfl), length⟩
  · have root : tree.root.erase = _ := congrArg Prod.fst image
    have covers := Parser.runJob_whole_of_root stays parser.options fun root member => by
      obtain ⟨length, old, rfl, rfl⟩ := offered root member
      exact ⟨length, (whole old (earlier old rfl)).afterEdits edits⟩
    rw [← root] at covers
    exact ⟨covers.1, (Subtree.erase_length _).symm.trans covers.2⟩

/-- An edit keeps a tree at hand whole. -/
theorem whole_of_edit (history : History nextId parsers trees) (listed : tree ∈ trees)
    (whole : tree.root.erase.IsWhole) (edit : Edit) :
    (tree.edit edit nextId).1.root.erase.IsWhole := by
  obtain ⟨memory, unused, -, known⟩ := history.coherent
  obtain ⟨-, -, -, -, erased, -⟩ := SyntaxTree.edit_valid unused (known tree listed) edit
  rw [show (tree.edit edit nextId).1.root.erase = _ from erased]
  exact whole.afterEdit edit

/-- All trees at hand are whole up to ids. -/
theorem whole (history : History nextId parsers trees) (orderly : Orderly parsers trees) :
    ∀ tree ∈ trees, tree.root.erase.IsWhole := by
  induction history with
  | nothing => exact fun tree none => absurd none List.not_mem_nil
  | new grammar external options history induction => exact induction orderly.fewerParsers
  | configure options history listed induction => exact induction orderly.fewerParsers
  | parse text previous edits history listed earlier induction =>
      have before := orderly.fewerParsers.fewerTrees
      have older := induction before
      exact List.forall_mem_cons.2 ⟨(history.whole_of_parse listed
        (before.staysInside listed text) older earlier edits).1, older⟩
  | edit tree edit history listed induction =>
      have older := induction orderly.fewerTrees
      exact List.forall_mem_cons.2 ⟨history.whole_of_edit listed (older tree listed) edit, older⟩
  | leaf grammar spec history induction =>
      refine List.forall_mem_cons.2 ⟨?_, induction orderly.fewerTrees⟩
      rw [Subtree.erase_ofLeaf]
      exact Subtree.isWhole_ofLeaf (List.forall_mem_cons.1 orderly.notEnd).1
  | node grammar spec children history listed induction =>
      have older := induction orderly.fewerTrees
      refine List.forall_mem_cons.2 ⟨?_, older⟩
      rw [Subtree.erase_ofChildren]
      refine Subtree.isWhole_ofChildren (List.forall_mem_cons.1 orderly.notEnd).1
        fun child member => ?_
      rw [List.map_map] at member
      obtain ⟨tree, inside, rfl⟩ := List.mem_map.1 member
      exact older tree (listed tree inside)
  | part history listed below induction =>
      have older := induction orderly.fewerTrees
      refine List.forall_mem_cons.2 ⟨(older _ listed).child _ ?_, older⟩
      rw [Subtree.erase_children]
      exact List.mem_map_of_mem below

/-- Whatever has happened before, and whatever tree and edits are given, the tree of a parse is
whole and as long as the text. -/
theorem parse_whole (history : History nextId parsers trees) (orderly : Orderly parsers trees)
    (listed : parser ∈ parsers) (text : Text) {previous : Option SyntaxTree}
    (earlier : ∀ tree ∈ previous, tree ∈ trees) (edits : List Edit) :
    let tree := ((parser.continueFrom nextId).parse text previous edits).1.tree
    tree.root.erase.IsWhole ∧ tree.length = text.size :=
  history.whole_of_parse listed (orderly.staysInside listed text) (history.whole orderly) earlier
    edits

/-- What parsers return never is the end of the input, so a parse leaves things orderly. -/
theorem orderly_parse (history : History nextId parsers trees) (orderly : Orderly parsers trees)
    (listed : parser ∈ parsers) (text : Text) {previous : Option SyntaxTree}
    (earlier : ∀ tree ∈ previous, tree ∈ trees) (edits : List Edit) :
    let result := (parser.continueFrom nextId).parse text previous edits
    Orderly (result.2 :: parsers) (result.1.tree :: trees) := by
  intro result
  have grammar : result.2.grammar = parser.grammar := Parser.parse_grammar ..
  have external : result.2.external = parser.external := Parser.parse_external ..
  have further : Orderly (result.2 :: parsers) trees :=
    ⟨List.forall_mem_cons.2 ⟨grammar ▸ orderly.compiled parser listed, orderly.compiled⟩,
      List.forall_mem_cons.2 ⟨external ▸ orderly.inside parser listed, orderly.inside⟩,
      orderly.notEnd⟩
  exact further.moreTrees (history.parse_whole orderly listed text earlier edits).1

/-- An edit leaves things orderly. -/
theorem orderly_edit (history : History nextId parsers trees) (orderly : Orderly parsers trees)
    (listed : tree ∈ trees) (edit : Edit) :
    Orderly parsers ((tree.edit edit nextId).1 :: trees) :=
  orderly.moreTrees (history.whole_of_edit listed (history.whole orderly tree listed) edit)

/-- A history in which no tree is made by hand: every tree is returned by a parser of a compiled
grammar, whose scanner stays inside the texts, or comes of editing such a tree. -/
inductive ByParsers : Nat → List Parser → List SyntaxTree → Prop
  /-- Nothing has happened. -/
  | nothing : ByParsers 0 [] []
  /-- A parser is made. -/
  | new {nextId : Nat} {parsers : List Parser} {trees : List SyntaxTree} {description : Description}
      {compiled : Compiled} {external : Option ExternalScanner} (options : ParseOptions)
      (history : ByParsers nextId parsers trees) (made : description.compile = .ok compiled)
      (inside : ∀ scanner ∈ external, ExternalScanner.StaysInside scanner) :
    ByParsers nextId (.ofGrammar compiled.grammar external options nextId :: parsers) trees
  /-- The options of a parser are set. -/
  | configure {nextId : Nat} {parsers : List Parser} {trees : List SyntaxTree} {parser : Parser}
      (options : ParseOptions) (history : ByParsers nextId parsers trees)
      (listed : parser ∈ parsers) : ByParsers nextId ({ parser with options } :: parsers) trees
  /-- A parser parses a text, perhaps with an earlier tree and edits of any kind. -/
  | parse {nextId : Nat} {parsers : List Parser} {trees : List SyntaxTree} {parser : Parser}
      (text : Text) (previous : Option SyntaxTree) (edits : List Edit)
      (history : ByParsers nextId parsers trees) (listed : parser ∈ parsers)
      (earlier : ∀ tree ∈ previous, tree ∈ trees) :
    ByParsers ((parser.continueFrom nextId).parse text previous edits).2.store.nextId
      (((parser.continueFrom nextId).parse text previous edits).2 :: parsers)
      (((parser.continueFrom nextId).parse text previous edits).1.tree :: trees)
  /-- A tree is edited. -/
  | edit {nextId : Nat} {parsers : List Parser} {trees : List SyntaxTree} (tree : SyntaxTree)
      (edit : Edit) (history : ByParsers nextId parsers trees) (listed : tree ∈ trees) :
    ByParsers (tree.edit edit nextId).2.2 parsers ((tree.edit edit nextId).1 :: trees)

/-- Without trees made by hand all is orderly. -/
theorem ByParsers.orderly (byParsers : ByParsers nextId parsers trees) :
    History nextId parsers trees ∧ Orderly parsers trees := by
  induction byParsers with
  | nothing =>
      have none {α : Type} {holds : α → Prop} : ∀ value ∈ ([] : List α), holds value :=
        fun value listed => absurd listed List.not_mem_nil
      exact ⟨.nothing, none, none, none⟩
  | new options byParsers made inside induction =>
      obtain ⟨history, orderly⟩ := induction
      exact ⟨history.new _ _ options,
        List.forall_mem_cons.2 ⟨⟨_, _, made, rfl⟩, orderly.compiled⟩,
        List.forall_mem_cons.2 ⟨inside, orderly.inside⟩, orderly.notEnd⟩
  | @configure nextId parsers trees parser options byParsers listed induction =>
      obtain ⟨history, orderly⟩ := induction
      exact ⟨history.configure options listed,
        List.forall_mem_cons.2 ⟨orderly.compiled parser listed, orderly.compiled⟩,
        List.forall_mem_cons.2 ⟨orderly.inside parser listed, orderly.inside⟩, orderly.notEnd⟩
  | parse text previous edits byParsers listed earlier induction =>
      obtain ⟨history, orderly⟩ := induction
      exact ⟨history.parse text previous edits listed earlier,
        history.orderly_parse orderly listed text earlier edits⟩
  | edit tree edit byParsers listed induction =>
      obtain ⟨history, orderly⟩ := induction
      exact ⟨history.edit tree edit listed, history.orderly_edit orderly listed edit⟩

end History

end IncrementalGlr
