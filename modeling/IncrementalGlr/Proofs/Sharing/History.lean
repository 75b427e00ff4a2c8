import IncrementalGlr.Proofs.Coverage.Session
import IncrementalGlr.Proofs.Restart

/-!
# Full parses forget the past

Several parsers may be used side by side, each with trees of its own and of others, edited or built
by hand.  Whenever one of them gives up the earlier tree, its output is that of a new parser.
-/

namespace IncrementalGlr

namespace Subtree

mutual

@[simp]
theorem errorRanges_erase (start : Nat) (subtree : Subtree) :
    subtree.erase.errorRanges start = subtree.errorRanges start := by
  cases subtree with
  | mk data children => simp only [erase, errorRanges, errorRangesAll_erase start children]

@[simp]
theorem errorRangesAll_erase (start : Nat) (subtrees : List Subtree) :
    errorRangesAll start (eraseAll subtrees) = errorRangesAll start subtrees := by
  cases subtrees with
  | nil => rfl
  | cons child rest =>
      simp only [eraseAll, errorRangesAll, erase_storesErrors, erase_length,
        errorRanges_erase start child, errorRangesAll_erase (start + child.length) rest]

end

end Subtree

/-- The messages about a tree do not depend on ids. -/
theorem ParseOutput.diagnostics_ofTree {tree other : SyntaxTree}
    (same : tree.root.erase = other.root.erase) (text : Text) (status : ParseStatus)
    (stats otherStats : ParseStats) :
    (ofTree tree text status stats).diagnostics =
      (ofTree other text status otherStats).diagnostics := by
  have length : tree.length = other.length := by
    rw [SyntaxTree.length, ← Subtree.erase_length, same, Subtree.erase_length, SyntaxTree.length]
  have ranges : tree.errorRanges = other.errorRanges := by
    rw [SyntaxTree.errorRanges, ← Subtree.erase_storesErrors, ← Subtree.errorRanges_erase, same,
      Subtree.erase_storesErrors, Subtree.errorRanges_erase, SyntaxTree.errorRanges]
  unfold ofTree errors
  rw [length, ranges]

/-- There is nothing to be said about a tree without errors. -/
theorem ParseOutput.diagnostics_of_clean {tree : SyntaxTree} (clean : tree.root.errorCount = 0)
    (text : Text) (stats : ParseStats) : (ofTree tree text .complete stats).diagnostics = [] := by
  have none : tree.errorRanges = [] := by
    rw [SyntaxTree.errorRanges, if_neg (by simp [Subtree.storesErrors, Subtree.storedErrors, clean])]
  unfold ofTree errors
  rw [none]
  rfl

theorem Parser.parse_diagnostics (parser : Parser) (text : Text) (previous : Option SyntaxTree)
    (edits : List Edit) :
    let output := (parser.parse text previous edits).1
    output.diagnostics =
      (ParseOutput.ofTree output.tree text output.status output.stats).diagnostics := by
  unfold parse
  dsimp only
  generalize consider _ _ _ _ _ _ _ = considered
  obtain ⟨_ | _ | _, store⟩ := considered <;> rfl

namespace Store

/-- The store that goes on with an id. -/
def continueFrom (nextId : Nat) (store : Store) : Store := { store with nextId }

/-- A store goes on wherever ids are given for more subtrees. -/
theorem Valid.continueFrom {memory larger : Memory} {store other : Store}
    (valid : store.Valid memory) (grows : larger.Extends memory) (otherValid : other.Valid larger) :
    (store.continueFrom other.nextId).Valid larger := by
  refine ⟨otherValid.named, otherValid.closed, otherValid.original, otherValid.unknown, ?_, ?_⟩
  · intro key leaf found
    obtain ⟨known, rest⟩ := valid.leaves found
    exact ⟨known.mono grows, rest⟩
  · intro key node found
    obtain ⟨known, rest⟩ := valid.nodes found
    exact ⟨known.mono grows, rest⟩

end Store

/-- The parser that goes on with an id. -/
def Parser.continueFrom (nextId : Nat) (parser : Parser) : Parser :=
  { parser with store := parser.store.continueFrom nextId }

/-- All that may be at hand when parsers are used: the next id, the parsers and the trees.  No id is
given twice. -/
inductive History : Nat → List Parser → List SyntaxTree → Prop
  /-- Nothing has happened. -/
  | nothing : History 0 [] []
  /-- A parser is made. -/
  | new {nextId : Nat} {parsers : List Parser} {trees : List SyntaxTree} (grammar : Grammar)
      (external : Option ExternalScanner) (options : ParseOptions)
      (history : History nextId parsers trees) :
    History nextId (.ofGrammar grammar external options nextId :: parsers) trees
  /-- The options of a parser are set. -/
  | configure {nextId : Nat} {parsers : List Parser} {trees : List SyntaxTree} {parser : Parser}
      (options : ParseOptions) (history : History nextId parsers trees)
      (listed : parser ∈ parsers) : History nextId ({ parser with options } :: parsers) trees
  /-- A parser parses a text, perhaps with an earlier tree and edits of any kind. -/
  | parse {nextId : Nat} {parsers : List Parser} {trees : List SyntaxTree} {parser : Parser}
      (text : Text) (previous : Option SyntaxTree) (edits : List Edit)
      (history : History nextId parsers trees) (listed : parser ∈ parsers)
      (earlier : ∀ tree ∈ previous, tree ∈ trees) :
    History ((parser.continueFrom nextId).parse text previous edits).2.store.nextId
      (((parser.continueFrom nextId).parse text previous edits).2 :: parsers)
      (((parser.continueFrom nextId).parse text previous edits).1.tree :: trees)
  /-- A tree is edited; the changed copies get the next ids. -/
  | edit {nextId : Nat} {parsers : List Parser} {trees : List SyntaxTree} (tree : SyntaxTree)
      (edit : Edit) (history : History nextId parsers trees) (listed : tree ∈ trees) :
    History (tree.edit edit nextId).2.2 parsers ((tree.edit edit nextId).1 :: trees)
  /-- A token is made by hand. -/
  | leaf {nextId : Nat} {parsers : List Parser} {trees : List SyntaxTree} (grammar : Grammar)
      (spec : LeafSpec) (history : History nextId parsers trees) :
    History (nextId + 1) parsers (⟨.ofLeaf nextId spec, grammar⟩ :: trees)
  /-- A node is made by hand. -/
  | node {nextId : Nat} {parsers : List Parser} {trees : List SyntaxTree} (grammar : Grammar)
      (spec : NodeSpec) (children : List SyntaxTree) (history : History nextId parsers trees)
      (listed : ∀ child ∈ children, child ∈ trees) :
    History (nextId + 1) parsers
      (⟨.ofChildren nextId spec (children.map SyntaxTree.root), grammar⟩ :: trees)
  /-- A part of a tree is taken. -/
  | part {nextId : Nat} {parsers : List Parser} {trees : List SyntaxTree} {tree : SyntaxTree}
      {child : Subtree} (history : History nextId parsers trees) (listed : tree ∈ trees)
      (below : child ∈ tree.root.children) :
    History nextId parsers (⟨child, tree.grammar⟩ :: trees)

namespace History

variable {nextId : Nat} {parsers : List Parser} {trees : List SyntaxTree}

/-- Whether ids tell all subtrees at hand apart, and the stores of all parsers are valid. -/
def Coherent (nextId : Nat) (parsers : List Parser) (trees : List SyntaxTree) : Prop :=
  ∃ memory : Memory, (Store.fromId nextId).Valid memory ∧
    (∀ parser ∈ parsers, (parser.store.continueFrom nextId).Valid memory) ∧
    ∀ tree ∈ trees, memory.Knows tree.root

/-- A subtree that is made by hand does no harm. -/
theorem Coherent.learn (coherent : Coherent nextId parsers trees) (grammar : Grammar)
    {subtree : Subtree} (fresh : subtree.id = nextId) (original : subtree.IsOriginal)
    (children : ∀ child ∈ subtree.children, ∃ tree ∈ trees, child = tree.root) :
    Coherent (nextId + 1) parsers (⟨subtree, grammar⟩ :: trees) := by
  obtain ⟨memory, unused, stores, known⟩ := coherent
  have learned := unused.learn fresh (fun child member => by
    obtain ⟨tree, listed, rfl⟩ := children child member
    exact known tree listed) fun _ => original
  have grows := Memory.learn_extends (unused.unknown fresh.ge)
  exact ⟨memory.learn subtree, learned,
    fun parser listed => (stores parser listed).continueFrom grows learned,
    List.forall_mem_cons.2 ⟨memory.knows_learn subtree,
      fun tree listed => (known tree listed).mono grows⟩⟩

theorem coherent (history : History nextId parsers trees) : Coherent nextId parsers trees := by
  induction history with
  | nothing => exact ⟨_, Store.valid_fromId 0, nofun, nofun⟩
  | new grammar external options history induction =>
      obtain ⟨memory, unused, stores, known⟩ := induction
      exact ⟨memory, unused, List.forall_mem_cons.2 ⟨unused, stores⟩, known⟩
  | configure options history listed induction =>
      obtain ⟨memory, unused, stores, known⟩ := induction
      have same := stores _ listed
      exact ⟨memory, unused, List.forall_mem_cons.2 ⟨same, stores⟩, known⟩
  | @parse nextId parsers trees parser text previous edits history listed earlier induction =>
      obtain ⟨memory, unused, stores, known⟩ := induction
      obtain ⟨larger, grows, parsedValid, parsedKnown, -⟩ := @Parser.parse_mirrors memory
        (parser.continueFrom nextId) (stores parser listed) previous
        (fun tree member => known tree (earlier tree member)) text edits
      refine ⟨larger, unused.continueFrom grows parsedValid, List.forall_mem_cons.2
        ⟨parsedValid, fun other member => (stores other member).continueFrom grows parsedValid⟩,
        List.forall_mem_cons.2 ⟨parsedKnown, fun tree member => (known tree member).mono grows⟩⟩
  | edit tree edit history listed induction =>
      obtain ⟨memory, unused, stores, known⟩ := induction
      obtain ⟨larger, grows, editedValid, editedKnown, -⟩ :=
        SyntaxTree.edit_valid unused (known tree listed) edit
      exact ⟨larger, editedValid,
        fun other member => (stores other member).continueFrom grows editedValid,
        List.forall_mem_cons.2 ⟨editedKnown, fun tree member => (known tree member).mono grows⟩⟩
  | leaf grammar spec history induction =>
      exact induction.learn grammar rfl (.inl ⟨spec, rfl⟩) nofun
  | node grammar spec children history listed induction =>
      refine induction.learn grammar rfl (.inr ⟨spec, rfl⟩) fun child member => ?_
      obtain ⟨tree, inside, rfl⟩ := List.mem_map.1 member
      exact ⟨tree, listed tree inside, rfl⟩
  | part history listed below induction =>
      obtain ⟨memory, unused, stores, known⟩ := induction
      exact ⟨memory, unused, stores, List.forall_mem_cons.2
        ⟨unused.closed (known _ listed) _ below, known⟩⟩

/-- Whatever has happened before, a parse is a run over erased subtrees, unless the earlier tree fits
as it is. -/
theorem parse_outcome (history : History nextId parsers trees) {parser : Parser}
    (listed : parser ∈ parsers) (text : Text) {previous : Option SyntaxTree}
    (earlier : ∀ tree ∈ previous, tree ∈ trees) (edits : List Edit) :
    let output := ((parser.continueFrom nextId).parse text previous edits).1
    (∃ tree, previous = some tree ∧ tree.length = text.size ∧ output.tree = tree ∧
      output.stats = .none) ∨
      ∃ reuse : Option Subtree,
        (∀ root ∈ reuse, root.length = text.size ∧
          ∃ tree, previous = some tree ∧ root = Parser.afterEdits edits tree.root.erase) ∧
          (output.tree.root.erase, output.status, output.stats) =
            Parser.runJob (m := Id) ⟨⟨parser.grammar, parser.external⟩, text⟩ parser.options
              (reuse.map ReuseCursor.ofRoot) := by
  obtain ⟨memory, -, stores, known⟩ := history.coherent
  obtain ⟨-, -, -, -, outcome⟩ := @Parser.parse_mirrors memory (parser.continueFrom nextId)
    (stores parser listed) previous (fun tree member => known tree (earlier tree member)) text edits
  exact outcome

/-- Whatever has happened before, and whatever tree and edits are given: if a parse comes to its end
and reports that it did without the earlier tree, be it refused at once or given up after an error,
then up to ids the tree is that of a new parser, and the messages and the status are the same.  A
parse without limits does not return before its end. -/
theorem full_parse_forgets (history : History nextId parsers trees) {parser : Parser}
    (listed : parser ∈ parsers) (text : Text) {previous : Option SyntaxTree}
    (earlier : ∀ tree ∈ previous, tree ∈ trees) (edits : List Edit) (reuse : Bool) (otherId : Nat) :
    let output := ((parser.continueFrom nextId).parse text previous edits).1
    let new := Parser.ofGrammar parser.grammar parser.external { parser.options with reuse } otherId
    let fresh := (new.parse text none []).1
    output.status = .complete → output.stats.full = true →
      output.tree.root.erase = fresh.tree.root.erase ∧
        output.diagnostics = fresh.diagnostics ∧ output.status = fresh.status := by
  intro output new fresh complete full
  have freshImage := @Parser.parse_fresh_eq _ new (Store.valid_fromId otherId) text []
  rcases history.parse_outcome listed text earlier edits with
    ⟨tree, rfl, -, -, idle⟩ | ⟨used, -, image⟩
  · rw [show output.stats = .none from idle] at full
    cases full
  · have outputStatus : output.status = _ := congrArg (fun outcome => outcome.2.1) image
    have outputStats : output.stats = _ := congrArg (fun outcome => outcome.2.2) image
    obtain ⟨root, status⟩ := Parser.runJob_full (outputStatus.symm.trans complete)
      (outputStats ▸ full)
    have sameStatus : output.status = fresh.status :=
      complete.trans (status.symm.trans (congrArg (fun outcome => outcome.2.1) freshImage).symm)
    have sameRoot : output.tree.root.erase = fresh.tree.root.erase :=
      (congrArg Prod.fst image).trans (root.symm.trans (congrArg Prod.fst freshImage).symm)
    refine ⟨sameRoot, ?_, sameStatus⟩
    rw [show output.diagnostics = _ from Parser.parse_diagnostics .., sameStatus,
      ParseOutput.diagnostics_ofTree sameRoot]
    exact (Parser.parse_diagnostics ..).symm

end History

/-- When the closing bracket of a text is deleted, the tree of the text is given up after an error,
and the output is that of a new parser. -/
theorem full_parse_forgets_bracketed :
    ∃ compiled, Description.bracketed.compile = .ok compiled ∧
      let parser := Parser.ofGrammar compiled.grammar none .standard 0
      let first := parser.parse (.ofString "(w)") none []
      let second := first.2.parse (.ofString "(w") (some first.1.tree) [.ofOffsets 2 3 2]
      let fresh := parser.parse (.ofString "(w") none []
      second.1.status = .complete ∧ second.1.stats.full = true ∧
        second.1.tree.root.erase = fresh.1.tree.root.erase := by
  have computed : (Description.bracketed.compile.toOption.any fun compiled =>
      let first : ParseJob := ⟨⟨compiled.grammar, none⟩, .ofString "(w)"⟩
      let second : ParseJob := ⟨⟨compiled.grammar, none⟩, .ofString "(w"⟩
      let root := (Parser.runJob (m := Id) first .standard none).1
      let edited := Parser.afterEdits [.ofOffsets 2 3 2] root
      let fresh := Parser.runJob (m := Id) second .standard none
      let image := Parser.runJob (m := Id) second .standard (some (.ofRoot edited))
      root.length = 3 && fresh.2.1 = .complete && fresh.2.2.full && image.2.1 = .complete &&
        image.2.2.full) = true := by
    decide +kernel
  obtain ⟨compiled, made, facts⟩ := Except.exists_of_any computed
  simp only [Bool.and_eq_true, decide_eq_true_eq] at facts
  obtain ⟨⟨⟨⟨length, freshEnds⟩, freshFull⟩, ends⟩, full⟩ := facts
  refine ⟨compiled, made, ?_⟩
  have started := History.nothing.new compiled.grammar none .standard
  have history := started.parse (.ofString "(w)") none [] List.mem_cons_self nofun
  rw [show (Parser.ofGrammar compiled.grammar none .standard 0).continueFrom 0 =
    .ofGrammar compiled.grammar none .standard 0 from rfl] at history
  have firstImage := @Parser.parse_fresh_eq _ (.ofGrammar compiled.grammar none .standard 0)
    (Store.valid_fromId 0) (.ofString "(w)") []
  have grammar := (Parser.ofGrammar compiled.grammar none .standard 0).parse_grammar
    (.ofString "(w)") none []
  have external := (Parser.ofGrammar compiled.grammar none .standard 0).parse_external
    (.ofString "(w)") none []
  have options := (Parser.ofGrammar compiled.grammar none .standard 0).parse_options
    (.ofString "(w)") none []
  dsimp only at firstImage ⊢
  generalize (Parser.ofGrammar compiled.grammar none .standard 0).parse (.ofString "(w)") none [] =
    first at *
  have given : ∀ tree ∈ some first.1.tree, tree ∈ [first.1.tree] := fun tree same =>
    List.mem_singleton.2 (Option.some.inj same).symm
  have firstRoot : first.1.tree.root.erase = _ := congrArg Prod.fst firstImage
  have outcome := history.parse_outcome List.mem_cons_self (.ofString "(w") given [.ofOffsets 2 3 2]
  have forgets := history.full_parse_forgets List.mem_cons_self (.ofString "(w") given
    [.ofOffsets 2 3 2] true 0
  rw [show first.2.continueFrom first.2.store.nextId = first.2 from rfl, grammar, external,
    options] at outcome forgets
  have reported : (first.2.parse (.ofString "(w") (some first.1.tree) [.ofOffsets 2 3 2]).1.status =
      .complete ∧
      (first.2.parse (.ofString "(w") (some first.1.tree) [.ofOffsets 2 3 2]).1.stats.full =
        true := by
    rcases outcome with ⟨tree, same, short, -⟩ | ⟨used, offered, image⟩
    · obtain rfl := Option.some.inj same
      rw [SyntaxTree.length, ← Subtree.erase_length, firstRoot] at short
      exact absurd (length.symm.trans short) (by decide)
    · cases used with
      | none =>
          exact ⟨(congrArg (fun outcome => outcome.2.1) image).trans freshEnds,
            (congrArg (fun outcome => outcome.2.2.full) image).trans freshFull⟩
      | some root =>
          obtain ⟨-, tree, same, rfl⟩ := offered root rfl
          obtain rfl := Option.some.inj same
          rw [firstRoot] at image
          exact ⟨(congrArg (fun outcome => outcome.2.1) image).trans ends,
            (congrArg (fun outcome => outcome.2.2.full) image).trans full⟩
  exact ⟨reported.1, reported.2, (forgets reported.1 reported.2).1⟩

end IncrementalGlr
