import IncrementalGlr.Proofs.Coverage.Session
import IncrementalGlr.Proofs.Edits.Unchanged
import IncrementalGlr.Proofs.Errors.Recovery

/-!
# Merged errors in trees

In the trees of a compiled grammar error nodes stand side by side nowhere below the root.  Among the
children of the root they may do so once, if all of these are extras.  And error nodes are flat: they
are extras, and none of them is a child of another one.
-/

namespace IncrementalGlr

open Subtree

/-!
## Parses merge errors

A reduction never begins or ends its children with an error, because errors are extras.  So every
move of a version leaves error nodes apart.  The extras around an accepted root are taken into it;
only if the root has no children of its own do those before it meet those after it.
-/

namespace ParseRun

variable {job : ParseJob} {version : Version} {lookahead : Lookahead}

theorem pushLeaf_keepsApart (grammar : Grammar) (next : StateId) (extra : Bool)
    (row : Row version.stack.subtrees) (correct : lookahead.Correct)
    (notError : lookahead.symbol ≠ .error) :
    Version.KeepsApart (pushLeaf (m := Id) grammar version lookahead next extra) := by
  have leaf : Merged (leafOf (m := Id) grammar version.state extra lookahead) ∧
      (leafOf (m := Id) grammar version.state extra lookahead).isError = false := by
    cases lookahead with
    | token found lexState => exact ⟨merged_ofLeaf _, decide_eq_false notError⟩
    | reused part => exact correct
  exact ⟨(ParseStack.subtrees_cons _ _).symm ▸ row.concat leaf.1 leaf.2, nofun⟩

/-- A node that is no error keeps everything on the stack apart. -/
theorem reduce_keepsApart {grammar : Grammar} (apart : version.KeepsApart)
    {production : ProductionId} {fragile : Bool} {reduced : Version}
    (left : (grammar.production production).lhs ≠ .error)
    (result : reduce (m := Id) grammar version production fragile = some reduced) :
    reduced.KeepsApart := by
  unfold reduce at result
  dsimp only at result
  split at result
  · cases result
  · next children trailing below taken =>
      split at result
      · cases result
      · next next goto =>
          obtain rfl := Option.some.inj result
          have parts := ParseStack.takeChildren_subtrees taken
          obtain ⟨first, last⟩ := ParseStack.takeFrom_ends taken (fun _ => nofun) nofun
          obtain ⟨row, lookahead⟩ := apart
          rw [← parts] at row
          have under := row.part (List.infix_append below.subtrees children trailing)
          have plain : ∀ child ∈ children, child.isExtra = false → ¬ child.IsErrorNode :=
            fun child member plain error =>
              absurd ((under.merged child member).here.loose error) (by simp [plain])
          have before := row.part ((List.prefix_append below.subtrees children).trans
            (List.prefix_append ..)).isInfix
          have pushed (spec : NodeSpec) (correct : spec.error = false) :
              Row (below.subtrees ++ [.ofChildren 0 spec children] ++ trailing) := by
            have node : (Subtree.ofChildren 0 spec children).Merged :=
              merged_ofChildren correct under.apart
                (fun child found => plain child (List.mem_of_mem_head? found) (first child found))
                (fun child found => plain child (List.mem_of_mem_getLast? found) (last child found))
                under.merged
            have own : (Subtree.ofChildren 0 spec children).isError = false := correct
            refine (before.concat node own).append
              (row.part (List.suffix_append ..).isInfix) fun top member next _ both => ?_
            rw [List.getLast?_concat] at member
            cases member
            exact not_isErrorNode_of_isError_eq_false own both.1
          refine ⟨?_, lookahead⟩
          rw [ParseStack.subtrees_pushAll, ParseStack.subtrees_cons]
          exact pushed _ (decide_eq_false left)

/-- Behind the only subtree that is no extra there are only extras. -/
theorem extra_of_filter {subtrees : List Subtree} {root : Subtree}
    (only : subtrees.filter (fun subtree => !subtree.isExtra) = [root]) :
    ∀ subtree ∈ (subtrees.dropWhile Subtree.isExtra).tail, subtree.isExtra = true := by
  have parts := ParseStack.split_of_filter only
  have plain := (List.mem_filter.1 (only ▸ List.mem_singleton_self root)).2
  have leading : (subtrees.takeWhile Subtree.isExtra).filter (fun subtree => !subtree.isExtra) =
      [] := List.filter_eq_nil_iff.2 fun subtree member => by simp [List.mem_takeWhile_imp member]
  rw [parts, List.filter_append, leading, List.nil_append,
    List.filter_cons_of_pos (p := fun subtree : Subtree => !subtree.isExtra) plain] at only
  have none := List.filter_eq_nil_iff.1 (List.cons.inj only).2
  intro subtree member
  simpa using none subtree member

/-- The extras around an accepted root meet each other only if it has no children. -/
theorem foldRoot_merged (grammar : Grammar) {subtrees : List Subtree} (row : Row subtrees) :
    (foldRoot (m := Id) grammar subtrees).RootMerged := by
  unfold foldRoot
  split
  · next root only =>
      have parts := ParseStack.split_of_filter only
      have member : root ∈ subtrees := (List.mem_filter.1 (only ▸ List.mem_singleton_self root)).1
      have rootMerged := row.merged root member
      split
      · exact rootMerged.root
      · split
        · exact rootMerged_ofChildren _ (.inl row.apart) row.merged
        · have leading := row.apart.infix (List.takeWhile_prefix Subtree.isExtra).isInfix
          have trailing : Apart (subtrees.dropWhile Subtree.isExtra).tail :=
            row.apart.infix ((List.tail_suffix _).trans (List.dropWhile_suffix _)).isInfix
          refine rootMerged_ofChildren _ ?_ fun child childMember => ?_
          · rcases eq_or_ne root.children [] with bare | some
            · refine .inr ⟨?_, _, _, rfl, ?_, trailing⟩
              · rw [bare, List.append_nil]
                exact List.forall_mem_append.2
                  ⟨fun extra found => List.mem_takeWhile_imp found, extra_of_filter only⟩
              · rw [bare, List.append_nil]
                exact leading
            · obtain ⟨apart, first, last, -, -, -⟩ := rootMerged.here
              refine .inl (List.isChain_append.2
                ⟨List.isChain_append.2 ⟨leading, apart, fun _ _ child found both => ?_⟩, trailing,
                  fun child found _ _ both => ?_⟩)
              · exact first child found both.2
              · rw [List.getLast?_append_of_ne_nil _ some] at found
                exact last child found both.1
          · rcases List.mem_append.1 childMember with before | after
            · rcases List.mem_append.1 before with before | inside
              · exact row.merged child ((List.takeWhile_prefix _).subset before)
              · exact rootMerged.under child inside
            · exact row.merged child
                ((List.dropWhile_suffix _).subset (List.mem_of_mem_tail after))
  · exact rootMerged_ofChildren _ (.inl row.apart) row.merged

theorem move_keepsApart (reserved : job.grammar.ErrorReserved) (apart : version.KeepsApart)
    (correct : lookahead.Correct) {moved : Version}
    (moves : Version.Moves job { version with lookahead := none } lookahead moved) :
    moved.KeepsApart := by
  have looking : Version.KeepsApart { version with lookahead := some lookahead } :=
    ⟨apart.stack, fun _ same => Option.some.inj same ▸ correct⟩
  cases moves with
  | shift action =>
      refine pushLeaf_keepsApart _ _ _ apart.stack correct fun error => ?_
      rw [error, Grammar.actions_error] at action
      cases action
  | reduce action result => exact reduce_keepsApart looking (reserved.reduce action) result
  | extra noAction isExtra notEnd =>
      refine pushLeaf_keepsApart _ _ _ apart.stack correct fun error => ?_
      rw [error, reserved.extra] at isExtra
      cases isExtra
  | adopt reused state goto =>
      subst reused
      exact ⟨(ParseStack.subtrees_cons _ _).symm ▸ apart.stack.concat correct.1 correct.2, nofun⟩
  | reject reused => exact ⟨apart.stack, nofun⟩
  | resume noAction found at_ =>
      refine ⟨Recovery.resume_row reserved looking.stack _ _ _, fun lookahead same => ?_⟩
      obtain rfl := Option.some.inj same
      trivial
  | skip noAction first further =>
      exact ⟨Recovery.pushError_row looking.stack
        (List.forall_mem_singleton.2 (merged_ofLeaf _)), nofun⟩

/-- What a version looks at is no error of an earlier tree. -/
theorem looksAt_correct {reuse : Option ReuseCursor} (offered : ∀ cursor ∈ reuse, cursor.Merged)
    (apart : version.KeepsApart) (looks : version.LooksAt job reuse lookahead) :
    lookahead.Correct := by
  cases looks with
  | pending found => exact apart.lookahead lookahead found
  | token unknown => trivial
  | part unknown reusing found usable =>
      exact ((offered _ reusing).later (.seek _ _ .refl)).correct found usable

/-- Every move leaves error nodes apart on the stack. -/
theorem keepsApart_preserved (reserved : job.grammar.ErrorReserved) :
    Preserved job Version.KeepsApart RootMerged ReuseCursor.Merged where
  alike apart alike := by
    rw [Version.AlikeTo] at alike
    rw [alike]
    exact ⟨apart.stack, apart.lookahead⟩
  start := ⟨row_nil, nofun⟩
  move offered apart looks moves :=
    move_keepsApart reserved apart (looksAt_correct offered apart looks) moves
  finish offered apart looks ends := by
    cases ends with
    | accept action => exact foldRoot_merged _ apart.stack
    | giveUp noAction ended => exact Recovery.giveUp_merged apart.stack _
  later merged after := merged.later after

theorem result_merged (reserved : job.grammar.ErrorReserved) {run : ParseRun}
    (keeps : run.Keeps Version.KeepsApart RootMerged ReuseCursor.Merged) :
    (run.result (m := Id) job).RootMerged := by
  unfold result
  split
  · next best found => exact keeps.finished best (Rank.best?_mem found)
  · have best : Version.KeepsApart ((Rank.best? Version.rank run.versions).getD .start) := by
      cases found : Rank.best? Version.rank run.versions with
      | none => exact (keepsApart_preserved reserved).start
      | some version => exact keeps.versions version (Rank.best?_mem found)
    generalize (Rank.best? Version.rank run.versions).getD .start = version at best
    obtain ⟨merged, -, apart⟩ := best.stack
    have rooted : ∀ errors : List Subtree,
        (∀ error ∈ errors, error.Merged ∧ error.isLeaf = true) → Subtree.RootMerged
          (rootNode (m := Id) job.grammar (version.stack.subtrees ++ errors)) := by
      intro errors tokens
      refine rootMerged_ofChildren _ (.inl (List.isChain_append.2 ⟨apart, apart_of_none ?_, ?_⟩))
        (List.forall_mem_append.2 ⟨merged, fun error member => (tokens error member).1⟩)
      · exact fun error member => not_isErrorNode_of_isLeaf (tokens error member).2
      · exact fun _ _ error first both =>
          not_isErrorNode_of_isLeaf (tokens error (List.mem_of_mem_head? first)).2 both.2
    dsimp only
    split
    · exact rooted [] (List.forall_mem_nil _)
    · exact rooted [_] (List.forall_mem_singleton.2 ⟨merged_ofLeaf _, rfl⟩)

end ParseRun

/-- The errors in the tree of a run are merged, whatever part of an earlier tree it takes over. -/
theorem Parser.runJob_merged {job : ParseJob} (reserved : job.grammar.ErrorReserved)
    (options : ParseOptions) {reuse : Option ReuseCursor}
    (offered : ∀ cursor ∈ reuse, cursor.Merged) :
    (runJob (m := Id) job options reuse).1.RootMerged := by
  have preserved := ParseRun.keepsApart_preserved reserved
  exact ParseRun.result_merged reserved (preserved.runFor offered _ _ _)

/-! ## Merged trees -/

namespace Subtree

variable {subtree part : Subtree} {path : List Nat} {offset : Nat}

theorem Merged.of_part (merged : subtree.Merged)
    (found : subtree.part? path = some (offset, part)) : part.Merged := by
  induction path generalizing subtree offset with
  | nil =>
      obtain ⟨-, rfl⟩ := part?_nil_eq_some.1 found
      exact merged
  | cons index path induction =>
      obtain ⟨child, within, first, rest, -⟩ := part?_cons_eq_some.1 found
      exact induction (merged.under child (List.mem_of_getElem? first)) rest

theorem RootMerged.of_part (merged : subtree.RootMerged) (below : path ≠ [])
    (found : subtree.part? path = some (offset, part)) : part.Merged := by
  cases path with
  | nil => exact absurd rfl below
  | cons index path =>
      obtain ⟨child, within, first, rest, -⟩ := part?_cons_eq_some.1 found
      exact (merged.under child (List.mem_of_getElem? first)).of_part rest

end Subtree

/-- Whatever happens to a parser of a compiled grammar, in the tree of a parse no two error nodes
stand side by side below the root.  Below the root itself this may happen at one place, and then all
its children are extras. -/
theorem Session.errors_merged {description : Description} {compiled : Compiled}
    (made : description.compile = .ok compiled) {external : Option ExternalScanner}
    {parser : Parser} {trees : List SyntaxTree}
    (session : Session compiled.grammar external parser trees) (text : Text)
    {previous : Option SyntaxTree} (earlier : ∀ tree ∈ previous, tree ∈ trees)
    (edits : List Edit) :
    let root := (parser.parse text previous edits).1.tree.root
    Subtree.NearlyApart root.children ∧
      ∀ path offset part, path ≠ [] → root.part? path = some (offset, part) →
        Subtree.Apart part.children := by
  obtain ⟨plain, table, -, comes⟩ := Description.compile_comesFrom made
  have reserved := comes.loaded.errorReserved
  have edited : ∀ root edit, Subtree.RootMerged root → (Subtree.afterEdit edit root).RootMerged :=
    fun root edit merged => merged.afterEdit edit
  have parsed : ∀ text options (reuse : Option Subtree),
      (∀ root ∈ reuse, root.length = Text.size text ∧ root.RootMerged) →
      (Parser.runJob (m := Id) ⟨⟨compiled.grammar, external⟩, text⟩ options
        (reuse.map ReuseCursor.ofRoot)).1.RootMerged := by
    intro text options reuse offered
    have unspoilt : Grammar.ErrorReserved (ParseJob.grammar ⟨⟨compiled.grammar, external⟩, text⟩) :=
      reserved
    refine Parser.runJob_merged unspoilt options fun cursor member => ?_
    obtain ⟨root, rootMember, rfl⟩ := Option.map_eq_some_iff.1 member
    exact List.forall_mem_singleton.2 (offered root rootMember).2
  have before : ∀ tree ∈ trees, tree.root.erase.RootMerged := session.forall_root edited parsed
  have merged : (parser.parse text previous edits).1.tree.root.erase.RootMerged := by
    rcases session.parse_outcome edited before text earlier edits with
      ⟨tree, older, -, same⟩ | ⟨reuse, stats, offered, -, same⟩
    · rw [same]
      exact before tree older
    · rw [show (parser.parse text previous edits).1.tree.root.erase = _ from congrArg Prod.fst same]
      exact parsed text parser.options reuse offered
  exact ⟨merged.of_erase.nearly, fun path offset part below found =>
    (merged.of_erase.of_part below found).here.apart⟩

/-- Texts that are `a` followed by `b`. -/
def Description.pair : Description := ⟨"pair", [("s", .seq [.string "a", .string "b"])], [], [], []⟩

/-- The first letter of a text without errors is deleted. -/
theorem errors_merged_pair :
    ∃ compiled, Description.pair.compile = .ok compiled ∧
      let first := (Parser.ofGrammar compiled.grammar none .standard 0).parse (.ofString "ab")
        none []
      let second := first.2.parse (.ofString "b") (some first.1.tree) [.ofOffsets 0 1 0]
      Subtree.NearlyApart second.1.tree.root.children ∧
        ∀ path offset part, path ≠ [] → second.1.tree.root.part? path = some (offset, part) →
          Subtree.Apart part.children := by
  have succeeds : Description.pair.compile.isOk = true := by decide +kernel
  obtain ⟨compiled, made⟩ := Except.exists_of_isOk succeeds
  have session := (@Session.new compiled.grammar none .standard 0).parse (.ofString "ab") none []
    (fun tree none => by cases none)
  exact ⟨compiled, made, Session.errors_merged made session (.ofString "b")
    (fun tree same => Option.some.inj same ▸ List.mem_cons_self) _⟩

/-- The text `ba` is given up: the error around `b` stays outside the one around `a`. -/
theorem errors_apart_pair_fails :
    ∃ compiled, Description.pair.compile = .ok compiled ∧
      let output := ((Parser.ofGrammar compiled.grammar none .standard 0).parse (.ofString "ba")
        none []).1
      output.status = .complete ∧ ¬ Subtree.Apart output.tree.root.children := by
  have computed : (Description.pair.compile.toOption.any fun compiled =>
      let job : ParseJob := ⟨⟨compiled.grammar, none⟩, .ofString "ba"⟩
      let outcome := Parser.runJob (m := Id) job .standard none
      outcome.2.1 = .complete && outcome.1.children.length == 2 &&
        outcome.1.children.all fun child => child.isError && !child.isLeaf) = true := by
    decide +kernel
  obtain ⟨compiled, made, facts⟩ := Except.exists_of_any computed
  simp only [Bool.and_eq_true, decide_eq_true_eq, beq_iff_eq, List.all_eq_true,
    Bool.not_eq_true'] at facts
  obtain ⟨⟨ends, two⟩, errors⟩ := facts
  refine ⟨compiled, made, ?_⟩
  intro output
  have image := @Parser.parse_fresh_eq _ (.ofGrammar compiled.grammar none .standard 0)
    (Store.valid_fromId 0) (.ofString "ba") []
  have root : output.tree.root.erase = (Parser.runJob (m := Id)
      ⟨⟨compiled.grammar, none⟩, .ofString "ba"⟩ .standard none).1 := congrArg Prod.fst image
  refine ⟨(congrArg (fun outcome => outcome.2.1) image).trans ends, fun apart => ?_⟩
  have plain := apart.of_marks (Subtree.map_errorMarks_children_erase output.tree.root)
  rw [root] at plain
  obtain ⟨left, right, pair⟩ := List.length_eq_two.1 two
  rw [pair] at errors plain
  exact List.isChain_pair.1 plain ⟨errors left List.mem_cons_self,
    errors right (List.mem_cons_of_mem _ List.mem_cons_self)⟩

/-! ## Flat errors

An error that takes in another one dissolves it, and a reduction never defines the error.  The root
is none either: the text is accepted only with a subtree that is no extra, and all other roots are
nodes of the start symbol.
-/

namespace Subtree

/-- Whether a subtree is marked as an error just if its symbol is the error. -/
def ErrorMarked (subtree : Subtree) : Prop := subtree.isError = decide (subtree.symbol = .error)

theorem ErrorMarked.of_erase (subtree : Subtree) (marked : subtree.erase.ErrorMarked) :
    subtree.ErrorMarked := by
  rwa [ErrorMarked, erase_isError, erase_symbol] at marked

theorem ErrorMarked.plainEdit {map : EditMap} (start : Nat) (subtree : Subtree)
    (marked : subtree.ErrorMarked) : (plainEdit map start subtree).ErrorMarked := by
  obtain ⟨data, children⟩ := subtree
  rw [Subtree.plainEdit]
  split <;> exact marked

/-- Whatever a parse makes of marked subtrees is marked. -/
theorem passes_errorMarked : Passes (Throughout ErrorMarked) where
  token _ mark := .mk mark nofun
  node _ mark _ each := .mk mark each
  child all := all.under

/-- Whether a root is no error node, and the errors below it are merged and marked. -/
structure FlatRoot (root : Subtree) : Prop where
  /-- The errors below are merged. -/
  merged : root.RootMerged
  /-- All errors are marked. -/
  marked : Throughout ErrorMarked root
  /-- It is no error node itself. -/
  correct : ¬ root.IsErrorNode

theorem FlatRoot.afterEdit {root : Subtree} (flat : root.FlatRoot) (edit : Edit) :
    (root.afterEdit edit).FlatRoot where
  merged := flat.merged.afterEdit edit
  marked := flat.marked.plainEdit ErrorMarked.plainEdit 0
  correct error := by
    refine flat.correct ?_
    change root.errorMarks.IsErrorNode
    rwa [← errorMarks_plainEdit (.ofEdit edit root.length) 0 root]

theorem FlatRoot.of_erase {root : Subtree} (flat : root.erase.FlatRoot) : root.FlatRoot where
  merged := flat.merged.of_erase
  marked := flat.marked.of_erase ErrorMarked.of_erase
  correct error := by
    refine flat.correct ?_
    change root.erase.errorMarks.IsErrorNode
    rwa [errorMarks_erase root]

/-- In a flat tree an error node is an extra and has no error nodes as children. -/
theorem FlatRoot.of_part {root part : Subtree} (flat : root.FlatRoot) {path : List Nat}
    {offset : Nat} (found : root.part? path = some (offset, part)) (error : part.IsErrorNode) :
    part.isExtra = true ∧ ∀ child ∈ part.children, ¬ child.IsErrorNode := by
  rcases eq_or_ne path [] with rfl | below
  · obtain ⟨-, rfl⟩ := part?_nil_eq_some.1 found
    exact absurd error flat.correct
  · have here := (flat.merged.of_part below found).here
    exact ⟨here.loose error, here.flat error⟩

end Subtree

theorem Grammar.IsLoaded.startSymbol_ne_error {grammar : Grammar} (loaded : grammar.IsLoaded) :
    grammar.startSymbol ≠ .error := by
  intro error
  have nonterminal := loaded.sound.start
  rw [show grammar.data.startSymbol = .error from error, loaded.isNonterminal_error] at nonterminal
  cases nonterminal

namespace ParseRun

variable {job : ParseJob} {version : Version}

theorem rootNode_correct {grammar : Grammar} (start : grammar.startSymbol ≠ .error)
    (children : List Subtree) : ¬ (rootNode (m := Id) grammar children).IsErrorNode :=
  not_isErrorNode_of_isError_eq_false (decide_eq_false start)

/-- The tree of an accepted text is no error node. -/
theorem foldRoot_correct {grammar : Grammar} (start : grammar.startSymbol ≠ .error)
    {subtrees : List Subtree} (row : Row subtrees)
    (marked : ∀ subtree ∈ subtrees, Throughout ErrorMarked subtree) :
    ¬ (foldRoot (m := Id) grammar subtrees).IsErrorNode := by
  unfold foldRoot
  split
  · next root only =>
      obtain ⟨member, plain⟩ := List.mem_filter.1 (only ▸ List.mem_singleton_self root)
      rw [Bool.not_eq_true'] at plain
      have correct : ¬ root.IsErrorNode := fun error =>
        absurd ((row.merged root member).here.loose error) (by simp [plain])
      split
      · exact correct
      · split
        · exact rootNode_correct start subtrees
        · next node =>
            -- The extras are put around the children of a node with the symbol of the root.
            refine not_isErrorNode_of_isError_eq_false (decide_eq_false fun symbol => ?_)
            refine correct ⟨?_, Bool.not_eq_true _ ▸ node⟩
            exact (marked root member).here.trans (decide_eq_true symbol)
  · exact rootNode_correct start subtrees

/-- No move ends in a tree that is an error node. -/
theorem flat_preserved (reserved : job.grammar.ErrorReserved)
    (start : job.grammar.startSymbol ≠ .error) :
    Preserved job (fun version => version.KeepsApart ∧ version.Each (Throughout ErrorMarked))
      (fun root => ¬ root.IsErrorNode)
      (fun cursor => cursor.Merged ∧ cursor.Each (Throughout ErrorMarked)) := by
  have apart := keepsApart_preserved reserved
  have marked := each_preserved passes_errorMarked job
  constructor
  case alike => exact fun holds alike => ⟨apart.alike holds.1 alike, marked.alike holds.2 alike⟩
  case start => exact ⟨apart.start, marked.start⟩
  case move =>
    intro reuse version moved lookahead offered holds looks moves
    exact ⟨apart.move (fun cursor member => (offered cursor member).1) holds.1 looks moves,
      marked.move (fun cursor member => (offered cursor member).2) holds.2 looks moves⟩
  case finish =>
    intro reuse version lookahead root offered holds looks ends
    cases ends with
    | accept action => exact foldRoot_correct start holds.1.stack holds.2.stack
    | giveUp noAction ended =>
        rw [Recovery.giveUp_root]
        exact rootNode_correct start _
  case later => exact fun holds after => ⟨apart.later holds.1 after, marked.later holds.2 after⟩

theorem result_correct (start : job.grammar.startSymbol ≠ .error) {run : ParseRun}
    (finished : ∀ finished ∈ run.finished, ¬ finished.root.IsErrorNode) :
    ¬ (run.result (m := Id) job).IsErrorNode := by
  unfold result
  split
  · next best found => exact finished best (Rank.best?_mem found)
  · dsimp only
    split <;> exact rootNode_correct start _

end ParseRun

/-- The tree of a run is flat if all trees are that it takes parts from. -/
theorem Parser.runJob_flat {job : ParseJob} (reserved : job.grammar.ErrorReserved)
    (start : job.grammar.startSymbol ≠ .error) (options : ParseOptions) {reuse : Option Subtree}
    (offered : ∀ root ∈ reuse, root.FlatRoot) :
    (runJob (m := Id) job options (reuse.map ReuseCursor.ofRoot)).1.FlatRoot := by
  have merged : ∀ cursor ∈ reuse.map ReuseCursor.ofRoot,
      cursor.Merged ∧ cursor.Each (Throughout ErrorMarked) := by
    intro cursor member
    obtain ⟨root, rootMember, rfl⟩ := Option.map_eq_some_iff.1 member
    have flat := offered root rootMember
    exact ⟨List.forall_mem_singleton.2 flat.merged, List.forall_mem_singleton.2 flat.marked⟩
  have preserved := ParseRun.flat_preserved reserved start
  exact ⟨runJob_merged reserved options fun cursor member => (merged cursor member).1,
    runJob_holds passes_errorMarked job options fun cursor member => (merged cursor member).2,
    ParseRun.result_correct start (preserved.runFor merged _ _ _).finished⟩

/-- Whatever happens to a parser of a compiled grammar, in the tree of a parse a subtree is marked as
an error just if its symbol is the error.  An error node is an extra, and none of its children is an
error node. -/
theorem Session.errors_flat {description : Description} {compiled : Compiled}
    (made : description.compile = .ok compiled) {external : Option ExternalScanner}
    {parser : Parser} {trees : List SyntaxTree}
    (session : Session compiled.grammar external parser trees) (text : Text)
    {previous : Option SyntaxTree} (earlier : ∀ tree ∈ previous, tree ∈ trees)
    (edits : List Edit) :
    let root := (parser.parse text previous edits).1.tree.root
    ∀ path offset part, root.part? path = some (offset, part) →
      (part.isError = true ↔ part.symbol = .error) ∧
        (part.IsErrorNode →
          part.isExtra = true ∧ ∀ child ∈ part.children, ¬ child.IsErrorNode) := by
  obtain ⟨plain, table, -, comes⟩ := Description.compile_comesFrom made
  have reserved := comes.loaded.errorReserved
  have start := comes.loaded.startSymbol_ne_error
  have edited : ∀ root edit, FlatRoot root → FlatRoot (Subtree.afterEdit edit root) :=
    fun root edit flat => flat.afterEdit edit
  have parsed : ∀ text options (reuse : Option Subtree),
      (∀ root ∈ reuse, root.length = Text.size text ∧ root.FlatRoot) →
      (Parser.runJob (m := Id) ⟨⟨compiled.grammar, external⟩, text⟩ options
        (reuse.map ReuseCursor.ofRoot)).1.FlatRoot := by
    intro text options reuse offered
    have unspoilt : Grammar.ErrorReserved (ParseJob.grammar ⟨⟨compiled.grammar, external⟩, text⟩) :=
      reserved
    exact Parser.runJob_flat unspoilt start options fun root member => (offered root member).2
  have flat : (parser.parse text previous edits).1.tree.root.erase.FlatRoot :=
    (session.parse text previous edits earlier).forall_root edited parsed _ List.mem_cons_self
  intro root path offset part found
  have marked := (flat.of_erase.marked.of_part found).here
  exact ⟨by rw [marked, decide_eq_true_eq], flat.of_erase.of_part found⟩

/-- The text `ba` is given up, and so is what is left of it without the `a`. -/
theorem errors_flat_pair :
    ∃ compiled, Description.pair.compile = .ok compiled ∧
      let first := (Parser.ofGrammar compiled.grammar none .standard 0).parse (.ofString "ba")
        none []
      let second := first.2.parse (.ofString "b") (some first.1.tree) [.ofOffsets 1 2 1]
      ∀ path offset part, second.1.tree.root.part? path = some (offset, part) →
        (part.isError = true ↔ part.symbol = .error) ∧
          (part.IsErrorNode →
            part.isExtra = true ∧ ∀ child ∈ part.children, ¬ child.IsErrorNode) := by
  have succeeds : Description.pair.compile.isOk = true := by decide +kernel
  obtain ⟨compiled, made⟩ := Except.exists_of_isOk succeeds
  have session := (@Session.new compiled.grammar none .standard 0).parse (.ofString "ba") none []
    (fun tree none => by cases none)
  exact ⟨compiled, made, Session.errors_flat made session (.ofString "b")
    (fun tree same => Option.some.inj same ▸ List.mem_cons_self) _⟩

end IncrementalGlr
