import IncrementalGlr.Parse.Parser
import IncrementalGlr.Proofs.Moves
import IncrementalGlr.Proofs.Sharing.Edit
import IncrementalGlr.Proofs.Sharing.Step

/-!
# Sessions

A session is all that may happen to one parser: it parses texts, with and without an earlier tree,
its trees are edited and its options are set.  Its store stays valid throughout, so every parse is
the parse without ids.  The same holds of the runs that a parse steps through, each of which leaves
a store to the next.
-/

namespace IncrementalGlr

open Erasable

/-- The parsers, each with the trees made so far, that come about when one parser is used. -/
inductive Session (grammar : Grammar) (external : Option ExternalScanner) :
    Parser → List SyntaxTree → Prop
  /-- A new parser. -/
  | new (options : ParseOptions) (nextId : Nat) :
    Session grammar external (.ofGrammar grammar external options nextId) []
  /-- Options are set. -/
  | configure {parser : Parser} {trees : List SyntaxTree} (options : ParseOptions)
      (session : Session grammar external parser trees) :
    Session grammar external { parser with options } trees
  /-- A text is parsed, perhaps with an earlier tree and edits of any kind. -/
  | parse {parser : Parser} {trees : List SyntaxTree} (text : Text) (previous : Option SyntaxTree)
      (edits : List Edit) (session : Session grammar external parser trees)
      (earlier : ∀ tree ∈ previous, tree ∈ trees) :
    Session grammar external (parser.parse text previous edits).2
      ((parser.parse text previous edits).1.tree :: trees)
  /-- A tree is edited; the changed copies get the next ids. -/
  | edit {parser : Parser} {trees : List SyntaxTree} (tree : SyntaxTree) (edit : Edit)
      (session : Session grammar external parser trees) (made : tree ∈ trees) :
    Session grammar external
      { parser with
        store := { parser.store with nextId := (tree.edit edit parser.store.nextId).2.2 } }
      ((tree.edit edit parser.store.nextId).1 :: trees)

namespace Parser

variable {memory : Memory}

/-- Several edits leave a valid store and a known tree. -/
theorem applyEdits_valid {store : Store} (valid : store.Valid memory) {tree : SyntaxTree}
    (known : memory.Knows tree.root) (replaced : Bool) (edits : List Edit) :
    ∃ larger : Memory, larger.Extends memory ∧
      (applyEdits tree replaced edits store).2.Valid larger ∧
      larger.Knows (applyEdits tree replaced edits store).1.1.root ∧
      (applyEdits tree replaced edits store).1.1.root.erase =
        edits.foldl (fun root edit => root.afterEdit edit) tree.root.erase := by
  induction edits generalizing memory store tree replaced with
  | nil => exact ⟨memory, .refl memory, valid, known, rfl⟩
  | cons edit rest induction =>
      obtain ⟨larger, grows, editedValid, editedKnown, erased, displaced⟩ :=
        SyntaxTree.edit_valid valid known edit
      have seeded := editedValid.seedAll fun leaf member => (displaced leaf member).1
      obtain ⟨largest, growsMore, restValid, restKnown, restErased⟩ := induction seeded editedKnown
        (replaced || (edit.start == 0 && tree.length ≤ edit.oldEnd))
      rw [erased] at restErased
      exact ⟨largest, growsMore.trans grows, restValid, restKnown, restErased⟩

instance : Erasable ParseStats where
  erase stats := stats
  Known _ _ := True
  mono known _ := known

theorem mirrors_runJob (job : ParseJob) (options : ParseOptions) {reuse : Option ReuseCursor}
    (known : Known memory reuse) :
    Mirrors memory (runJob job options reuse) (runJob job options (erase reuse)) := by
  have start : ParseRun.start (erase reuse) = erase (ParseRun.start reuse) := by
    cases reuse <;> rfl
  unfold runJob
  rw [start]
  refine (ParseRun.mirrors_runFor job options.deadline 0 _ (ParseRun.known_start known)).bind
    fun larger ended grows endedKnown => ?_
  exact (ParseRun.mirrors_result job endedKnown.1).andThen fun _ _ _ rootKnown =>
    ⟨⟨rootKnown, trivial, trivial⟩, rfl⟩

/-- A tree without ids after all edits that change something. -/
def afterEdits (edits : List Edit) (root : Subtree) : Subtree :=
  (edits.filter fun edit => !edit.isNoop).foldl (fun root edit => root.afterEdit edit) root

/-- What a parse relies on when it has found out what an earlier tree means for it. -/
def Earlier.Sound (memory : Memory) (previous : Option SyntaxTree) (text : Text)
    (edits : List Edit) : Earlier → Prop
  | .unchanged tree => previous = some tree ∧ tree.length = text.size
  | .edited root => memory.Knows root ∧ root.length = text.size ∧
      ∃ tree, previous = some tree ∧ root.erase = afterEdits edits tree.root.erase
  | .useless => True

theorem considerTree_sound {store : Store} (valid : store.Valid memory)
    (last : Option (Subtree × Text)) {tree : SyntaxTree} (known : memory.Knows tree.root)
    (text : Text) (edits : List Edit) :
    ∃ larger : Memory, larger.Extends memory ∧
      (considerTree last tree text edits store).2.Valid larger ∧
      Earlier.Sound larger (some tree) text edits (considerTree last tree text edits store).1 := by
  unfold considerTree Earlier.Sound afterEdits
  generalize edits.filter (fun edit => !edit.isNoop) = effective
  simp only
  split
  · next same =>
      simp only [Bool.and_eq_true, beq_iff_eq] at same
      exact ⟨memory, .refl memory, valid, rfl, same.2⟩
  · obtain ⟨larger, grows, editedValid, editedKnown, erased⟩ :=
      applyEdits_valid valid known false effective
    refine ⟨larger, grows, ?_⟩
    simp only [bind, StateT.bind]
    generalize applyEdits tree false effective store = outcome at editedValid editedKnown erased
    obtain ⟨⟨edited, replaced⟩, store⟩ := outcome
    dsimp only
    split
    · exact ⟨editedValid, trivial⟩
    · next usable =>
        simp only [Bool.or_eq_true, decide_eq_true_eq, not_or, not_not] at usable
        exact ⟨editedValid, editedKnown, usable.2, tree, rfl, erased⟩

theorem consider_sound {store : Store} (valid : store.Valid memory) (grammar : Grammar)
    (options : ParseOptions) (last : Option (Subtree × Text)) {previous : Option SyntaxTree}
    (known : ∀ tree ∈ previous, memory.Knows tree.root) (text : Text) (edits : List Edit) :
    ∃ larger : Memory, larger.Extends memory ∧
      (consider grammar options last previous text edits store).2.Valid larger ∧
      Earlier.Sound larger previous text edits
        (consider grammar options last previous text edits store).1 := by
  unfold consider
  cases usable : previous.filter fun tree =>
      options.reuse && grammar.checksum == tree.grammar.checksum with
  | none => exact ⟨memory, .refl memory, valid, trivial⟩
  | some tree =>
      obtain ⟨rfl, -⟩ := Option.filter_eq_some_iff.1 usable
      exact considerTree_sound valid last (known tree rfl) text edits

/-- A run that may reuse parts of a tree is up to ids one that may reuse parts of the tree without
ids. -/
theorem mirrors_runJob_ofRoot (job : ParseJob) (options : ParseOptions) {reuse : Option Subtree}
    (known : Known memory reuse) :
    Mirrors memory (runJob job options (reuse.map ReuseCursor.ofRoot))
      (runJob job options ((reuse.map Subtree.erase).map ReuseCursor.ofRoot)) := by
  have cursorKnown : Known memory (reuse.map ReuseCursor.ofRoot) := by
    intro cursor member
    obtain ⟨root, rootMember, rfl⟩ := Option.map_eq_some_iff.1 member
    exact known_cons.2 ⟨known root rootMember, known_nil⟩
  have cursorErased : (reuse.map Subtree.erase).map ReuseCursor.ofRoot =
      erase (reuse.map ReuseCursor.ofRoot) := by
    cases reuse <;> rfl
  rw [cursorErased]
  exact mirrors_runJob job options cursorKnown

/-- A parse leaves a valid store and a known tree.  The tree is the earlier one, which spans the
text, and nothing is done, or what the parse gives is up to ids what a run without a store gives,
which may reuse parts of what edits made of the earlier tree. -/
theorem parse_mirrors {parser : Parser} (valid : parser.store.Valid memory)
    {previous : Option SyntaxTree} (known : ∀ tree ∈ previous, memory.Knows tree.root)
    (text : Text) (edits : List Edit) :
    ∃ larger : Memory, larger.Extends memory ∧
      (parser.parse text previous edits).2.store.Valid larger ∧
      larger.Knows (parser.parse text previous edits).1.tree.root ∧
      ((∃ tree, previous = some tree ∧ tree.length = text.size ∧
        (parser.parse text previous edits).1.tree = tree ∧
        (parser.parse text previous edits).1.stats = .none) ∨
        ∃ reuse : Option Subtree,
          (∀ root ∈ reuse, root.length = text.size ∧
            ∃ tree, previous = some tree ∧ root = afterEdits edits tree.root.erase) ∧
            ((parser.parse text previous edits).1.tree.root.erase,
              (parser.parse text previous edits).1.status,
              (parser.parse text previous edits).1.stats) =
            runJob (m := Id) ⟨⟨parser.grammar, parser.external⟩, text⟩ parser.options
              (reuse.map ReuseCursor.ofRoot)) := by
  obtain ⟨grammar, store, external, options, last⟩ := parser
  obtain ⟨larger, grows, consideredValid, sound⟩ :=
    consider_sound valid.trim grammar options last known text edits
  unfold parse
  dsimp only
  generalize consider grammar options last previous text edits store.trim = considered
    at consideredValid sound
  obtain ⟨tree | root | _, store⟩ := considered
  · obtain ⟨rfl, length⟩ := sound
    exact ⟨larger, grows, consideredValid, (known tree rfl).mono grows,
      .inl ⟨tree, rfl, length, rfl, rfl⟩⟩
  · obtain ⟨rootKnown, length, tree, rfl, erased⟩ := sound
    obtain ⟨largest, growsMore, ranValid, ranKnown, ranErased⟩ := mirrors_runJob_ofRoot
      ⟨⟨grammar, external⟩, text⟩ options (known_some.2 rootKnown) store consideredValid
    refine ⟨largest, growsMore.trans grows, ranValid, ranKnown.1,
      .inr ⟨some root.erase, ?_, ranErased⟩⟩
    rintro _ ⟨⟩
    exact ⟨(Subtree.erase_length root).trans length, tree, rfl, erased⟩
  · obtain ⟨largest, growsMore, ranValid, ranKnown, ranErased⟩ := mirrors_runJob_ofRoot
      ⟨⟨grammar, external⟩, text⟩ options known_none store consideredValid
    refine ⟨largest, growsMore.trans grows, ranValid, ranKnown.1, .inr ⟨none, ?_, ranErased⟩⟩
    intro root member
    cases member

/-- What a parse without an earlier tree gives is up to ids what a run without a store gives. -/
theorem parse_fresh_eq {parser : Parser} (valid : parser.store.Valid memory) (text : Text)
    (edits : List Edit) :
    let output := (parser.parse text none edits).1
    (output.tree.root.erase, output.status, output.stats) =
      runJob (m := Id) ⟨⟨parser.grammar, parser.external⟩, text⟩ parser.options none := by
  have noTree : ∀ tree ∈ (none : Option SyntaxTree), memory.Knows tree.root := fun _ => nofun
  obtain ⟨-, -, -, -, outcome⟩ := parse_mirrors valid noTree text edits
  rcases outcome with ⟨tree, never, -⟩ | ⟨reuse, sound, same⟩
  · cases never
  · cases reuse with
    | none => exact same
    | some root =>
        obtain ⟨-, tree, never, -⟩ := sound root rfl
        cases never

theorem parse_grammar (parser : Parser) (text : Text) (previous : Option SyntaxTree)
    (edits : List Edit) : (parser.parse text previous edits).2.grammar = parser.grammar := by
  unfold parse
  dsimp only
  generalize consider _ _ _ _ _ _ _ = considered
  obtain ⟨_ | _ | _, store⟩ := considered <;> rfl

theorem parse_external (parser : Parser) (text : Text) (previous : Option SyntaxTree)
    (edits : List Edit) : (parser.parse text previous edits).2.external = parser.external := by
  unfold parse
  dsimp only
  generalize consider _ _ _ _ _ _ _ = considered
  obtain ⟨_ | _ | _, store⟩ := considered <;> rfl

theorem parse_options (parser : Parser) (text : Text) (previous : Option SyntaxTree)
    (edits : List Edit) : (parser.parse text previous edits).2.options = parser.options := by
  unfold parse
  dsimp only
  generalize consider _ _ _ _ _ _ _ = considered
  obtain ⟨_ | _ | _, store⟩ := considered <;> rfl

end Parser

namespace Session

variable {grammar : Grammar} {external : Option ExternalScanner} {parser : Parser}
  {trees : List SyntaxTree}

/-- The parser of a session keeps its grammar and its scanner, its store is valid and its trees are
known. -/
theorem valid (session : Session grammar external parser trees) :
    parser.grammar = grammar ∧ parser.external = external ∧
      ∃ memory : Memory, parser.store.Valid memory ∧
        ∀ tree ∈ trees, memory.Knows tree.root := by
  induction session with
  | new options nextId =>
      exact ⟨rfl, rfl, _, Store.valid_fromId nextId, fun tree member =>
        absurd member List.not_mem_nil⟩
  | configure options session induction => exact induction
  | @parse parser trees text previous edits session earlier induction =>
      obtain ⟨sameGrammar, sameExternal, memory, storeValid, known⟩ := induction
      obtain ⟨larger, grows, parsedValid, parsedKnown, -⟩ := Parser.parse_mirrors storeValid
        (fun tree member => known tree (earlier tree member)) text edits
      refine ⟨(Parser.parse_grammar ..).trans sameGrammar,
        (Parser.parse_external ..).trans sameExternal, larger, parsedValid, fun tree member => ?_⟩
      rcases List.mem_cons.1 member with rfl | older
      · exact parsedKnown
      · exact (known tree older).mono grows
  | @edit parser trees tree edit session made induction =>
      obtain ⟨sameGrammar, sameExternal, memory, storeValid, known⟩ := induction
      obtain ⟨larger, grows, editedValid, editedKnown, -⟩ :=
        SyntaxTree.edit_valid storeValid (known tree made) edit
      refine ⟨sameGrammar, sameExternal, larger, editedValid, fun other member => ?_⟩
      rcases List.mem_cons.1 member with rfl | older
      · exact editedKnown
      · exact (known other older).mono grows

/-- A parse of a session gives an earlier tree that spans the text, or up to ids the tree of a run
without a store.  What edits preserve holds of the parts that are used again. -/
theorem parse_outcome {holds : Subtree → Prop} (session : Session grammar external parser trees)
    (edited : ∀ root edit, holds root → holds (Subtree.afterEdit edit root))
    (before : ∀ tree ∈ trees, holds tree.root.erase) (text : Text)
    {previous : Option SyntaxTree} (earlier : ∀ tree ∈ previous, tree ∈ trees)
    (edits : List Edit) :
    (∃ tree ∈ trees, tree.length = text.size ∧
        (parser.parse text previous edits).1.tree = tree) ∨
      ∃ (reuse : Option Subtree) (stats : ParseStats),
        (∀ root ∈ reuse, root.length = text.size ∧ holds root) ∧ (previous = none → reuse = none) ∧
          ((parser.parse text previous edits).1.tree.root.erase,
            (parser.parse text previous edits).1.status, stats) =
          Parser.runJob (m := Id) ⟨⟨grammar, external⟩, text⟩ parser.options
            (reuse.map ReuseCursor.ofRoot) := by
  obtain ⟨rfl, rfl, memory, storeValid, known⟩ := session.valid
  obtain ⟨-, -, -, -, outcome⟩ := Parser.parse_mirrors storeValid
    (fun tree member => known tree (earlier tree member)) text edits
  rcases outcome with ⟨tree, rfl, length, same, -⟩ | ⟨reuse, sound, same⟩
  · exact .inl ⟨tree, earlier tree rfl, length, same⟩
  · refine .inr ⟨reuse, _, fun root member => ?_, fun new => ?_, same⟩
    · obtain ⟨length, tree, rfl, rfl⟩ := sound root member
      refine ⟨length, ?_⟩
      have start := before tree (earlier tree rfl)
      unfold Parser.afterEdits
      generalize tree.root.erase = root at start
      generalize edits.filter (fun edit => !edit.isNoop) = effective
      clear length member
      induction effective generalizing root with
      | nil => exact start
      | cons edit rest induction => exact induction _ (edited root edit start)
    · subst new
      refine Option.eq_none_iff_forall_not_mem.2 fun root member => ?_
      obtain ⟨-, tree, never, -⟩ := sound root member
      cases never

/-- What runs without a store establish, and edits of trees without ids preserve, holds of all trees
of a session up to ids. -/
theorem forall_root {holds : Subtree → Prop} (session : Session grammar external parser trees)
    (edited : ∀ root edit, holds root → holds (Subtree.afterEdit edit root))
    (parsed : ∀ text options (reuse : Option Subtree),
      (∀ root ∈ reuse, root.length = text.size ∧ holds root) →
      holds (Parser.runJob (m := Id) ⟨⟨grammar, external⟩, text⟩ options
        (reuse.map ReuseCursor.ofRoot)).1) :
    ∀ tree ∈ trees, holds tree.root.erase := by
  induction session with
  | new options nextId => exact fun tree member => absurd member List.not_mem_nil
  | configure options session induction => exact induction
  | @parse parser trees text previous edits session earlier induction =>
      intro tree member
      rcases List.mem_cons.1 member with rfl | older
      · rcases session.parse_outcome edited induction text earlier edits with
          ⟨tree, made, -, same⟩ | ⟨reuse, stats, offered, -, same⟩
        · rw [same]
          exact induction tree made
        · have root : (Parser.parse parser text previous edits).1.tree.root.erase = _ :=
            congrArg Prod.fst same
          rw [root]
          exact parsed text parser.options reuse offered
      · exact induction tree older
  | @edit parser trees tree edit session made induction =>
      obtain ⟨-, -, memory, storeValid, known⟩ := session.valid
      obtain ⟨-, -, -, -, erased, -⟩ := SyntaxTree.edit_valid storeValid (known tree made) edit
      intro other member
      rcases List.mem_cons.1 member with rfl | older
      · rw [erased]
        exact edited _ edit (induction tree made)
      · exact induction other older

end Session

/-! ## Runs on a store -/

namespace ParseRun

variable {job : ParseJob} {run : ParseRun} {store : Store}

/-- The runs, each with the store that it leaves, that come about from a run by steps. -/
inductive Visits (job : ParseJob) (run : ParseRun) (store : Store) : ParseRun → Store → Prop
  /-- No step is made. -/
  | refl : Visits job run store run store
  /-- One more step is made. -/
  | step {last : ParseRun} {before : Store} {step : StateM Store ParseRun}
      (visited : Visits job run store last before) (stepped : last.step? job = some step) :
    Visits job run store (step before).1 (step before).2

theorem Visits.head {step : StateM Store ParseRun} {last : ParseRun} {after : Store}
    (stepped : run.step? job = some step)
    (visits : Visits job (step store).1 (step store).2 last after) :
    Visits job run store last after := by
  induction visits with
  | refl => exact .step .refl stepped
  | step visited stepped induction => exact .step induction stepped

/-- What is visited on a valid store is, up to ids, reached without a store. -/
theorem Visits.reaches {memory : Memory} (valid : store.Valid memory) (known : Known memory run)
    {last : ParseRun} {after : Store} (visits : Visits job run store last after) :
    Reaches job (erase run) (erase last) ∧
      ∃ larger : Memory, after.Valid larger ∧ Known larger last := by
  induction visits with
  | refl => exact ⟨.refl, memory, valid, known⟩
  | @step last before step visited stepped induction =>
      obtain ⟨reached, larger, beforeValid, lastKnown⟩ := induction
      have mirrored := mirrors_step? job lastKnown
      rw [stepped] at mirrored
      obtain ⟨image, imageStepped, mirrors⟩ := mirrored
      obtain ⟨largest, -, afterValid, nextKnown, erased⟩ := mirrors before beforeValid
      refine ⟨reached.step ?_, largest, afterValid, nextKnown⟩
      rw [erased]
      exact imageStepped

/-- Up to ids all that is reached without a store is visited on a valid store. -/
theorem Visits.of_reaches (valid : store.Valid memory) (known : Known memory run)
    {last : ParseRun} (reaches : Reaches job (erase run) last) :
    ∃ visited after, Visits job run store visited after ∧ erase visited = last := by
  induction reaches with
  | refl => exact ⟨run, store, .refl, rfl⟩
  | @step last next before stepped induction =>
      obtain ⟨visited, after, visits, rfl⟩ := induction
      obtain ⟨-, larger, afterValid, visitedKnown⟩ := visits.reaches valid known
      have mirrored := mirrors_step? job visitedKnown
      cases found : visited.step? (m := StateM Store) job with
      | none =>
          rw [found] at mirrored
          rw [stepped] at mirrored
          cases mirrored
      | some step =>
          rw [found] at mirrored
          obtain ⟨image, imageStepped, mirrors⟩ := mirrored
          obtain ⟨-, -, -, -, erased⟩ := mirrors after afterValid
          rw [stepped] at imageStepped
          exact ⟨_, _, visits.step found, erased.trans (Option.some.inj imageStepped).symm⟩

/-- A bounded run visits what it ends with, and it is complete only if no version is left. -/
theorem runFor_visits (deadline : Option Nat) (made operations : Nat) (run : ParseRun)
    (store : Store) :
    let outcome := runFor (m := StateM Store) job deadline made operations run store
    Visits job run store outcome.1.1 outcome.2 ∧
      (outcome.1.2 = .complete → outcome.1.1.versions = []) := by
  induction operations generalizing made run store with
  | zero =>
      refine ⟨.refl, fun complete => ?_⟩
      change (if (run.step? (m := StateM Store) job).isSome then ParseStatus.cancelled .operationLimit
        else .complete) = .complete at complete
      refine (@step?_eq_none job (StateM Store) _ _ run).1 ?_
      cases stepped : run.step? (m := StateM Store) job with
      | none => rfl
      | some next => simp [stepped] at complete
  | succ operations induction =>
      unfold runFor
      cases stepped : run.step? (m := StateM Store) job with
      | none => exact ⟨.refl, fun _ => (step?_eq_none run).1 stepped⟩
      | some step =>
          dsimp only
          split
          · exact ⟨.refl, fun complete => by cases complete⟩
          · obtain ⟨visits, complete⟩ := induction (made + 1) (step store).1 (step store).2
            exact ⟨.head stepped visits, complete⟩

end ParseRun

/-- Without an earlier tree a parse is a run from the start on the store of the parser. -/
theorem Parser.parse_fresh (parser : Parser) (text : Text) (edits : List Edit) :
    let job : ParseJob := ⟨⟨parser.grammar, parser.external⟩, text⟩
    ∃ run store, ParseRun.Visits job (.start none) parser.store.trim run store ∧
      (parser.parse text none edits).1.tree.root = (run.result (m := StateM Store) job store).1 ∧
      ((parser.parse text none edits).1.status = .complete → run.versions = []) := by
  obtain ⟨grammar, store, external, options, last⟩ := parser
  obtain ⟨visits, complete⟩ := @ParseRun.runFor_visits ⟨⟨grammar, external⟩, text⟩ options.deadline 0
    (options.maxOperations.getD maxOperations) (.start none) store.trim
  exact ⟨_, _, visits, rfl, complete⟩

end IncrementalGlr
