import IncrementalGlr.Proofs.Coverage.Session
import IncrementalGlr.Proofs.Derivation.Progress
import IncrementalGlr.Proofs.Sharing.Session

/-!
# Trees are derivations

A parse without an earlier tree never meets a reduction that does not fit the stack, its tree is
made by the productions of the grammar, and if it comes to its end the tree is that of a version
that was accepted or gave up.
-/

namespace IncrementalGlr

open Erasable

variable {plain : PlainGrammar} {items : StateId → Lalr.Item → Prop}

/-- Whether every reduction that the table calls for on top of a stack finds its children on the
stack and a goto below them. -/
def ParseStack.Reducible (grammar : Grammar) (stack : ParseStack) : Prop :=
  ∀ symbol production, .reduce production ∈ grammar.actions stack.state symbol →
    ∃ children trailing below next,
      stack.takeChildren (grammar.production production).length.toNat =
          some (children, trailing, below) ∧
        grammar.goto? below.state (grammar.production production).lhs = some next

theorem ParseStack.Reducible.of_erase {grammar : Grammar} {stack : ParseStack}
    (reducible : Reducible grammar (erase stack)) : stack.Reducible grammar := by
  intro symbol production action
  rw [← state_erase] at action
  obtain ⟨children, trailing, below, next, found, goto⟩ := reducible symbol production action
  rw [takeChildren_erase] at found
  cases taken : stack.takeChildren (grammar.production production).length.toNat with
  | none =>
      rw [taken] at found
      cases found
  | some parts =>
      obtain ⟨held, after, rest⟩ := parts
      rw [taken] at found
      cases found
      rw [state_erase] at goto
      exact ⟨held, after, rest, next, rfl, goto⟩

theorem Version.EndsIn.of_stack {job : ParseJob} {version other : Version} {lookahead : Lookahead}
    {root : Subtree} (ends : version.EndsIn job lookahead root)
    (sameStack : other.stack = version.stack) (samePosition : other.position = version.position) :
    other.EndsIn job lookahead root := by
  obtain ⟨stack, position, known, path⟩ := other
  obtain rfl : stack = version.stack := sameStack
  obtain rfl : position = version.position := samePosition
  cases ends with
  | accept action => exact .accept action
  | giveUp noAction ended =>
      have kept := @giveUp job { version with lookahead := known, path } lookahead noAction ended
      rw [Recovery.giveUp_root] at kept ⊢
      exact kept

namespace ParseRun

variable {job : ParseJob} {run : ParseRun}

variable {store after : Store} {memory : Memory}

/-- Every accepted tree was there at the start or comes from a visited version that has ended. -/
theorem Visits.ended (valid : store.Valid memory) (known : Known memory run) {last : ParseRun}
    (visits : Visits job run store last after) :
    ∀ finished ∈ last.finished, erase finished ∈ (erase run).finished ∨
      ∃ before held version lookahead, Visits job run store before held ∧
        version ∈ before.versions ∧
        (erase version).EndsIn job lookahead finished.root.erase := by
  induction visits with
  | refl => exact fun finished member => .inl (List.mem_map_of_mem member)
  | @step middle held step visited stepped induction =>
      intro finished member
      obtain ⟨-, larger, heldValid, middleKnown⟩ := visited.reaches valid known
      have mirrored := mirrors_step? job middleKnown
      rw [stepped] at mirrored
      obtain ⟨image, imageStepped, mirrors⟩ := mirrored
      obtain ⟨-, -, -, -, erased⟩ := mirrors held heldValid
      have imageMember : erase finished ∈ ParseRun.finished image := by
        rw [← erased]
        exact List.mem_map_of_mem member
      cases (step?_comesFrom imageStepped).finished _ imageMember with
      | stay old =>
          obtain ⟨earlier, earlierMember, same⟩ := List.mem_map.1 old
          rcases induction earlier earlierMember with start | ends
          · exact .inl (same ▸ start)
          · have roots := congrArg Finished.root same
            rw [Finished.erase_root, Finished.erase_root] at roots
            rw [roots] at ends
            exact .inr ends
      | @finish version fork lookahead _ versionMember looks alike ends =>
          obtain ⟨original, originalMember, rfl⟩ := List.mem_map.1 versionMember
          refine .inr ⟨middle, held, original, lookahead, visited, originalMember, ?_⟩
          rw [Version.AlikeTo] at alike
          exact ends.of_stack (by rw [alike]) (by rw [alike])

theorem start_known : Known memory (ParseRun.start none) :=
  known_start known_none

/-- What holds of the runs that a parse without an earlier tree visits. -/
theorem Visits.keeps (works : job.grammar.WorksOn plain items) (valid : store.Valid memory)
    {last : ParseRun} (visits : Visits job (.start none) store last after) :
    Reaches job (.start none) (erase last) ∧
      (erase last).Keeps (Version.Derives plain items)
        (fun root => root.Derived plain ∧ root.symbol = job.grammar.startSymbol)
        (fun _ => False) ∧
      ∃ larger : Memory, after.Valid larger ∧ Known larger last := by
  obtain ⟨reached, larger, afterValid, lastKnown⟩ := visits.reaches valid start_known
  exact ⟨reached, (derives_preserved works).fresh reached, larger, afterValid, lastKnown⟩

/-- Every stack that a parse without an earlier tree visits is fit for the reductions of its
state. -/
theorem Visits.reducible (works : job.grammar.WorksOn plain items) (valid : store.Valid memory)
    {last : ParseRun} (visits : Visits job (.start none) store last after) {version : Version}
    (member : version ∈ last.versions) : version.stack.Reducible job.grammar := by
  obtain ⟨-, keeps, -⟩ := visits.keeps works valid
  have derives := keeps.versions (erase version) (List.mem_map_of_mem member)
  refine .of_erase fun symbol production action => ?_
  obtain ⟨source, -, taken, trailing, below, next, found, -, -, -, goto, -⟩ :=
    derives.stack.path.reducible works action
  exact ⟨taken, trailing, below, next, found, goto⟩

/-- The tree that a parse without an earlier tree is left with is derived. -/
theorem Visits.result_derived (works : job.grammar.WorksOn plain items)
    (valid : store.Valid memory) {last : ParseRun}
    (visits : Visits job (.start none) store last after) :
    Subtree.Derived plain (last.result (m := StateM Store) job after).1 := by
  obtain ⟨-, keeps, larger, afterValid, known⟩ := visits.keeps works valid
  obtain ⟨-, -, -, -, erased⟩ := mirrors_result job known after afterValid
  have derived := ParseRun.result_derived works keeps
  rw [← erased] at derived
  exact derived.of_erase

/-- The tree of a parse without an earlier tree that has no version left is that of a version that
was accepted or gave up, and has the start symbol. -/
theorem Visits.result_ended (works : job.grammar.WorksOn plain items) (valid : store.Valid memory)
    {last : ParseRun} (visits : Visits job (.start none) store last after)
    (complete : last.versions = []) :
    ∃ finished ∈ last.finished,
      (last.result (m := StateM Store) job after).1 = finished.root ∧
        finished.root.symbol = job.grammar.startSymbol ∧
        ∃ before held version lookahead, Visits job (.start none) store before held ∧
          version ∈ before.versions ∧
          (erase version).EndsIn job lookahead finished.root.erase := by
  obtain ⟨reached, keeps, -⟩ := visits.keeps works valid
  have accepted : last.finished ≠ [] := by
    have alive := reached.alive works
    rw [Alive, erase_versions, erase_finished, complete] at alive
    intro none
    rw [none] at alive
    exact alive.elim (fun left => left rfl) fun right => right rfl
  obtain ⟨first, rest, some_⟩ := List.exists_cons_of_ne_nil accepted
  cases found : Rank.best? Finished.rank last.finished with
  | none =>
      rw [some_] at found
      cases found
  | some best =>
      have member := Rank.best?_mem found
      have erasedMember : erase best ∈ (erase last).finished := List.mem_map_of_mem member
      refine ⟨best, member, ?_, ?_, ?_⟩
      · rw [result, found]
        rfl
      · rw [← Subtree.erase_symbol]
        exact (keeps.finished (erase best) erasedMember).2
      · rcases visits.ended valid start_known best member with start | ends
        · exact absurd start List.not_mem_nil
        · exact ends

end ParseRun

/-- A parse without an earlier tree, however long it runs and however often it recovers, never meets
a reduction for which the stack is too short or a goto is missing.  In its tree every node that
records a production has the symbol on the left of the production, and its children that are not
extras have the symbols on the right.  If the parse comes to its end, the tree has the start symbol
and is that of a version that was accepted or gave up. -/
theorem Session.fresh_parse_derives {description : Description} {compiled : Compiled}
    (made : description.compile = .ok compiled) {external : Option ExternalScanner}
    {parser : Parser} {trees : List SyntaxTree}
    (session : Session compiled.grammar external parser trees) (text : Text) (edits : List Edit) :
    let job : ParseJob := ⟨⟨compiled.grammar, external⟩, text⟩
    let tree := (parser.parse text none edits).1.tree
    ∃ plain, description.toPlain = .ok plain ∧
      (∀ run store, ParseRun.Visits job (.start none) parser.store.trim run store →
        ∀ version ∈ run.versions, version.stack.Reducible compiled.grammar) ∧
      tree.root.Derived plain ∧
      ((parser.parse text none edits).1.status = .complete →
        tree.root.symbol = compiled.grammar.startSymbol ∧
          ∃ run store, ParseRun.Visits job (.start none) parser.store.trim run store ∧
            (∃ finished ∈ run.finished, tree.root = finished.root) ∧
            ∃ before held version lookahead,
              ParseRun.Visits job (.start none) parser.store.trim before held ∧
                version ∈ before.versions ∧
                (erase version).EndsIn job lookahead tree.root.erase) := by
  intro job tree
  obtain ⟨plain, table, lowered, comes⟩ := Description.compile_comesFrom made
  obtain ⟨automaton, madeFrom⟩ := Lalr.Table.madeFrom_of_ofGrammar comes.sound comes.built
  have works : job.grammar.WorksOn plain _ := comes.worksOn madeFrom
  obtain ⟨grammar, scanner, memory, valid, -⟩ := session.valid
  have fresh := parser.parse_fresh text edits
  rw [grammar, scanner] at fresh
  obtain ⟨run, store, visits, root, complete⟩ := fresh
  have trimmed := valid.trim
  refine ⟨plain, lowered, fun last after visits version member => ?_, ?_, fun status => ?_⟩
  · exact visits.reducible works trimmed member
  · rw [show tree.root = _ from root]
    exact visits.result_derived works trimmed
  · obtain ⟨finished, member, same, symbol, ends⟩ :=
      visits.result_ended works trimmed (complete status)
    rw [show tree.root = _ from root.trans same]
    exact ⟨symbol, run, store, visits, ⟨finished, member, rfl⟩, ends⟩

/-- A text with an unclosed bracket is parsed from scratch. -/
theorem fresh_parse_derives_bracketed :
    ∃ compiled, Description.bracketed.compile = .ok compiled ∧
      let parser := Parser.ofGrammar compiled.grammar none .standard 0
      ∃ plain, Description.bracketed.toPlain = .ok plain ∧
        (parser.parse (.ofString "( w") none []).1.tree.root.Derived plain := by
  have succeeds : Description.bracketed.compile.isOk = true := by decide +kernel
  obtain ⟨compiled, made⟩ := Except.exists_of_isOk succeeds
  have session := @Session.new compiled.grammar none .standard 0
  obtain ⟨plain, lowered, -, derived, -⟩ :=
    Session.fresh_parse_derives made session (.ofString "( w") []
  exact ⟨compiled, made, plain, lowered, derived⟩

end IncrementalGlr
