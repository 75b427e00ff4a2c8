import IncrementalGlr.Proofs.Limit
import IncrementalGlr.Proofs.Made

/-!
# Repeated parses

A text that is parsed again with the tree of the parse just made is not looked at: the tree is
returned as it is and reported as complete.  This is so whatever became of the first parse.  If it
was cut short, the second one hands out the partial tree as a complete one, although it was given
the time to do better.
-/

namespace IncrementalGlr

open Erasable (known_none known_some)

namespace Subtree

mutual

theorem alike_erase (left right : Subtree) : left.erase.alike right.erase = left.alike right := by
  cases left with
  | mk leftData leftChildren =>
      cases right with
      | mk rightData rightChildren =>
          rw [erase, erase, alike, alike, alikeAll_erase leftChildren rightChildren]

theorem alikeAll_erase (left right : List Subtree) :
    alikeAll (eraseAll left) (eraseAll right) = alikeAll left right := by
  match left, right with
  | [], [] | [], _ :: _ | _ :: _, [] => rfl
  | leftFirst :: leftRest, rightFirst :: rightRest =>
      rw [eraseAll, eraseAll, alikeAll, alikeAll, alike_erase leftFirst rightFirst,
        alikeAll_erase leftRest rightRest]

end

end Subtree

namespace Parser

/-- An unchanged tree of the right length is the answer if no edits are given. -/
theorem parse_unchanged {parser : Parser} {tree : SyntaxTree} {text : Text}
    (reuse : parser.options.reuse = true) (grammar : parser.grammar = tree.grammar)
    (unchanged : tree.root.hasChanges = false) (spans : tree.length = text.size) :
    (parser.parse text (some tree) []).1 = .ofTree tree text .complete .none := by
  obtain ⟨_, store, external, options, last⟩ := parser
  subst grammar
  dsimp only at reuse
  have considered (store : Store) : considerTree last tree text [] store =
      (.unchanged tree, store) := by
    have fits : (([] : List Edit).isEmpty || isLastParse last tree text) &&
        !tree.root.hasChanges && tree.length == text.size := by simp [unchanged, spans]
    exact congrFun (if_pos fits) store
  unfold parse consider
  simp only [Option.filter, reuse, Bool.and_self, BEq.rfl, if_true, considered]

/-- A fresh parse whose tree spans the text is not repeated. -/
theorem parse_again {memory : Memory} {parser : Parser} (valid : parser.store.Valid memory)
    {text : Text} (spans : (parser.parse text none []).1.tree.length = text.size)
    {options : ParseOptions} (reuse : options.reuse = true) :
    let first := parser.parse text none []
    (Parser.parse { first.2 with options } text (some first.1.tree) []).1 =
      .ofTree first.1.tree text .complete .none :=
  parse_unchanged reuse (parser.parse_grammar text none [])
    (parse_fresh_built valid text []).unchanged spans

end Parser

/-- Whatever has happened to a parser of a compiled grammar: if a text is parsed without an earlier
tree and then, with any options that allow to use earlier trees, with the tree of this parse and no
edits, then the second parse does no work and reports that very tree as complete.  It does so even
if the first parse was cut short. -/
theorem Session.repeated_parse {description : Description} {compiled : Compiled}
    (made : description.compile = .ok compiled) {external : Option ExternalScanner}
    (inside : ∀ scanner ∈ external, ExternalScanner.StaysInside scanner) {parser : Parser}
    {trees : List SyntaxTree} (session : Session compiled.grammar external parser trees)
    (text : Text) {options : ParseOptions} (reuse : options.reuse = true) :
    let first := parser.parse text none []
    let second := Parser.parse { first.2 with options } text (some first.1.tree) []
    second.1 = .ofTree first.1.tree text .complete .none := by
  intro first second
  obtain ⟨sameGrammar, sameExternal, memory, valid, -⟩ := session.valid
  have stays : ParseJob.StaysInside ⟨⟨parser.grammar, parser.external⟩, text⟩ :=
    ⟨sameGrammar ▸ Description.compile_endReserved made, sameExternal ▸ inside⟩
  have image : first.1.tree.root.erase = _ :=
    congrArg Prod.fst (Parser.parse_fresh_eq valid text [])
  have spans : first.1.tree.length = text.size := by
    rw [SyntaxTree.length, ← Subtree.erase_length, image]
    exact (Parser.runJob_whole stays parser.options fun _ none => by cases none).2
  exact Parser.parse_again valid spans reuse

/-- A text in brackets is parsed twice, the first time with a limit of two steps. -/
theorem repeated_parse_bracketed :
    ∃ compiled, Description.bracketed.compile = .ok compiled ∧
      let limited : ParseOptions := { ParseOptions.standard with maxOperations := some 2 }
      let first := (Parser.ofGrammar compiled.grammar none limited 0).parse (.ofString "(w)")
        none []
      let second := Parser.parse { first.2 with options := .standard } (.ofString "(w)")
        (some first.1.tree) []
      second.1 = .ofTree first.1.tree (.ofString "(w)") .complete .none := by
  have succeeds : Description.bracketed.compile.isOk = true := by decide +kernel
  obtain ⟨compiled, made⟩ := Except.exists_of_isOk succeeds
  exact ⟨compiled, made, Session.repeated_parse made (fun scanner none => by cases none)
    (.new _ 0) (.ofString "(w)") rfl⟩

/-- The first of these parses stops at its limit, and the second one reports a tree as complete
that differs from the one that a parse without limits gives. -/
theorem repeated_parse_cut_short :
    ∃ compiled, Description.bracketed.compile = .ok compiled ∧
      let limited : ParseOptions := { ParseOptions.standard with maxOperations := some 2 }
      let first := (Parser.ofGrammar compiled.grammar none limited 0).parse (.ofString "(w)")
        none []
      let second := Parser.parse { first.2 with options := .standard } (.ofString "(w)")
        (some first.1.tree) []
      let fresh := (Parser.ofGrammar compiled.grammar none .standard 0).parse (.ofString "(w)")
        none []
      first.1.status = .cancelled .operationLimit ∧ second.1.status = .complete ∧
        fresh.1.status = .complete ∧ second.1.tree.root.alike fresh.1.tree.root = false := by
  have computed : (Description.bracketed.compile.toOption.any fun compiled =>
      let job : ParseJob := ⟨⟨compiled.grammar, none⟩, .ofString "(w)"⟩
      let cut := Parser.runJob (m := Id) job { ParseOptions.standard with maxOperations := some 2 }
        none
      let whole := Parser.runJob (m := Id) job .standard none
      cut.2.1 = .cancelled .operationLimit && cut.1.length == 3 && whole.2.1 = .complete &&
        !cut.1.alike whole.1) = true := by
    decide +kernel
  obtain ⟨compiled, made, facts⟩ := Except.exists_of_any computed
  simp only [Bool.and_eq_true, decide_eq_true_eq, beq_iff_eq, Bool.not_eq_true'] at facts
  obtain ⟨⟨⟨stopped, length⟩, ends⟩, differs⟩ := facts
  refine ⟨compiled, made, ?_⟩
  intro limited first second fresh
  have firstImage := @Parser.parse_fresh_eq _ (.ofGrammar compiled.grammar none limited 0)
    (Store.valid_fromId 0) (.ofString "(w)") []
  have freshImage := @Parser.parse_fresh_eq _ (.ofGrammar compiled.grammar none .standard 0)
    (Store.valid_fromId 0) (.ofString "(w)") []
  have firstRoot : first.1.tree.root.erase = _ := congrArg Prod.fst firstImage
  have freshRoot : fresh.1.tree.root.erase = _ := congrArg Prod.fst freshImage
  have spans : first.1.tree.length = 3 := by
    rw [SyntaxTree.length, ← Subtree.erase_length, firstRoot]
    exact length
  have again : second.1 = _ := @Parser.parse_again _ (.ofGrammar compiled.grammar none limited 0)
    (Store.valid_fromId 0) (.ofString "(w)") spans .standard rfl
  refine ⟨(congrArg (fun outcome => outcome.2.1) firstImage).trans stopped, by rw [again]; rfl,
    (congrArg (fun outcome => outcome.2.1) freshImage).trans ends, ?_⟩
  have tree : second.1.tree = first.1.tree := by
    rw [again]
    rfl
  rw [tree, ← Subtree.alike_erase, firstRoot, freshRoot]
  exact differs

/-!
## What an earlier tree means for a parse

An earlier tree is handed out as it is only if no edit changes anything or the text is that of the
last parse.  It is edited only if the edits leave some of it alone and the edited tree is as long as
the text, and then the parse runs over it.  Otherwise it is of no use.
-/

namespace Parser

variable {last : Option (Subtree × Text)} {tree : SyntaxTree} {text : Text} {store : Store}

/-- The text of the last parse is the one that it remembers. -/
theorem exists_of_isLastParse (again : isLastParse last tree text = true) :
    ∃ pair ∈ last, pair.2 = text := by
  obtain ⟨pair, found, same⟩ := (Option.any_eq_true _ _).1 again
  have bytes := ((Bool.and_eq_true _ _).mp same).2
  exact ⟨pair, found, congrArg Text.mk (ByteArray.ext (beq_iff_eq.1 bytes))⟩

/-- A tree is left as it is if no edit changes anything or the text is that of the last parse. -/
theorem considerTree_unchanged {edits : List Edit} {old : SyntaxTree}
    (fits : (considerTree last tree text edits store).1 = .unchanged old) :
    old = tree ∧ ((edits.filter fun edit => !edit.isNoop) = [] ∨
      isLastParse last tree text = true) := by
  unfold considerTree at fits
  dsimp only at fits
  split at fits
  · next same =>
      cases fits
      simp only [Bool.and_eq_true, Bool.or_eq_true, List.isEmpty_iff] at same
      exact ⟨rfl, same.1.1⟩
  · simp only [bind, StateT.bind] at fits
    generalize applyEdits _ _ _ _ = outcome at fits
    obtain ⟨⟨edited, replaced⟩, store⟩ := outcome
    dsimp only at fits
    split at fits <;> cases fits

/-- A tree is edited only if the edit changes something and does not replace all of the text. -/
theorem considerTree_edited {edit : Edit} {root : Subtree}
    (unchanged : tree.root.hasChanges = false)
    (edited : (considerTree last tree text [edit] store).1 = .edited root) :
    (edit.isNoop = true → tree.length ≠ text.size) ∧
      (edit.isNoop = false → edit.start = 0 → edit.oldEnd < tree.length) := by
  unfold considerTree at edited
  cases noop : edit.isNoop with
  | true =>
      refine ⟨fun _ same => ?_, nofun⟩
      simp [noop, unchanged, same] at edited
      cases edited
  | false =>
      refine ⟨nofun, fun _ start => ?_⟩
      simp only [List.filter_singleton, noop] at edited
      by_contra short
      have replaced : (applyEdits tree false [edit] store).1.2 = true := by
        change (false || (edit.start == 0 && decide (tree.length ≤ edit.oldEnd))) = true
        simp [start, Nat.not_lt.1 short]
      split at edited
      · cases edited
      · simp only [bind, StateT.bind, Bool.not_false, cond_true] at edited
        generalize applyEdits tree false [edit] store = outcome at replaced edited
        obtain ⟨⟨image, whole⟩, store⟩ := outcome
        obtain rfl : whole = true := replaced
        cases edited

/-- A tree is edited if the text is new, the edit changes some but not all of it and the edited tree
is as long as it. -/
theorem exists_considerTree_edited {memory : Memory} (valid : store.Valid memory)
    (known : memory.Knows tree.root) (new : isLastParse last tree text = false) {edit : Edit}
    (effective : edit.isNoop = false) (partly : edit.start = 0 → edit.oldEnd < tree.length)
    (spans : (tree.root.erase.afterEdit edit).length = text.size) :
    ∃ root, (considerTree last tree text [edit] store).1 = .edited root := by
  obtain ⟨-, -, -, -, erased⟩ := applyEdits_valid valid known false [edit]
  have length : (applyEdits tree false [edit] store).1.1.length = text.size := by
    rw [SyntaxTree.length, ← Subtree.erase_length, erased]
    exact spans
  have kept : (applyEdits tree false [edit] store).1.2 = false := by
    change (false || (edit.start == 0 && decide (tree.length ≤ edit.oldEnd))) = false
    simp only [Bool.false_or, Bool.and_eq_false_imp, beq_iff_eq, decide_eq_false_iff_not,
      Nat.not_le]
    exact partly
  unfold considerTree
  simp only [List.filter_singleton, effective, new, Bool.not_false, cond_true, List.isEmpty_cons,
    Bool.or_self, Bool.false_and, Bool.false_eq_true, if_false, bind, StateT.bind]
  generalize applyEdits tree false [edit] store = outcome at length kept
  obtain ⟨⟨edited, replaced⟩, store⟩ := outcome
  obtain rfl : replaced = false := kept
  refine ⟨edited.root, ?_⟩
  dsimp only at length ⊢
  rw [if_neg (by simp [length])]
  rfl

/-- An earlier tree is looked at, or it is of no use. -/
theorem considered_tree (parser : Parser) (text : Text) (tree : SyntaxTree) (edits : List Edit) :
    (parser.considered text (some tree) edits).1 = .useless ∨
      (parser.considered text (some tree) edits).1 =
        (considerTree parser.last tree text edits parser.store.trim).1 := by
  unfold considered consider
  cases usable : (some tree).filter fun tree : SyntaxTree =>
      parser.options.reuse && parser.grammar.checksum == tree.grammar.checksum with
  | none => exact .inl rfl
  | some other =>
      obtain ⟨same, -⟩ := Option.filter_eq_some_iff.1 usable
      obtain rfl := Option.some.inj same
      exact .inr rfl

/-- A parse gives back the earlier tree, or it runs, up to ids without a store, and remembers what
it has parsed if it comes to its end. -/
theorem parse_considered {memory : Memory} {parser : Parser} (valid : parser.store.Valid memory)
    {previous : Option SyntaxTree} (known : ∀ tree ∈ previous, memory.Knows tree.root)
    (text : Text) (edits : List Edit) :
    let parsed := parser.parse text previous edits
    (∃ tree, previous = some tree ∧
      (parser.considered text previous edits).1 = .unchanged tree ∧
      parsed.1 = .ofTree tree text .complete .none ∧ parsed.2.last = parser.last) ∨
      ((∀ pair ∈ parsed.2.last, pair.2 = text) ∧
        ∃ reuse : Option Subtree,
          (reuse.isSome = true ↔
            ∃ edited, (parser.considered text previous edits).1 = .edited edited) ∧
          (∀ root ∈ reuse, root.length = text.size ∧
            ∃ tree, previous = some tree ∧ root = afterEdits edits tree.root.erase) ∧
          (parsed.1.tree.root.erase, parsed.1.status, parsed.1.stats) =
            runJob (m := Id) ⟨⟨parser.grammar, parser.external⟩, text⟩ parser.options
              (reuse.map ReuseCursor.ofRoot)) := by
  obtain ⟨grammar, store, external, options, last⟩ := parser
  obtain ⟨larger, grows, consideredValid, sound⟩ :=
    consider_sound valid.trim grammar options last known text edits
  unfold considered parse
  dsimp only
  generalize consider grammar options last previous text edits store.trim = pair
    at consideredValid sound
  have remembered {condition : Prop} [Decidable condition] {root : Subtree} :
      ∀ pair ∈ (if condition then some (root, text) else none : Option (Subtree × Text)),
        pair.2 = text := by
    intro pair member
    split at member
    · exact Option.some.inj member ▸ rfl
    · cases member
  obtain ⟨tree | root | _, store⟩ := pair
  · exact .inl ⟨tree, sound.1, rfl, rfl, rfl⟩
  · obtain ⟨rootKnown, length, tree, rfl, erased⟩ := sound
    obtain ⟨-, -, -, -, image⟩ := mirrors_runJob_ofRoot ⟨⟨grammar, external⟩, text⟩ options
      (known_some.2 rootKnown) store consideredValid
    refine .inr ⟨remembered, some root.erase, ⟨fun _ => ⟨root, rfl⟩, fun _ => rfl⟩, ?_, image⟩
    rintro _ ⟨⟩
    exact ⟨(Subtree.erase_length root).trans length, tree, rfl, erased⟩
  · obtain ⟨-, -, -, -, image⟩ := mirrors_runJob_ofRoot ⟨⟨grammar, external⟩, text⟩ options
      known_none store consideredValid
    exact .inr ⟨remembered, none, ⟨nofun, fun ⟨_, never⟩ => by cases never⟩, nofun, image⟩

/-- A parse with a partial edit of its tree runs over the edited tree. -/
theorem parse_edited {memory : Memory} {parser : Parser} (valid : parser.store.Valid memory)
    {tree : SyntaxTree} (known : memory.Knows tree.root) (reuse : parser.options.reuse = true)
    (grammar : parser.grammar = tree.grammar) {text : Text}
    (new : ∀ pair ∈ parser.last, pair.2 ≠ text) {edit : Edit} (effective : edit.isNoop = false)
    (partly : edit.start = 0 → edit.oldEnd < tree.length)
    (spans : (tree.root.erase.afterEdit edit).length = text.size) :
    let output := (parser.parse text (some tree) [edit]).1
    (output.tree.root.erase, output.status, output.stats) =
      runJob (m := Id) ⟨⟨parser.grammar, parser.external⟩, text⟩ parser.options
        (some (.ofRoot (tree.root.erase.afterEdit edit))) := by
  have given : ∀ other ∈ some tree, memory.Knows other.root := by
    rintro _ ⟨⟩
    exact known
  have other : isLastParse parser.last tree text = false := by
    by_contra again
    obtain ⟨pair, found, same⟩ := exists_of_isLastParse (Bool.not_eq_false _ ▸ again)
    exact new pair found same
  obtain ⟨root, edited⟩ := exists_considerTree_edited valid.trim known other effective partly spans
  have considered : (parser.considered text (some tree) [edit]).1 = .edited root := by
    rw [← edited]
    unfold considered consider
    simp [Option.filter, reuse, grammar]
  rcases parse_considered valid given text [edit] with
    ⟨_, -, unchanged, -⟩ | ⟨-, used, isUsed, offers, image⟩
  · cases considered.symm.trans unchanged
  · obtain ⟨start, rfl⟩ := Option.isSome_iff_exists.1 (isUsed.2 ⟨root, considered⟩)
    obtain ⟨-, _, ⟨⟩, rfl⟩ := offers start rfl
    rw [afterEdits, List.filter_singleton, effective] at image
    exact image

/-- A parse without an earlier tree remembers its own text only. -/
theorem parse_fresh_last {memory : Memory} {parser : Parser} (valid : parser.store.Valid memory)
    (text : Text) (edits : List Edit) :
    ∀ pair ∈ (parser.parse text none edits).2.last, pair.2 = text := by
  have noTree : ∀ tree ∈ (none : Option SyntaxTree), memory.Knows tree.root := fun _ => nofun
  rcases parse_considered valid noTree text edits with ⟨_, never, -⟩ | ⟨last, -⟩
  · cases never
  · exact last

/-- A new parser that parses a text and then, with the tree, a partly edited one runs over the
edited tree. -/
theorem parse_edited_new (grammar : Grammar) {before after : Text} (new : after.size ≠ before.size)
    {edit : Edit} (effective : edit.isNoop = false)
    (partly : edit.start = 0 → edit.oldEnd < Subtree.length
      (runJob (m := Id) ⟨⟨grammar, none⟩, before⟩ .standard none).1)
    (spans : Subtree.length (Subtree.afterEdit edit
      (runJob (m := Id) ⟨⟨grammar, none⟩, before⟩ .standard none).1) = after.size) :
    let first := (ofGrammar grammar none .standard 0).parse before none []
    let second := first.2.parse after (some first.1.tree) [edit]
    (second.1.tree.root.erase, second.1.status, second.1.stats) =
      runJob (m := Id) ⟨⟨grammar, none⟩, after⟩ .standard (some (.ofRoot
        (Subtree.afterEdit edit
          (runJob (m := Id) ⟨⟨grammar, none⟩, before⟩ .standard none).1))) := by
  intro first second
  have valid := @Store.valid_fromId 0
  have session := (@Session.new grammar none .standard 0).parse before none []
    fun _ none => by cases none
  obtain ⟨sameGrammar, sameExternal, memory, firstValid, known⟩ := session.valid
  have image : (first.1.tree.root.erase, first.1.status, first.1.stats) =
      runJob (m := Id) ⟨⟨grammar, none⟩, before⟩ .standard none := parse_fresh_eq valid before []
  have remembered : ∀ pair ∈ first.2.last, pair.2 ≠ after := fun pair member same =>
    new (congrArg Text.size (same.symm.trans (parse_fresh_last valid before [] pair member)))
  rw [← image] at partly spans ⊢
  rw [Subtree.erase_length] at partly
  have options : first.2.options = .standard := parse_options ..
  have edited := parse_edited firstValid (known _ List.mem_cons_self) (by rw [options]; rfl)
    (parse_grammar ..) remembered effective partly spans
  rw [sameGrammar, sameExternal, options] at edited
  exact edited

end Parser

end IncrementalGlr
