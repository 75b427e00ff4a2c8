import IncrementalGlr.Proofs.Edits.Unchanged

/-!
# Where an edit puts the parts of a tree

An edit keeps the shape of a tree.  The part at the end of a path is still there afterwards, as the
same object or as a changed copy with the same symbol and as many errors, and spans the range that
the old range moves to.  Subtrees that the edit leaves alone are not visited; the parts below them
move all the same, since the map of offsets shifts all of such a subtree by one amount.

The whole tree moves with both its ends.  The start of a text that is not empty stays where it is,
so the edited tree is as long as the edited text.  The start of an empty text is its end as well and
moves behind the inserted text together with it: nothing of that text is in the edited tree.
-/

namespace IncrementalGlr

/-! ## Parts -/

namespace Subtree

/-- Whether a subtree may stand for another one after an edit: it has the same symbol, as many
errors, and is a token if the other one is; it is that very object, or marked as changed. -/
structure StandsFor (after before : Subtree) : Prop where
  /-- The symbol stays. -/
  symbol : after.symbol = before.symbol
  /-- The number of errors stays. -/
  errorCount : after.errorCount = before.errorCount
  /-- Tokens stay tokens and nodes stay nodes. -/
  isLeaf : after.isLeaf = before.isLeaf
  /-- It is the same object unless it is marked. -/
  same : after = before ∨ after.hasChanges = true

/-- Whether the second part spans the range that an edit moves the range of the first one to. -/
structure MovedTo (map : EditMap) (before after : Nat × Subtree) : Prop where
  /-- The start of the part has moved. -/
  start : after.1 = map.map before.1
  /-- Its end has moved. -/
  stop : after.1 + after.2.length = map.map (before.1 + before.2.length)

variable {map : EditMap}

theorem StandsFor.refl (subtree : Subtree) : subtree.StandsFor subtree := ⟨rfl, rfl, rfl, .inl rfl⟩

/-- A changed copy stands for its original. -/
theorem standsFor_editChanged (map : EditMap) (start : Nat) (subtree : Subtree)
    (progress : EditProgress) : (editChanged map start subtree progress).1.StandsFor subtree := by
  obtain ⟨-, id, same⟩ | ⟨-, id, same⟩ := editChanged_cases map start subtree progress <;>
    · rw [same]
      exact ⟨rfl, rfl, rfl, .inr rfl⟩

/-- A changed copy spans the range that the range of its original moves to. -/
theorem movedTo_editChanged (ordered : map.Ordered) (start : Nat) (subtree : Subtree)
    (progress : EditProgress) :
    MovedTo map (start, subtree) (map.map start, (editChanged map start subtree progress).1) := by
  refine ⟨rfl, ?_⟩
  have order := EditMap.map_mono ordered (Nat.le_add_right start subtree.length)
  dsimp only
  rw [(editChanged_data map start subtree progress).2.1,
    EditMap.newLength_eq ordered (Nat.le_add_right _ _)]
  omega

theorem length_editAll (map : EditMap) (start : Nat) (subtrees : List Subtree)
    (progress : EditProgress) : (editAll map start subtrees progress).1.length = subtrees.length := by
  induction subtrees generalizing start progress with
  | nil => rfl
  | cons child rest induction =>
      obtain ⟨edited, middle, -, same⟩ := editAll_cons map start child rest progress
      rw [same, List.length_cons, List.length_cons, induction]

/-- There is an edited child in a place if and only if there is a child, and it comes from that. -/
theorem rel_getElem?_editAll (map : EditMap) (start : Nat) (subtrees : List Subtree)
    (progress : EditProgress) (index : Nat) :
    Option.Rel (EditsTo map (start + totalLength (subtrees.take index))) subtrees[index]?
      (editAll map start subtrees progress).1[index]? := by
  cases found : (editAll map start subtrees progress).1[index]? with
  | none =>
      have outside := List.getElem?_eq_none_iff.1 found
      rw [length_editAll] at outside
      rw [List.getElem?_eq_none_iff.2 outside]
      exact .none
  | some edited =>
      obtain ⟨child, there, edits⟩ := getElem?_editAll map start subtrees progress found
      rw [there]
      exact .some edits

/-- Whether a part, counted from the start of a changed copy, stands for one that is counted from
the start of its original and has moved with the edit. -/
def Carries (map : EditMap) (start : Nat) (before after : Nat × Subtree) : Prop :=
  after.2.StandsFor before.2 ∧
    MovedTo map (start + before.1, before.2) (map.map start + after.1, after.2)

/-- The parts of a child are carried as parts of its parent if the child itself has moved. -/
theorem carries_map {start before after : Nat}
    (place : map.map start + after = map.map (start + before)) {old new : Option (Nat × Subtree)}
    (carried : Option.Rel (Carries map (start + before)) old new) :
    Option.Rel (Carries map start) (old.map fun (offset, part) => (before + offset, part))
      (new.map fun (offset, part) => (after + offset, part)) := by
  cases carried with
  | none => exact .none
  | some here =>
      refine .some ?_
      simp only [Carries, ← Nat.add_assoc, place] at here ⊢
      exact here

/-- All parts of an untouched subtree move by the same amount and stay what they are. -/
theorem carries_untouched (ordered : map.Ordered) {start : Nat} {subtree : Subtree}
    (tiled : subtree.Tiled)
    (untouched : map.isUntouched start (start + subtree.length) subtree.lookahead = true)
    (path : List Nat) :
    Option.Rel (Carries map start) (subtree.part? path) (subtree.part? path) := by
  cases found : subtree.part? path with
  | none => exact .none
  | some entry =>
      obtain ⟨offset, part⟩ := entry
      have inside := tiled.part_inside found
      have moves : ∀ within ≤ subtree.length, map.map (start + within) = map.map start + within :=
        fun within bound => (EditMap.spares_of_untouched ordered untouched bound
          (Nat.add_zero within ▸ bound.trans (Nat.le_add_right _ _))).2
      refine .some ⟨.refl part, (moves offset (by omega)).symm, ?_⟩
      dsimp only
      rw [Nat.add_assoc, Nat.add_assoc, moves (offset + part.length) inside]

/-- A changed copy has the same parts as its original: at each path there is none in either, or one
that stands for the other and has moved with the edit. -/
theorem carries_editChanged (ordered : map.Ordered) {subtree : Subtree} (tiled : subtree.Tiled)
    (start : Nat) (progress : EditProgress) (path : List Nat) :
    Option.Rel (Carries map start) (subtree.part? path)
      ((editChanged map start subtree progress).1.part? path) := by
  induction path generalizing subtree start progress with
  | nil =>
      exact .some ⟨standsFor_editChanged map start subtree progress,
        movedTo_editChanged ordered start subtree progress⟩
  | cons index path induction =>
      have edited := rel_getElem?_editAll map start subtree.children progress index
      have place :=
        map_add_totalLength_take_editAll ordered start subtree.children progress index
      simp only [part?, tiled.children_editChanged]
      generalize (editAll map start subtree.children progress).1[index]? = found at edited ⊢
      cases there : subtree.children[index]? with
      | none =>
          rw [there] at edited
          cases edited
          exact .none
      | some child =>
          have childTiled := tiled.child child (List.mem_of_getElem? there)
          rw [there] at edited
          cases edited with
          | some edits =>
              obtain ⟨untouched, rfl⟩ | ⟨childProgress, rfl⟩ := edits
              · exact carries_map place (carries_untouched ordered childTiled untouched path)
              · exact carries_map place (induction childTiled _ childProgress)

end Subtree

/-- An edit with any offsets whatsoever keeps a tree tiled.  At each path there is a part before and
after or in neither tree; the one after has the same symbol and as many errors, and is the same
object unless it is marked as changed.  If the tree is not empty, it spans the range that the old
range moves to. -/
theorem SyntaxTree.edit_places (edit : Edit) {tree : SyntaxTree} (tiled : tree.root.Tiled)
    (nextId : Nat) :
    let map := EditMap.ofEdit edit tree.length
    let edited := (tree.edit edit nextId).1
    edited.root.Tiled ∧ ∀ path,
      Option.Rel
        (fun before after => after.2.StandsFor before.2 ∧
          (0 < tree.length → Subtree.MovedTo map before after))
        (tree.root.part? path) (edited.root.part? path) := by
  intro map edited
  have ordered : map.Ordered := EditMap.ordered_ofEdit edit tree.length
  refine ⟨tiled.editChanged ordered 0 _, fun path => ?_⟩
  have carried : Option.Rel (Subtree.Carries map 0) (tree.root.part? path)
      (edited.root.part? path) := Subtree.carries_editChanged ordered tiled 0 _ path
  generalize tree.root.part? path = old, edited.root.part? path = new at carried ⊢
  cases carried with
  | none => exact .none
  | some carries =>
      refine .some ⟨carries.1, fun nonempty => ?_⟩
      have moved := carries.2
      rwa [EditMap.map_ofEdit_zero edit nonempty, Nat.zero_add, Nat.zero_add] at moved

/-- A token of one byte. -/
def Subtree.oneByte (id : Nat) : Subtree := .ofLeaf id { (default : LeafSpec) with length := 1 }

/-- A token of one byte and one without text, then a node above another token of one byte. -/
def SyntaxTree.withEmptyToken : SyntaxTree :=
  ⟨.ofChildren 4 default [.oneByte 0, .ofLeaf 1 default, .ofChildren 3 default [.oneByte 2]],
    default⟩

theorem SyntaxTree.tiled_withEmptyToken : withEmptyToken.root.Tiled := by
  refine Subtree.tiled_ofChildren _ fun child member => ?_
  simp only [List.mem_cons, List.not_mem_nil, or_false] at member
  rcases member with rfl | rfl | rfl
  · exact Subtree.tiled_ofLeaf _
  · exact Subtree.tiled_ofLeaf _
  · refine Subtree.tiled_ofChildren _ fun child member => ?_
    obtain rfl := List.mem_singleton.1 member
    exact Subtree.tiled_ofLeaf _

/-- Text is added by an edit whose offsets are out of order and past the end.  The last token takes
it in, below a node that begins where it began before. -/
theorem SyntaxTree.edit_places_withEmptyToken :
    let edited := (withEmptyToken.edit (.ofOffsets 9 1 12) 5).1
    withEmptyToken.root.Tiled ∧ 0 < withEmptyToken.length ∧ edited.root.Tiled ∧
      ∃ token, edited.root.part? [2, 0] = some (1, token) ∧ token.StandsFor (.oneByte 2) ∧
        1 + token.length = 12 := by
  intro edited
  have nonempty : 0 < withEmptyToken.length := by decide
  obtain ⟨tiled, places⟩ := edit_places (.ofOffsets 9 1 12) tiled_withEmptyToken 5
  refine ⟨tiled_withEmptyToken, nonempty, tiled, ?_⟩
  have last := places [2, 0]
  rw [show withEmptyToken.root.part? [2, 0] = some (1, .oneByte 2) from rfl] at last
  generalize edited.root.part? [2, 0] = found at last ⊢
  cases last with
  | @some _ after here =>
      obtain ⟨offset, token⟩ := after
      obtain ⟨stands, moved⟩ := here
      obtain ⟨start, stop⟩ := moved nonempty
      obtain rfl : offset = 1 := start.trans (by decide)
      exact ⟨token, rfl, stands, stop.trans (by decide)⟩

/-! ## The whole tree -/

namespace SyntaxTree

theorem tiled_edit {tree : SyntaxTree} (tiled : tree.root.Tiled) (edit : Edit) (nextId : Nat) :
    (tree.edit edit nextId).1.root.Tiled :=
  tiled.editChanged (EditMap.ordered_ofEdit edit tree.length) 0 _

/-- The edited tree spans the range that the range of the tree moves to. -/
theorem length_edit (edit : Edit) (tree : SyntaxTree) (nextId : Nat) :
    (tree.edit edit nextId).1.length =
      (EditMap.ofEdit edit tree.length).newLength 0 tree.length := by
  have spans := (Subtree.editChanged_data (.ofEdit edit tree.length) 0 tree.root ⟨nextId, []⟩).2.1
  rw [Nat.zero_add] at spans
  exact spans

/-- An edit within a tree that is not empty leaves a tree as long as the edited text, whose nodes
are again filled by their children.  An empty tree stays empty, whatever is inserted. -/
theorem edit_within_length {edit : Edit} {tree : SyntaxTree} (tiled : tree.root.Tiled)
    (within : edit.Within tree.length) (nextId : Nat) :
    let edited := (tree.edit edit nextId).1
    edited.root.Tiled ∧
      edited.length = if tree.length = 0 then 0
        else tree.length - (edit.oldEnd - edit.start) + (edit.newEnd - edit.start) := by
  intro edited
  have ordered : (EditMap.ofEdit edit tree.length).Ordered :=
    EditMap.ordered_ofEdit edit tree.length
  refine ⟨tiled_edit tiled edit nextId, ?_⟩
  rw [length_edit, EditMap.newLength_eq ordered (Nat.zero_le _)]
  by_cases empty : tree.length = 0
  · rw [if_pos empty, empty, Nat.sub_self]
  · rw [if_neg empty, EditMap.map_ofEdit_length within,
      EditMap.map_ofEdit_zero edit (Nat.pos_of_ne_zero empty)]
    obtain ⟨removes, inside, inserts⟩ := within
    omega

/-- One byte behind the first one gives way to four. -/
theorem edit_within_length_withEmptyToken :
    withEmptyToken.root.Tiled ∧ (Edit.ofOffsets 1 2 5).Within withEmptyToken.length ∧
      (withEmptyToken.edit (.ofOffsets 1 2 5) 5).1.length = 5 := by
  have within : (Edit.ofOffsets 1 2 5).Within withEmptyToken.length :=
    ⟨by decide, by decide, by decide⟩
  exact ⟨tiled_withEmptyToken, within, (edit_within_length tiled_withEmptyToken within 5).2⟩

/-- A node without text, such as the tree of an empty text. -/
def blank : SyntaxTree := ⟨.ofChildren 0 default [], default⟩

/-- Three bytes inserted into an empty text are not in the edited tree. -/
theorem edit_blank_length :
    blank.root.Tiled ∧ (Edit.ofOffsets 0 0 3).Within blank.length ∧
      (blank.edit (.ofOffsets 0 0 3) 1).1.length ≠ blank.length - (0 - 0) + (3 - 0) :=
  ⟨Subtree.tiled_ofChildren default (List.forall_mem_nil _), ⟨by decide, by decide, by decide⟩,
    by decide⟩

end SyntaxTree

end IncrementalGlr
