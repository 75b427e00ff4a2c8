import IncrementalGlr.Proofs.Edits.Unchanged

/-!
# Trees after many edits

However many edits of a text its tree follows, the parts that are not marked as changed are objects
of the original tree, at the paths at which they were, and the bytes of their extents are the ones
over which they were made.
-/

namespace IncrementalGlr

/-! ## Edited texts -/

namespace Text

theorem size_append (left right : Text) : (left ++ right).size = left.size + right.size :=
  ByteArray.size_append

theorem size_slice (text : Text) (start stop : Nat) :
    (text.slice ⟨start, stop⟩).size = min stop text.size - start := ByteArray.size_extract

theorem byte?_append_left (left right : Text) {index : Nat} (inside : index < left.size) :
    (left ++ right).byte? index = left.byte? index := by
  have bound : index < (left.bytes ++ right.bytes).size := by
    rw [ByteArray.size_append]
    exact Nat.lt_add_right _ inside
  change (left.bytes ++ right.bytes)[index]? = left.bytes[index]?
  rw [getElem?_pos _ index bound, getElem?_pos _ index inside, ByteArray.getElem_append_left inside]

theorem byte?_append_right (left right : Text) {index : Nat} (behind : left.size ≤ index) :
    (left ++ right).byte? index = right.byte? (index - left.size) := by
  change left.bytes.size ≤ index at behind
  change (left.bytes ++ right.bytes)[index]? = right.bytes[index - left.bytes.size]?
  have sizes : (left.bytes ++ right.bytes).size = left.bytes.size + right.bytes.size :=
    ByteArray.size_append
  by_cases inside : index - left.bytes.size < right.bytes.size
  · have bound : index < (left.bytes ++ right.bytes).size := by omega
    rw [getElem?_pos _ index bound, getElem?_pos right.bytes _ inside,
      ByteArray.getElem_append_right behind]
  · rw [getElem?_neg right.bytes _ inside, getElem?_neg _ index (by omega)]

theorem byte?_slice (text : Text) {start stop index : Nat} (inside : start + index < stop) :
    (text.slice ⟨start, stop⟩).byte? index = text.byte? (start + index) := by
  change (text.bytes.extract start stop)[index]? = text.bytes[start + index]?
  have size : (text.bytes.extract start stop).size = min stop text.bytes.size - start :=
    ByteArray.size_extract
  by_cases held : start + index < text.bytes.size
  · have bound : index < (text.bytes.extract start stop).size := by omega
    rw [getElem?_pos _ index bound, getElem?_pos text.bytes _ held, ByteArray.getElem_extract]
  · rw [getElem?_neg text.bytes _ held, getElem?_neg _ index (by omega)]

theorem byte?_dropTo (text : Text) (offset index : Nat) :
    (text.dropTo offset).byte? index = text.byte? (offset + index) := by
  by_cases held : offset + index < text.size
  · exact byte?_slice text held
  · have short : ¬ index < (text.dropTo offset).bytes.size := by
      have size := text.size_slice offset text.size
      change (text.dropTo offset).bytes.size = _ at size
      omega
    exact (getElem?_neg _ index short).trans (getElem?_neg text.bytes _ held).symm

end Text

namespace Edit

/-- Whether an edit turns a text into another one: its offsets are in order and inside the text, and
the range between the first two gives way to as much text as the third one says. -/
structure Turns (edit : Edit) (before after : Text) : Prop where
  /-- The removed range is a range. -/
  removes : edit.start ≤ edit.oldEnd
  /-- It lies inside the text. -/
  inside : edit.oldEnd ≤ before.size
  /-- The inserted range is a range. -/
  inserts : edit.start ≤ edit.newEnd
  /-- The text around the removed range stays. -/
  around : ∃ inserted : Text, edit.start + inserted.size = edit.newEnd ∧
    after = before.slice ⟨0, edit.start⟩ ++ inserted ++ before.dropTo edit.oldEnd

variable {edit : Edit} {before after : Text}

theorem Turns.size_add (turns : edit.Turns before after) :
    after.size + edit.oldEnd = before.size + edit.newEnd := by
  obtain ⟨removes, inside, -, inserted, size, rfl⟩ := turns
  rw [Text.size_append, Text.size_append, Text.dropTo, Text.size_slice, Text.size_slice]
  omega

theorem Turns.byte?_before (turns : edit.Turns before after) {offset : Nat}
    (early : offset < edit.start) : after.byte? offset = before.byte? offset := by
  obtain ⟨removes, inside, -, inserted, size, rfl⟩ := turns
  have front : (before.slice ⟨0, edit.start⟩).size = edit.start := by
    rw [Text.size_slice]
    omega
  rw [Text.byte?_append_left _ _ (by rw [Text.size_append]; omega),
    Text.byte?_append_left _ _ (by omega), Text.byte?_slice _ (by omega), Nat.zero_add]

theorem Turns.byte?_behind (turns : edit.Turns before after) (index : Nat) :
    after.byte? (edit.newEnd + index) = before.byte? (edit.oldEnd + index) := by
  obtain ⟨removes, inside, -, inserted, size, rfl⟩ := turns
  have front : (before.slice ⟨0, edit.start⟩ ++ inserted).size = edit.newEnd := by
    rw [Text.size_append, Text.size_slice]
    omega
  rw [Text.byte?_append_right _ _ (by omega), front, Nat.add_sub_cancel_left, Text.byte?_dropTo]

/-- An edit that changes nothing leaves the text as it is. -/
theorem Turns.eq_of_isNoop (turns : edit.Turns before after) (noop : edit.isNoop = true) :
    after = before := by
  simp only [isNoop, Bool.and_eq_true, beq_iff_eq] at noop
  obtain ⟨sameOld, sameNew⟩ := noop
  have size := turns.size_add
  have each (offset : Nat) : after.byte? offset = before.byte? offset := by
    rcases Nat.lt_or_ge offset edit.start with early | late
    · exact turns.byte?_before early
    · have behind := turns.byte?_behind (offset - edit.start)
      rwa [← sameOld, ← sameNew, Nat.add_sub_cancel' late] at behind
  have sizes : after.bytes.size = before.bytes.size := by
    change after.size = before.size
    omega
  have bytes : after.bytes = before.bytes := by
    refine ByteArray.ext_getElem sizes fun index inside otherInside => ?_
    have here := each index
    change after.bytes[index]? = before.bytes[index]? at here
    rwa [getElem?_pos after.bytes _ inside, getElem?_pos before.bytes _ otherInside,
      Option.some_inj] at here
  exact congrArg Text.mk bytes

theorem Turns.within (turns : edit.Turns before after) : edit.Within before.size :=
  ⟨turns.removes, turns.inside, turns.inserts⟩

/-- Replacing a range of a text gives an edit that describes it. -/
theorem turns_replace {text : Text} {range : Span} (inside : range.stop ≤ text.size)
    (ordered : range.start ≤ range.stop) (replacement : Text) :
    (replace text range replacement).2.Turns text (replace text range replacement).1 :=
  ⟨ordered, inside, Nat.le_add_right _ _, replacement, rfl, rfl⟩

/-- The bytes of a spared range move with it. -/
theorem Turns.byte?_of_spares (turns : edit.Turns before after) {first extent index : Nat}
    (spared : (EditMap.ofEdit edit before.size).Spares first extent) (inside : index < extent) :
    after.byte? ((EditMap.ofEdit edit before.size).map first + index) =
      before.byte? (first + index) := by
  obtain ⟨early, same⟩ | ⟨late, moved⟩ := spared
  · rw [same]
    rw [EditMap.ofEdit_within turns.within] at early
    exact turns.byte?_before (Nat.lt_of_lt_of_le (Nat.add_lt_add_left inside first) early)
  · rw [moved]
    rw [EditMap.ofEdit_within turns.within] at late ⊢
    have split : first + index = edit.oldEnd + (first - edit.oldEnd + index) := by
      change edit.oldEnd ≤ first at late
      omega
    rw [split, ← turns.byte?_behind]
    congr 1
    change first - edit.oldEnd + edit.newEnd + index = _
    omega

/-- The length of a tree over a text follows the text. -/
theorem Turns.newLength (turns : edit.Turns before after) (nonempty : 0 < before.size) :
    (EditMap.ofEdit edit before.size).newLength 0 (0 + before.size) = after.size := by
  have ordered := EditMap.ordered_ofEdit edit before.size
  have sizes := turns.size_add
  have inside := turns.inside
  rw [EditMap.newLength_eq ordered (Nat.le_add_right _ _), EditMap.map_ofEdit_zero edit nonempty,
    Nat.zero_add, EditMap.map_ofEdit_length turns.within]
  omega

end Edit

/-! ## Edited trees -/

namespace SyntaxTree

/-- The trees and texts that come from a tree over a text by one edit after the other, as long as no
text that is edited is empty. -/
inductive Edited (tree : SyntaxTree) (text : Text) : SyntaxTree → Text → Prop
  /-- Before the first edit. -/
  | start : Edited tree text tree text
  /-- After one more edit, whose copies get any ids. -/
  | edit {current : SyntaxTree} {before after : Text} {edit : Edit}
    (history : Edited tree text current before) (nonempty : 0 < before.size)
    (turns : edit.Turns before after) (nextId : Nat) :
    Edited tree text (current.edit edit nextId).1 after

/-- What holds of a tree over a text that comes from an original tree over a source text. -/
structure Faithful (original : SyntaxTree) (source : Text) (tree : SyntaxTree) (text : Text) :
    Prop where
  /-- The children of every node fill it. -/
  tiled : tree.root.Tiled
  /-- Extents cover those of the unchanged parts below. -/
  covering : tree.root.Covering
  /-- The tree spans the text. -/
  length : tree.length = text.size
  /-- Unchanged parts are original ones, and their bytes are those over which they were made. -/
  unchanged : ∀ path offset part, tree.root.part? path = some (offset, part) →
    part.hasChanges = false → ∃ place, original.root.part? path = some (place, part) ∧
      ∀ index < part.extent, text.byte? (offset + index) = source.byte? (place + index)

variable {original tree : SyntaxTree} {source text : Text}

theorem Faithful.start (built : original.root.Built) (spans : original.length = source.size) :
    Faithful original source original source where
  tiled := built.tiled
  covering := built.covering
  length := spans
  unchanged _ offset _ found _ := ⟨offset, found, fun _ _ => rfl⟩

/-- One edit keeps a tree faithful. -/
theorem Faithful.edit (faithful : Faithful original source tree text) (nonempty : 0 < text.size)
    {edit : Edit} {after : Text} (turns : edit.Turns text after) (nextId : Nat) :
    Faithful original source (tree.edit edit nextId).1 after := by
  obtain ⟨tiled, covering, spans, unchanged⟩ := faithful
  have root : (tree.edit edit nextId).1.root = (Subtree.editChanged
      (.ofEdit edit text.size) 0 tree.root ⟨nextId, []⟩).1 := by
    rw [← spans]
    rfl
  have ordered := EditMap.ordered_ofEdit edit text.size
  refine ⟨?_, ?_, ?_, fun path offset part found isUnchanged => ?_⟩
  · rw [root]
    exact tiled.editChanged ordered 0 _
  · rw [root]
    exact Subtree.Covering.editChanged ordered tiled covering 0 _
  · rw [SyntaxTree.length, root, (Subtree.editChanged_data _ _ _ _).2.1, ← turns.newLength nonempty,
      ← spans]
    rfl
  · rw [root] at found
    obtain ⟨middle, before, there, moved, ⟨rfl, spared⟩ | ⟨_, rfl⟩⟩ :=
      Subtree.part_editChanged ordered tiled covering 0 _ found
    · obtain ⟨place, origin, bytes⟩ := unchanged path middle part there isUnchanged
      refine ⟨place, origin, fun index inside => ?_⟩
      rw [EditMap.map_ofEdit_zero edit nonempty, Nat.zero_add, Nat.zero_add] at moved
      have same := turns.byte?_of_spares (spared isUnchanged) inside
      rw [Nat.zero_add] at same
      rw [moved, same, bytes index inside]
    · rw [(Subtree.editChanged_data _ _ before _).1] at isUnchanged
      cases isUnchanged

theorem Edited.faithful (edited : Edited original source tree text) (built : original.root.Built)
    (spans : original.length = source.size) : Faithful original source tree text := by
  induction edited with
  | start => exact .start built spans
  | edit history nonempty turns nextId induction => exact induction.edit nonempty turns nextId

/-- After any edits a part that is not marked as changed is an object of the original tree, at the
path at which it was.  Wherever it was and now is, the bytes of its extent are the same, and the
same ones of them are past the end of the text. -/
theorem Edited.unchanged_part (edited : Edited original source tree text)
    (built : original.root.Built) (spans : original.length = source.size) {path : List Nat}
    {offset : Nat} {part : Subtree} (found : tree.root.part? path = some (offset, part))
    (unchanged : part.hasChanges = false) :
    ∃ place, original.root.part? path = some (place, part) ∧
      ∀ index < part.length + part.lookahead,
        text.byte? (offset + index) = source.byte? (place + index) :=
  (edited.faithful built spans).unchanged path offset part found unchanged

/-- A token of one byte that looks at the byte behind it. -/
def letter (id : Nat) : Subtree :=
  .ofLeaf id { (default : LeafSpec) with length := 1, lookahead := 1 }

/-- A tree over a text of three bytes, with a node above the last two of them. -/
def threeLetters : SyntaxTree :=
  ⟨.ofChildren 4 default [letter 0, .ofChildren 3 default [letter 1, letter 2]], default⟩

theorem built_threeLetters : threeLetters.root.Built := by
  refine .node _ _ fun child member => ?_
  simp only [List.mem_cons, List.not_mem_nil, or_false] at member
  rcases member with rfl | rfl
  · exact .token _ _
  · refine .node _ _ fun child member => ?_
    simp only [List.mem_cons, List.not_mem_nil, or_false] at member
    rcases member with rfl | rfl <;> exact .token _ _

/-- The middle letter gives way to two letters, then the first one. -/
theorem unchanged_part_threeLetters :
    let source := Text.ofString "abc"
    let first := Edit.replace source ⟨1, 2⟩ (.ofString "xy")
    let second := Edit.replace first.1 ⟨0, 1⟩ (.ofString "uvw")
    let tree := ((threeLetters.edit first.2 5).1.edit second.2 8).1
    tree.root.part? [1, 1] = some (5, letter 2) ∧
      ∃ place, threeLetters.root.part? [1, 1] = some (place, letter 2) ∧
        ∀ index < (letter 2).length + (letter 2).lookahead,
          second.1.byte? (5 + index) = source.byte? (place + index) := by
  intro source first second tree
  have edited : Edited threeLetters source tree second.1 :=
    .edit
      (.edit .start (by decide +kernel)
        (Edit.turns_replace (by decide +kernel) (by decide) _) 5)
      (by decide +kernel) (Edit.turns_replace (by decide +kernel) (by decide) _) 8
  have found : tree.root.part? [1, 1] = some (5, letter 2) := by rfl
  exact ⟨found, edited.unchanged_part built_threeLetters (by decide +kernel) found (by rfl)⟩

end SyntaxTree

end IncrementalGlr
