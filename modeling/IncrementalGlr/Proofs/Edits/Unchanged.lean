import IncrementalGlr.Proofs.Edits.Parts

/-!
# Unchanged parts of edited trees

A part that an edit does not mark as changed is the same object at the same path as before, and the
bytes of its extent are the ones it was made over.  A changed node keeps its lookahead while its
length moves with the edit; still its extent covers those of the unchanged parts below it.  This is
what carries over to the next edit, which tests only the extent of the topmost parts that it leaves
alone.
-/

namespace IncrementalGlr

/-! ## Moved offsets -/

/-- Whether the offsets of an edit are in order and inside a text of the given length. -/
structure Edit.Within (edit : Edit) (length : Nat) : Prop where
  /-- The removed range is a range. -/
  removes : edit.start ≤ edit.oldEnd
  /-- It lies inside the text. -/
  inside : edit.oldEnd ≤ length
  /-- The inserted range is a range. -/
  inserts : edit.start ≤ edit.newEnd

namespace EditMap

variable {map : EditMap}

/-- Whether an edit comes behind a range of offsets or before it, and moves it accordingly. -/
def Spares (map : EditMap) (first extent : Nat) : Prop :=
  first + extent ≤ map.start ∧ map.map first = first ∨
    map.oldEnd ≤ first ∧ map.map first = first - map.oldEnd + map.newEnd

/-- An untouched subtree is spared with every range inside its extent, and all of it moves by the
same amount. -/
theorem spares_of_untouched (ordered : map.Ordered) {first length lookahead : Nat}
    (untouched : map.isUntouched first (first + length) lookahead = true) {offset extent : Nat}
    (inside : offset ≤ length) (covered : offset + extent ≤ length + lookahead) :
    map.Spares (first + offset) extent ∧ map.map (first + offset) = map.map first + offset := by
  obtain ⟨old, new⟩ := ordered
  cases atEnd : map.atEnd with
  | false =>
      simp only [isUntouched, atEnd, Bool.false_eq_true, if_false, Bool.or_eq_true,
        Bool.and_eq_true, decide_eq_true_eq] at untouched
      simp only [Spares, EditMap.map, atEnd, Bool.false_eq_true, if_false]
      split_ifs <;> omega
  | true =>
      simp only [isUntouched, atEnd, if_true, Bool.or_eq_true,
        Bool.and_eq_true, decide_eq_true_eq] at untouched
      simp only [Spares, EditMap.map, atEnd, if_true]
      split_ifs <;> omega

/-- The end of a subtree moves at least as far as its spared parts do. -/
theorem le_map_of_spares (ordered : map.Ordered) {first extent : Nat} (stop lookahead : Nat)
    (spared : map.Spares first extent) (inside : first ≤ stop)
    (covered : first + extent ≤ stop + lookahead) :
    map.map first + extent ≤ map.map stop + lookahead := by
  obtain ⟨old, new⟩ := ordered
  cases atEnd : map.atEnd with
  | false =>
      simp only [Spares, EditMap.map, atEnd, Bool.false_eq_true, if_false] at spared ⊢
      split_ifs at spared ⊢ <;> omega
  | true =>
      simp only [Spares, EditMap.map, atEnd, if_true] at spared ⊢
      split_ifs at spared ⊢ <;> omega

/-- The start of a text that is not empty stays where it is. -/
theorem map_ofEdit_zero (edit : Edit) {length : Nat} (nonempty : 0 < length) :
    (ofEdit edit length).map 0 = 0 := by
  simp only [ofEdit, EditMap.map, decide_eq_true_eq]
  split_ifs <;> omega

/-- Offsets that are in order and inside the text are taken as they are. -/
theorem ofEdit_within {edit : Edit} {length : Nat} (within : edit.Within length) :
    ofEdit edit length = ⟨edit.start, edit.oldEnd, edit.newEnd, length ≤ edit.start⟩ := by
  obtain ⟨removes, inside, inserts⟩ := within
  simp only [ofEdit, EditMap.mk.injEq, decide_eq_decide]
  omega

/-- The end of a text moves to the end of the edited text, also if the edit is there. -/
theorem map_ofEdit_length {edit : Edit} {length : Nat} (within : edit.Within length) :
    (ofEdit edit length).map length = length - edit.oldEnd + edit.newEnd := by
  have removes := within.removes
  have inside := within.inside
  rw [ofEdit_within within]
  simp only [EditMap.map, decide_eq_true_eq]
  split_ifs <;> omega

end EditMap

/-! ## One edit -/

namespace Subtree

variable {map : EditMap}

/-- The changed copy of a subtree: a token gets a new length, a node also gets edited children. -/
theorem editChanged_cases (map : EditMap) (start : Nat) (subtree : Subtree)
    (progress : EditProgress) :
    let length := map.newLength start (start + subtree.length)
    (subtree.isLeaf = true ∧
      ∃ id, (editChanged map start subtree progress).1 = subtree.resized id length) ∨
    (subtree.isLeaf = false ∧ ∃ id, (editChanged map start subtree progress).1 =
      subtree.rebuilt id length (editAll map start subtree.children progress).1) := by
  obtain ⟨data, children⟩ := subtree
  by_cases token : data.flags.leaf = true
  · refine .inl ⟨token, ?_⟩
    rw [editChanged]
    simp only [token, if_true]
    exact ⟨_, rfl⟩
  · refine .inr ⟨Bool.not_eq_true _ ▸ token, ?_⟩
    rw [editChanged, if_neg token]
    exact ⟨_, rfl⟩

/-- A changed copy is marked.  It spans the range that its original moves to and keeps the
lookahead. -/
theorem editChanged_data (map : EditMap) (start : Nat) (subtree : Subtree)
    (progress : EditProgress) :
    (editChanged map start subtree progress).1.hasChanges = true ∧
      (editChanged map start subtree progress).1.length =
        map.newLength start (start + subtree.length) ∧
      (editChanged map start subtree progress).1.lookahead = subtree.lookahead := by
  obtain ⟨-, id, same⟩ | ⟨-, id, same⟩ := editChanged_cases map start subtree progress <;>
    · rw [same]
      exact ⟨rfl, rfl, rfl⟩

/-- Whether an edit makes a subtree at a place, below the root, into another one: it is untouched
and stays, or the other one is a changed copy. -/
def EditsTo (map : EditMap) (place : Nat) (subtree edited : Subtree) : Prop :=
  map.isUntouched place (place + subtree.length) subtree.lookahead = true ∧ edited = subtree ∨
    ∃ progress, edited = (editChanged map place subtree progress).1

theorem editAll_cons (map : EditMap) (start : Nat) (child : Subtree) (rest : List Subtree)
    (progress : EditProgress) :
    ∃ edited middle, EditsTo map start child edited ∧
      (editAll map start (child :: rest) progress).1 =
        edited :: (editAll map (start + child.length) rest middle).1 := by
  by_cases untouched : map.isUntouched start (start + child.length) child.lookahead = true
  · refine ⟨child, progress, .inl ⟨untouched, rfl⟩, ?_⟩
    rw [editAll, if_pos untouched]
    rfl
  · refine ⟨(editChanged map start child progress).1, (editChanged map start child progress).2,
      .inr ⟨progress, rfl⟩, ?_⟩
    rw [editAll, if_neg untouched]
    rfl

theorem EditsTo.length (ordered : map.Ordered) {place : Nat} {subtree edited : Subtree}
    (edits : EditsTo map place subtree edited) :
    edited.length = map.newLength place (place + subtree.length) := by
  obtain ⟨untouched, rfl⟩ | ⟨progress, rfl⟩ := edits
  · exact (EditMap.newLength_untouched ordered untouched).symm
  · exact (editChanged_data map place subtree progress).2.1

/-- Each edited child comes from the child at its place. -/
theorem getElem?_editAll (map : EditMap) (start : Nat) (subtrees : List Subtree)
    (progress : EditProgress) {index : Nat} {edited : Subtree}
    (found : (editAll map start subtrees progress).1[index]? = some edited) :
    ∃ child, subtrees[index]? = some child ∧
      EditsTo map (start + totalLength (subtrees.take index)) child edited := by
  induction subtrees generalizing start progress index with
  | nil => cases found
  | cons child rest induction =>
      obtain ⟨first, middle, edits, same⟩ := editAll_cons map start child rest progress
      rw [same] at found
      cases index with
      | zero =>
          obtain rfl := Option.some.inj found
          exact ⟨child, rfl, edits⟩
      | succ index =>
          obtain ⟨other, there, otherEdits⟩ :=
            induction (start + child.length) middle (by simpa using found)
          refine ⟨other, by simpa using there, ?_⟩
          rwa [List.take_succ_cons, totalLength_cons, ← Nat.add_assoc]

/-- The edited children before any of them fill the range that the children before it move to. -/
theorem totalLength_take_editAll (ordered : map.Ordered) (start : Nat) (subtrees : List Subtree)
    (progress : EditProgress) (index : Nat) :
    totalLength ((editAll map start subtrees progress).1.take index) =
      map.newLength start (start + totalLength (subtrees.take index)) := by
  have nothing (start : Nat) : totalLength [] = map.newLength start (start + totalLength []) := by
    simp [totalLength_nil, EditMap.newLength]
  induction subtrees generalizing start progress index with
  | nil =>
      change totalLength (([] : List Subtree).take index) = _
      rw [List.take_nil]
      exact nothing start
  | cons child rest induction =>
      obtain ⟨first, middle, edits, same⟩ := editAll_cons map start child rest progress
      cases index with
      | zero => exact nothing start
      | succ index =>
          rw [same, List.take_succ_cons, List.take_succ_cons, totalLength_cons, totalLength_cons,
            induction, edits.length ordered, ← Nat.add_assoc]
          exact EditMap.newLength_add ordered (Nat.le_add_right _ _) (Nat.le_add_right _ _)

/-- Every edited child starts where the start of its original moves to. -/
theorem map_add_totalLength_take_editAll (ordered : map.Ordered) (start : Nat)
    (subtrees : List Subtree) (progress : EditProgress) (index : Nat) :
    map.map start + totalLength ((editAll map start subtrees progress).1.take index) =
      map.map (start + totalLength (subtrees.take index)) := by
  have order := EditMap.map_mono ordered
    (Nat.le_add_right start (totalLength (subtrees.take index)))
  rw [totalLength_take_editAll ordered, EditMap.newLength_eq ordered (Nat.le_add_right _ _)]
  omega

theorem Tiled.editChanged (ordered : map.Ordered) {subtree : Subtree} (tiled : subtree.Tiled)
    (start : Nat) (progress : EditProgress) : (editChanged map start subtree progress).1.Tiled := by
  induction tiled generalizing start progress with
  | @mk subtree bare filled under induction =>
      obtain ⟨token, id, same⟩ | ⟨node, id, same⟩ := editChanged_cases map start subtree progress
      · rw [same]
        exact .mk (fun _ => rfl) (fun node => absurd (token.symm.trans node) (by simp))
          fun _ member => absurd member List.not_mem_nil
      · rw [same]
        refine .mk (fun token => absurd (node.symm.trans token) (by simp)) (fun _ => ?_)
          fun edited member => ?_
        · rw [length_rebuilt, filled node]
          have whole := totalLength_take_editAll ordered start subtree.children progress
            (max subtree.children.length (editAll map start subtree.children progress).1.length)
          rw [List.take_of_length_le (le_max_left ..), List.take_of_length_le (le_max_right ..)]
            at whole
          exact whole.symm
        · obtain ⟨index, found⟩ := List.getElem?_of_mem member
          obtain ⟨child, there, ⟨-, rfl⟩ | ⟨progress, rfl⟩⟩ :=
            getElem?_editAll map start subtree.children _ found
          · exact under _ (List.mem_of_getElem? there)
          · exact induction child (List.mem_of_getElem? there) _ progress

theorem Tiled.children_editChanged {subtree : Subtree} (tiled : subtree.Tiled) (map : EditMap)
    (start : Nat) (progress : EditProgress) :
    (Subtree.editChanged map start subtree progress).1.children =
      (editAll map start subtree.children progress).1 := by
  obtain ⟨token, id, same⟩ | ⟨-, id, same⟩ := editChanged_cases map start subtree progress
  · rw [same, tiled.bare token]
    rfl
  · rw [same]
    rfl

/-- Every part of a changed copy comes from the part at the same path.  Its place moves with the
edit.  It is that very part, spared by the edit if it is unchanged, or a changed copy of it. -/
theorem part_editChanged (ordered : map.Ordered) {subtree : Subtree} (tiled : subtree.Tiled)
    (covering : subtree.Covering) (start : Nat) (progress : EditProgress) {path : List Nat}
    {offset : Nat} {edited : Subtree}
    (found : (editChanged map start subtree progress).1.part? path = some (offset, edited)) :
    ∃ before part, subtree.part? path = some (before, part) ∧
      map.map start + offset = map.map (start + before) ∧
      (edited = part ∧ (part.hasChanges = false → map.Spares (start + before) part.extent) ∨
        ∃ progress, edited = (Subtree.editChanged map (start + before) part progress).1) := by
  induction path generalizing subtree start progress offset with
  | nil =>
      obtain ⟨rfl, rfl⟩ := part?_nil_eq_some.1 found
      exact ⟨0, subtree, rfl, rfl, .inr ⟨progress, rfl⟩⟩
  | cons index path induction =>
      obtain ⟨editedChild, within, first, rest, rfl⟩ := part?_cons_eq_some.1 found
      rw [tiled.children_editChanged] at first ⊢
      obtain ⟨child, there, edits⟩ := getElem?_editAll map start subtree.children progress first
      have place :=
        map_add_totalLength_take_editAll ordered start subtree.children progress index
      have childTiled := tiled.child child (List.mem_of_getElem? there)
      have childCovering := covering.child there
      obtain ⟨untouched, rfl⟩ | ⟨childProgress, rfl⟩ := edits
      · have inside : within ≤ editedChild.length :=
          (Nat.le_add_right _ _).trans (childTiled.part_inside rest)
        have moved := (EditMap.spares_of_untouched ordered untouched inside
          (Nat.add_zero within ▸ inside.trans (Nat.le_add_right _ _))).2
        refine ⟨_, edited, part?_cons_eq_some.2 ⟨_, within, there, rest, rfl⟩, ?_,
          .inl ⟨rfl, fun unchanged => ?_⟩⟩
        · rw [← Nat.add_assoc, place, ← Nat.add_assoc, moved]
        · rw [← Nat.add_assoc]
          exact (EditMap.spares_of_untouched ordered untouched inside
            (childCovering.own rest unchanged)).1
      · obtain ⟨before, part, below, moved, origin⟩ :=
          induction childTiled childCovering _ childProgress rest
        refine ⟨_, part, part?_cons_eq_some.2 ⟨child, before, there, below, rfl⟩, ?_, ?_⟩
        · rw [← Nat.add_assoc, place, moved, Nat.add_assoc]
        · rwa [← Nat.add_assoc]

/-- The changed copy of a covering subtree is covering: unchanged parts move no further than the end
of any subtree above them. -/
theorem Covering.editChanged (ordered : map.Ordered) {subtree : Subtree} (tiled : subtree.Tiled)
    (covering : subtree.Covering) (start : Nat) (progress : EditProgress) :
    (editChanged map start subtree progress).1.Covering := by
  intro path offset edited found below within inner innerFound unchanged
  obtain ⟨before, part, partFound, moved, ⟨rfl, -⟩ | ⟨partProgress, rfl⟩⟩ :=
    part_editChanged ordered tiled covering start progress found
  · exact covering path before edited partFound below within inner innerFound unchanged
  · have partTiled := tiled.of_part partFound
    obtain ⟨innerBefore, original, originalFound, innerMoved, ⟨rfl, spared⟩ | ⟨_, rfl⟩⟩ :=
      part_editChanged ordered partTiled (Covering.of_part covering partFound) (start + before)
        partProgress innerFound
    · have inside := partTiled.part_inside originalFound
      have covered := covering path before part partFound below innerBefore inner originalFound
        unchanged
      have order := EditMap.map_mono ordered (Nat.le_add_right (start + before) part.length)
      obtain ⟨-, length, lookahead⟩ := editChanged_data map (start + before) part partProgress
      rw [EditMap.newLength_eq ordered (Nat.le_add_right _ _)] at length
      simp only [extent, length, lookahead] at covered spared ⊢
      have reach := EditMap.le_map_of_spares ordered (start + before + part.length) part.lookahead
        (spared unchanged) (by omega) (by omega)
      omega
    · rw [(editChanged_data map _ original _).1] at unchanged
      cases unchanged

end Subtree

/-!
## Properties of all parts

A property that holds of a subtree and of all parts below it still does so after an edit, if it
survives the change of length and children in every single copy.
-/

namespace Subtree

/-- Whether a property holds of a subtree and of all parts below it. -/
inductive Throughout (holds : Subtree → Prop) : Subtree → Prop
  /-- A subtree with the property whose children have it throughout. -/
  | mk {subtree : Subtree} (here : holds subtree)
    (under : ∀ child ∈ subtree.children, Throughout holds child) : Throughout holds subtree

variable {holds : Subtree → Prop} {subtree part : Subtree} {path : List Nat} {offset : Nat}

theorem Throughout.here (all : Throughout holds subtree) : holds subtree := by
  cases all
  assumption

theorem Throughout.under (all : Throughout holds subtree) :
    ∀ child ∈ subtree.children, Throughout holds child := by
  cases all
  assumption

theorem Throughout.mono {weaker : Subtree → Prop} (all : Throughout holds subtree)
    (implies : ∀ subtree, holds subtree → weaker subtree) : Throughout weaker subtree := by
  induction all with
  | mk here under induction => exact .mk (implies _ here) induction

theorem Throughout.of_part (all : Throughout holds subtree)
    (found : subtree.part? path = some (offset, part)) : Throughout holds part := by
  induction path generalizing subtree offset with
  | nil =>
      obtain ⟨-, rfl⟩ := part?_nil_eq_some.1 found
      exact all
  | cons index path induction =>
      obtain ⟨child, within, first, rest, -⟩ := part?_cons_eq_some.1 found
      exact induction (all.under child (List.mem_of_getElem? first)) rest

/-- Ids do not matter for a property that does not look at them. -/
theorem Throughout.of_erase (blind : ∀ subtree : Subtree, holds subtree.erase → holds subtree)
    (all : Throughout holds subtree.erase) : Throughout holds subtree := by
  generalize same : subtree.erase = erased at all
  induction all generalizing subtree with
  | mk here under induction =>
      subst same
      refine .mk (blind subtree here) fun child member => ?_
      exact induction child.erase (by simpa using ⟨child, member, rfl⟩) rfl

section Edits

variable {map : EditMap}

mutual

theorem Throughout.plainEdit
    (kept : ∀ start subtree, holds subtree → holds (Subtree.plainEdit map start subtree))
    (start : Nat) {subtree : Subtree} (all : Throughout holds subtree) :
    Throughout holds (plainEdit map start subtree) := by
  cases subtree with
  | mk data children =>
      refine .mk (kept start _ all.here) ?_
      rw [Subtree.plainEdit]
      split
      · exact nofun
      · exact Throughout.plainEditAll kept start all.under

theorem Throughout.plainEditAll
    (kept : ∀ start subtree, holds subtree → holds (Subtree.plainEdit map start subtree))
    (start : Nat) {subtrees : List Subtree} (all : ∀ child ∈ subtrees, Throughout holds child) :
    ∀ child ∈ plainEditAll map start subtrees, Throughout holds child := by
  cases subtrees with
  | nil => exact nofun
  | cons child rest =>
      obtain ⟨first, others⟩ := List.forall_mem_cons.1 all
      rw [Subtree.plainEditAll]
      refine List.forall_mem_cons.2 ⟨?_, Throughout.plainEditAll kept _ others⟩
      split
      · exact first
      · exact Throughout.plainEdit kept start first

end

theorem Throughout.editChanged
    (kept : ∀ start subtree progress, holds subtree →
      holds (Subtree.editChanged map start subtree progress).1)
    (all : Throughout holds subtree) (start : Nat) (progress : EditProgress) :
    Throughout holds (editChanged map start subtree progress).1 := by
  induction all generalizing start progress with
  | @mk subtree here under induction =>
      refine .mk (kept start subtree progress here) ?_
      obtain ⟨-, id, same⟩ | ⟨-, id, same⟩ := editChanged_cases map start subtree progress
      · rw [same]
        exact nofun
      · rw [same]
        intro edited member
        obtain ⟨index, found⟩ := List.getElem?_of_mem member
        obtain ⟨child, there, ⟨-, rfl⟩ | ⟨progress, rfl⟩⟩ :=
          getElem?_editAll map start subtree.children _ found
        · exact under _ (List.mem_of_getElem? there)
        · exact induction child (List.mem_of_getElem? there) _ progress

end Edits

end Subtree

end IncrementalGlr
