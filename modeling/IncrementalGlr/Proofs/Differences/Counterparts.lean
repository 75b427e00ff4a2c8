import IncrementalGlr.Proofs.Differences.Ranges
import IncrementalGlr.Proofs.Edits.Placement
import IncrementalGlr.Proofs.Made
import IncrementalGlr.Proofs.Sharing.History

/-!
# Counterparts outside the changed ranges

A token of the new tree that no changed range touches is also in the old tree, at the same path and
the same offset.  On the way down to it the comparison cannot report a pair as a whole, since the
range of such a pair would hold the token.  So it meets pairs of one shape at one offset until it
comes to the token itself or to an object that both trees share.
-/

namespace IncrementalGlr

namespace Subtree

/-- Whether no part of a subtree is marked as changed. -/
def Unmarked (subtree : Subtree) : Prop :=
  ∀ path offset part, subtree.part? path = some (offset, part) → part.hasChanges = false

/-- Whether ids tell the parts of two subtrees apart: parts with one id are the same object. -/
def ToldApart (old new : Subtree) : Prop :=
  ∀ oldPath oldOffset before newPath newOffset after,
    old.part? oldPath = some (oldOffset, before) → new.part? newPath = some (newOffset, after) →
      before.id = after.id → before = after

/-- Whether two subtrees have parts at the end of a path that stand at the same offset and have the
same symbol and length, and are both tokens or extra if one of them is. -/
def AgreeAt (path : List Nat) (old new : Subtree) : Prop :=
  ∃ offset before after, old.part? path = some (offset, before) ∧
    new.part? path = some (offset, after) ∧ before.symbol = after.symbol ∧
      before.length = after.length ∧ before.isLeaf = after.isLeaf ∧ before.isExtra = after.isExtra

variable {old new oldChild newChild part : Subtree} {index offset : Nat} {path above : List Nat}

theorem part?_child (found : new.children[index]? = some newChild)
    (below : newChild.part? path = some (offset, part)) :
    new.part? (index :: path) = some (totalLength (new.children.take index) + offset, part) :=
  part?_cons_eq_some.2 ⟨newChild, offset, found, below, rfl⟩

/-- There are parts all the way down to a part. -/
theorem exists_part?_of_prefix (found : new.part? path = some (offset, part))
    (start : above <+: path) : ∃ place between, new.part? above = some (place, between) := by
  induction above generalizing new path offset with
  | nil => exact ⟨0, new, rfl⟩
  | cons index above induction =>
      obtain ⟨rest, rfl⟩ := start
      obtain ⟨child, within, first, later, -⟩ := part?_cons_eq_some.1 found
      obtain ⟨place, between, there⟩ := induction later (List.prefix_append above rest)
      exact ⟨_, between, part?_child first there⟩

theorem Unmarked.own (unmarked : new.Unmarked) : new.hasChanges = false := unmarked [] 0 new rfl

theorem Unmarked.child (unmarked : new.Unmarked) (found : new.children[index]? = some newChild) :
    newChild.Unmarked :=
  fun path _ part below => unmarked (index :: path) _ part (part?_child found below)

theorem ToldApart.own (apart : ToldApart old new) (same : old.id = new.id) : old = new :=
  apart [] 0 old [] 0 new rfl rfl same

theorem ToldApart.child (apart : ToldApart old new)
    (oldFound : old.children[index]? = some oldChild)
    (newFound : new.children[index]? = some newChild) : ToldApart oldChild newChild :=
  fun oldPath _ before newPath _ after oldBelow newBelow =>
    apart (index :: oldPath) _ before (index :: newPath) _ after (part?_child oldFound oldBelow)
      (part?_child newFound newBelow)

theorem agreeAt_of_sameShape (shape : old.sameShape new = true) : AgreeAt [] old new := by
  obtain ⟨symbol, length, isLeaf, isExtra, -⟩ := sameShape_iff.1 shape
  exact ⟨0, old, new, rfl, rfl, symbol, length, isLeaf, isExtra⟩

theorem agreeAt_self (found : new.part? path = some (offset, part)) (start : above <+: path) :
    AgreeAt above new new := by
  obtain ⟨place, between, there⟩ := exists_part?_of_prefix found start
  exact ⟨place, between, between, there, there, rfl, rfl, rfl, rfl⟩

theorem AgreeAt.of_child (agree : AgreeAt path oldChild newChild)
    (oldFound : old.children[index]? = some oldChild)
    (newFound : new.children[index]? = some newChild)
    (place : totalLength (old.children.take index) = totalLength (new.children.take index)) :
    AgreeAt (index :: path) old new := by
  obtain ⟨offset, before, after, oldBelow, newBelow, agreement⟩ := agree
  exact ⟨_, before, after, part?_child oldFound oldBelow, place ▸ part?_child newFound newBelow,
    agreement⟩

/-- A child of the new one of two nodes of one shape has a child of the old one beside it. -/
theorem exists_child_of_sameShape (shape : old.sameShape new = true)
    (found : new.children[index]? = some newChild) :
    ∃ oldChild, old.children[index]? = some oldChild := by
  obtain ⟨-, -, -, -, count⟩ := sameShape_iff.1 shape
  have inside := (List.getElem?_eq_some_iff.1 found).1
  exact ⟨_, List.getElem?_eq_getElem (count ▸ inside)⟩

/-- A token of the new subtree that no difference touches is in the old one as well, which then
stands at the same offset, and the two agree all the way down to it. -/
theorem counterpart_of_untouched {oldStart newStart : Nat} {leaf : Subtree}
    (newTiled : new.Tiled) (unmarked : new.Unmarked)
    (apart : ToldApart old new) (found : new.part? path = some (offset, leaf))
    (token : leaf.isLeaf = true) (nonempty : 0 < leaf.length)
    (untouched : ∀ range ∈ old.differences oldStart newStart new,
      ∀ byte, newStart + offset ≤ byte → byte < newStart + offset + leaf.length →
        ¬ range.Holds byte) :
    oldStart = newStart ∧
      (∃ counterpart, old.part? path = some (offset, counterpart) ∧
        counterpart.hasChanges = false) ∧
      ∀ above, above <+: path → AgreeAt above old new := by
  induction path generalizing old new oldStart newStart offset with
  | nil =>
      obtain ⟨rfl, rfl⟩ := part?_nil_eq_some.1 found
      have first := fun range member =>
        untouched range member newStart (by omega) (by omega)
      obtain ⟨rfl, same, -⟩ | ⟨rfl, shape, -, same⟩ | ⟨rfl, shape, node, -⟩ | same :=
        differences_cases oldStart newStart old leaf
      · obtain rfl := apart.own same
        refine ⟨rfl, ⟨old, rfl, unmarked.own⟩, fun above start => ?_⟩
        exact agreeAt_self found start
      · refine ⟨rfl, ⟨old, rfl, ?_⟩, fun above start => ?_⟩
        · -- a marked token is reported and holds its own first byte
          cases marked : old.hasChanges with
          | false => rfl
          | true =>
              rw [same, if_pos marked] at first
              exact absurd ⟨le_rfl, Nat.lt_add_of_pos_right nonempty⟩
                (first _ List.mem_cons_self)
        · obtain rfl := List.prefix_nil.1 start
          exact agreeAt_of_sameShape shape
      · obtain ⟨-, -, kind, -⟩ := sameShape_iff.1 shape
        rw [node, token] at kind
        cases kind
      · rw [same] at first
        exact absurd ⟨min_le_right _ _, lt_max_of_lt_right (Nat.lt_add_of_pos_right nonempty)⟩
          (first _ List.mem_cons_self)
  | cons index path induction =>
      obtain ⟨newChild, within, newFound, below, rfl⟩ := part?_cons_eq_some.1 found
      have inside := newTiled.part_inside found
      obtain ⟨rfl, same, -⟩ | ⟨rfl, shape, bare, -⟩ | ⟨rfl, shape, -, same⟩ | same :=
        differences_cases oldStart newStart old new
      · obtain rfl := apart.own same
        exact ⟨rfl, ⟨leaf, found, unmarked _ _ _ found⟩,
          fun above start => agreeAt_self found start⟩
      · obtain ⟨-, -, kind, -⟩ := sameShape_iff.1 shape
        rw [bare, newTiled.node_of_child newFound] at kind
        cases kind
      · obtain ⟨oldChild, oldFound⟩ := exists_child_of_sameShape shape newFound
        have reported := differences_subset_differencesAll oldFound newFound oldStart oldStart
        rw [← same] at reported
        obtain ⟨places, ⟨counterpart, there, unchanged⟩, agree⟩ :=
          induction (newTiled.child newChild (List.mem_of_getElem? newFound))
            (unmarked.child newFound) (apart.child oldFound newFound) below
            fun range member byte lower upper => untouched range (reported member) byte
              (by omega) (by omega)
        have place := Nat.add_left_cancel places
        refine ⟨rfl, ⟨counterpart, ?_, unchanged⟩, fun above start => ?_⟩
        · rw [← place]
          exact part?_child oldFound there
        · obtain rfl | ⟨rest, rfl, later⟩ := List.prefix_cons_iff.1 start
          · exact agreeAt_of_sameShape shape
          · exact (agree rest later).of_child oldFound newFound place
      · have whole := untouched _ (same ▸ List.mem_cons_self) (newStart + _) le_rfl (by omega)
        refine absurd ⟨?_, ?_⟩ whole <;> dsimp only <;> omega

/-- Subtrees as they were made are not marked. -/
theorem Built.unmarked (built : new.Built) : new.Unmarked :=
  fun _ _ _ found => (built.extent_part found).1.unchanged

end Subtree

/-- Parts of known subtrees are known. -/
theorem Store.Valid.knows_part {memory : Memory} {store : Store} (valid : store.Valid memory)
    {subtree part : Subtree} {path : List Nat} {offset : Nat} (known : memory.Knows subtree)
    (found : subtree.part? path = some (offset, part)) : memory.Knows part := by
  induction path generalizing subtree offset with
  | nil =>
      obtain ⟨-, rfl⟩ := Subtree.part?_nil_eq_some.1 found
      exact known
  | cons index path induction =>
      obtain ⟨child, within, first, rest, -⟩ := Subtree.part?_cons_eq_some.1 found
      exact induction (valid.closed known child (List.mem_of_getElem? first)) rest

/-- Ids tell the parts of all trees at hand apart. -/
theorem History.toldApart {nextId : Nat} {parsers : List Parser} {trees : List SyntaxTree}
    (history : History nextId parsers trees) {old new : SyntaxTree} (oldListed : old ∈ trees)
    (newListed : new ∈ trees) : old.root.ToldApart new.root := by
  obtain ⟨memory, valid, -, known⟩ := history.coherent
  exact fun _ _ _ _ _ _ oldFound newFound same =>
    (valid.knows_part (known old oldListed) oldFound).eq_of_id
      (valid.knows_part (known new newListed) newFound) same

namespace SyntaxTree

/-- The changed ranges of two trees are in ascending order with gaps between them.  A token of the
new tree of which they hold no byte has a counterpart in the old one, at the same path and the same
offset, that is not marked as changed, and the two trees agree all the way down to it. -/
theorem agree_outside_changedRanges {old new : SyntaxTree} (oldTiled : old.root.Tiled)
    (newTiled : new.root.Tiled) (unmarked : new.root.Unmarked)
    (apart : old.root.ToldApart new.root) :
    Span.Apart (old.changedRanges new) ∧
      ∀ path offset leaf, new.root.part? path = some (offset, leaf) → leaf.isLeaf = true →
        0 < leaf.length →
        (∀ range ∈ old.changedRanges new,
          ∀ byte, offset ≤ byte → byte < offset + leaf.length → ¬ range.Holds byte) →
        ∃ counterpart, old.root.part? path = some (offset, counterpart) ∧
          counterpart.symbol = leaf.symbol ∧ counterpart.length = leaf.length ∧
          counterpart.isExtra = leaf.isExtra ∧ counterpart.hasChanges = false ∧
          ∀ above, above <+: path → Subtree.AgreeAt above old.root new.root := by
  refine ⟨apart_changedRanges oldTiled newTiled,
    fun path offset leaf found token nonempty spared => ?_⟩
  have untouched : ∀ range ∈ old.root.differences 0 0 new.root,
      ∀ byte, 0 + offset ≤ byte → byte < 0 + offset + leaf.length → ¬ range.Holds byte := by
    intro range member byte lower upper held
    rw [Nat.zero_add] at lower upper
    obtain ⟨merged, listed, within⟩ := exists_changedRanges ⟨range, member, held⟩
    exact spared merged listed byte lower upper within
  obtain ⟨-, ⟨counterpart, there, unchanged⟩, agree⟩ :=
    Subtree.counterpart_of_untouched newTiled unmarked apart found token nonempty untouched
  obtain ⟨place, before, after, oldFound, newFound, symbol, length, -, isExtra⟩ :=
    agree path (List.prefix_refl path)
  obtain ⟨rfl, rfl⟩ := Prod.mk.inj (Option.some.inj (there.symm.trans oldFound))
  obtain ⟨-, rfl⟩ := Prod.mk.inj (Option.some.inj (found.symm.trans newFound))
  exact ⟨counterpart, there, symbol, length, isExtra, unchanged, agree⟩

/-- Two tokens of one byte. -/
def twoTokens : SyntaxTree := ⟨.ofChildren 2 default [.oneByte 0, .oneByte 1], default⟩

/-- The same tokens after an edit that makes the second one grow. -/
def grownToken : SyntaxTree := (twoTokens.edit (.ofOffsets 1 2 3) 3).1

/-- The tree after the edit with a new token of two bytes; the first token is shared. -/
def longToken : SyntaxTree :=
  ⟨.ofChildren 6 default [.oneByte 0, .ofLeaf 5 { (default : LeafSpec) with length := 2 }], default⟩

theorem tiled_twoTokens : twoTokens.root.Tiled := by
  refine Subtree.tiled_ofChildren _ fun child member => ?_
  simp only [List.mem_cons, List.not_mem_nil, or_false] at member
  rcases member with rfl | rfl <;> exact Subtree.tiled_ofLeaf _

theorem built_longToken : longToken.root.Built := by
  refine .node _ _ fun child member => ?_
  simp only [List.mem_cons, List.not_mem_nil, or_false] at member
  rcases member with rfl | rfl <;> exact .token _ _

theorem toldApart_longToken : grownToken.root.ToldApart longToken.root := by
  have tokens : History 2 [] [⟨.oneByte 1, default⟩, ⟨.oneByte 0, default⟩] :=
    (History.nothing.leaf _ _).leaf _ _
  have old : History 3 [] (twoTokens :: _) :=
    tokens.node default default [⟨.oneByte 0, default⟩, ⟨.oneByte 1, default⟩] (by simp)
  have edited : History 5 [] (grownToken :: _) :=
    old.edit twoTokens (.ofOffsets 1 2 3) List.mem_cons_self
  have token : History 6 [] (⟨.ofLeaf 5 { (default : LeafSpec) with length := 2 }, default⟩ :: _) :=
    edited.leaf default _
  have new : History 7 [] (longToken :: _) := token.node default default
    [⟨.oneByte 0, default⟩, ⟨.ofLeaf 5 { (default : LeafSpec) with length := 2 }, default⟩]
    (by simp)
  exact new.toldApart (by simp) List.mem_cons_self

/-- The token that has grown is the changed range, and the token before it has its counterpart. -/
theorem agree_outside_changedRanges_longToken :
    grownToken.root.Tiled ∧ longToken.root.Tiled ∧ longToken.root.Unmarked ∧
      grownToken.root.ToldApart longToken.root ∧ grownToken.changedRanges longToken = [⟨1, 3⟩] ∧
      ∃ counterpart, grownToken.root.part? [0] = some (0, counterpart) ∧
        counterpart.length = 1 ∧ counterpart.hasChanges = false ∧
        Subtree.AgreeAt [] grownToken.root longToken.root := by
  have oldTiled : grownToken.root.Tiled := tiled_edit tiled_twoTokens _ _
  have newTiled := built_longToken.tiled
  have unmarked := built_longToken.unmarked
  have ranges : grownToken.changedRanges longToken = [⟨1, 3⟩] := by decide
  obtain ⟨-, agree⟩ := agree_outside_changedRanges oldTiled newTiled unmarked
    toldApart_longToken
  obtain ⟨counterpart, found, -, length, -, unchanged, above⟩ :=
    agree [0] 0 (.oneByte 0) rfl rfl (by decide) fun range member byte _ inside held => by
      rw [ranges] at member
      obtain rfl := List.mem_singleton.1 member
      exact Nat.not_le_of_lt inside held.1
  exact ⟨oldTiled, newTiled, unmarked, toldApart_longToken, ranges, counterpart, found,
    length, unchanged, above [] List.nil_prefix⟩

end SyntaxTree

/-!
## Changed ranges cover the edit

Every byte of the inserted text lies in a changed copy: a subtree that an edit leaves alone ends
where the edit starts or begins behind the inserted text.  A changed copy is not shared with a tree
without marks, so on the way down to such a byte the comparison ends at a pair of different shapes,
or at a changed token, and reports a range with the byte in it.
-/

namespace Subtree

/-- The children hold every offset between their start and their end. -/
theorem exists_child_holding {children : List Subtree} {start offset : Nat} (lower : start ≤ offset)
    (upper : offset < start + totalLength children) :
    ∃ index child, children[index]? = some child ∧
      start + totalLength (children.take index) ≤ offset ∧
        offset < start + totalLength (children.take index) + child.length := by
  induction children generalizing start with
  | nil => exact absurd lower (not_le.2 upper)
  | cons child rest induction =>
      rw [totalLength_cons, ← Nat.add_assoc] at upper
      by_cases first : offset < start + child.length
      · exact ⟨0, child, rfl, lower, first⟩
      · obtain ⟨index, other, found, behind, before⟩ := induction (not_lt.1 first) upper
        refine ⟨index + 1, other, found, ?_⟩
        rw [List.take_succ_cons, totalLength_cons, ← Nat.add_assoc]
        exact ⟨behind, before⟩

variable {map : EditMap}

/-- No byte of an untouched subtree is inserted. -/
theorem not_inserted_of_untouched (ordered : map.Ordered) {start lookahead byte : Nat}
    {subtree : Subtree}
    (untouched : map.isUntouched start (start + subtree.length) lookahead = true)
    (lower : map.map start ≤ byte) (upper : byte < map.map start + subtree.length)
    (behind : map.start ≤ byte) : map.newEnd ≤ byte := by
  obtain ⟨⟨before, same⟩ | ⟨after, moved⟩, -⟩ := EditMap.spares_of_untouched ordered untouched
    (Nat.zero_le subtree.length) ((Nat.zero_add subtree.length).trans_le (Nat.le_add_right _ _))
  · rw [Nat.add_zero] at before same
    omega
  · rw [Nat.add_zero] at moved
    omega

/-- The differences between a changed copy and a subtree without marks hold all bytes of the copy
that are inserted. -/
theorem exists_differences_editChanged (ordered : map.Ordered) {subtree new : Subtree}
    (tiled : subtree.Tiled) (start newStart : Nat) (progress : EditProgress)
    (unmarked : new.Unmarked) (apart : ToldApart (editChanged map start subtree progress).1 new)
    {byte : Nat} (behind : map.start ≤ byte) (before : byte < map.newEnd)
    (lower : map.map start ≤ byte)
    (upper : byte < map.map start + (editChanged map start subtree progress).1.length) :
    ∃ range ∈ (editChanged map start subtree progress).1.differences (map.map start) newStart new,
      range.Holds byte := by
  induction tiled generalizing new start newStart progress with
  | @mk subtree bare filled under induction =>
      have tiled : subtree.Tiled := .mk bare filled under
      have copyTiled := tiled.editChanged ordered start progress
      have marked := (editChanged_data map start subtree progress).1
      obtain ⟨-, shared, -⟩ | ⟨same, shape, -, reported⟩ | ⟨same, shape, node, reported⟩ |
          reported := differences_cases (map.map start) newStart
            (editChanged map start subtree progress).1 new
      · -- the shared object would be marked
        rw [apart.own shared, unmarked.own] at marked
        cases marked
      · obtain ⟨-, length, -⟩ := sameShape_iff.1 shape
        rw [reported, if_pos marked]
        refine ⟨_, List.mem_cons_self, ?_, ?_⟩ <;> dsimp only <;> omega
      · rw [copyTiled.filled node] at upper
        obtain ⟨index, copy, found, first, last⟩ := exists_child_holding lower upper
        have inside := (List.getElem?_eq_some_iff.1 found).1
        obtain ⟨-, -, -, -, count⟩ := sameShape_iff.1 shape
        have newFound := List.getElem?_eq_getElem (count ▸ inside)
        have copied : (editAll map start subtree.children progress).1[index]? = some copy := by
          rwa [tiled.children_editChanged] at found
        obtain ⟨child, there, edits⟩ :=
          getElem?_editAll map start subtree.children progress copied
        have place :=
          map_add_totalLength_take_editAll ordered start subtree.children progress index
        rw [← tiled.children_editChanged] at place
        have member := List.mem_of_getElem? there
        have apartBelow := apart.child found newFound
        have below := differences_subset_differencesAll found newFound (map.map start) newStart
        rw [place] at first last below
        obtain ⟨untouched, rfl⟩ | ⟨childProgress, rfl⟩ := edits
        · exact absurd before
            (not_lt.2 (not_inserted_of_untouched ordered untouched first last behind))
        · obtain ⟨range, listed, held⟩ := induction child member _ _ childProgress
            (unmarked.child newFound) apartBelow first last
          rw [reported]
          exact ⟨range, below listed, held⟩
      · rw [reported]
        refine ⟨_, List.mem_cons_self, ?_, ?_⟩ <;> dsimp only <;> omega

end Subtree

namespace SyntaxTree

/-- If a tree that is not empty is edited within its text and compared with any tree without marks,
the changed ranges together hold every byte of the inserted text. -/
theorem changedRanges_cover_edit {edit : Edit} {tree new : SyntaxTree} (tiled : tree.root.Tiled)
    (nonempty : 0 < tree.length) (within : edit.Within tree.length) (nextId : Nat)
    (unmarked : new.root.Unmarked)
    (apart : (tree.edit edit nextId).1.root.ToldApart new.root) :
    ∀ byte, edit.start ≤ byte → byte < edit.newEnd →
      ∃ range ∈ (tree.edit edit nextId).1.changedRanges new, range.Holds byte := by
  intro byte lower upper
  have ordered : (EditMap.ofEdit edit tree.length).Ordered :=
    EditMap.ordered_ofEdit edit tree.length
  have start : (EditMap.ofEdit edit tree.length).map 0 = 0 :=
    EditMap.map_ofEdit_zero edit nonempty
  have length : (tree.edit edit nextId).1.length = tree.length - edit.oldEnd + edit.newEnd := by
    rw [length_edit, EditMap.newLength_eq ordered (Nat.zero_le _), start,
      EditMap.map_ofEdit_length within, Nat.sub_zero]
  have inserted := EditMap.ofEdit_within within
  have reported := Subtree.exists_differences_editChanged ordered tiled 0 0 ⟨nextId, []⟩ unmarked
    apart (inserted ▸ lower) (inserted ▸ upper)
    (start.trans_le (Nat.zero_le byte)) (by
      rw [start, Nat.zero_add]
      exact upper.trans_le ((Nat.le_add_left _ _).trans length.ge))
  rw [start] at reported
  exact exists_changedRanges reported

/-- The second byte of a token that has grown is in a changed range. -/
theorem changedRanges_cover_edit_longToken :
    twoTokens.root.Tiled ∧ 0 < twoTokens.length ∧ (Edit.ofOffsets 1 2 3).Within twoTokens.length ∧
      longToken.root.Unmarked ∧ grownToken.root.ToldApart longToken.root ∧
      ∃ range ∈ grownToken.changedRanges longToken, range.Holds 2 := by
  have nonempty : 0 < twoTokens.length := by decide
  have within : (Edit.ofOffsets 1 2 3).Within twoTokens.length :=
    ⟨by decide, by decide, by decide⟩
  have unmarked := built_longToken.unmarked
  exact ⟨tiled_twoTokens, nonempty, within, unmarked, toldApart_longToken,
    changedRanges_cover_edit tiled_twoTokens nonempty within 3 unmarked toldApart_longToken 2
      (by decide) (by decide)⟩

end SyntaxTree

end IncrementalGlr
