import IncrementalGlr.Proofs.Sharing.Edit

/-!
# Tiled subtrees

In a tiled subtree the children of every node fill the length of the node.  Leaves and nodes are
made that way and edits keep it so, because an edit moves the two ends of every subtree by one
monotone map of offsets.
-/

namespace IncrementalGlr

namespace Subtree

/-- Whether tokens have no children and the length of every node is the sum of the lengths of its
children. -/
inductive Tiled : Subtree → Prop
  /-- A token, or a node whose children are tiled and fill its length. -/
  | mk {subtree : Subtree} (bare : subtree.isLeaf = true → subtree.children = [])
    (filled : subtree.isLeaf = false → subtree.length = totalLength subtree.children)
    (under : ∀ child ∈ subtree.children, Tiled child) : Tiled subtree

/-- Whether no part of a subtree is the end of the input. -/
inductive EndFree : Subtree → Prop
  /-- A subtree that neither is nor begins with the end of the input, and whose children have none
  of it either. -/
  | mk {subtree : Subtree} (symbol : subtree.symbol ≠ .endOfInput)
    (first : ∀ leaf ∈ subtree.firstLeaf, leaf.symbol ≠ .endOfInput)
    (under : ∀ child ∈ subtree.children, EndFree child) : EndFree subtree

theorem Tiled.bare {subtree : Subtree} (tiled : subtree.Tiled) :
    subtree.isLeaf = true → subtree.children = [] := by
  cases tiled
  assumption

theorem Tiled.filled {subtree : Subtree} (tiled : subtree.Tiled) :
    subtree.isLeaf = false → subtree.length = totalLength subtree.children := by
  cases tiled
  assumption

theorem Tiled.child {subtree : Subtree} (tiled : subtree.Tiled) :
    ∀ child ∈ subtree.children, child.Tiled := by
  cases tiled
  assumption

theorem EndFree.symbol {subtree : Subtree} (endFree : subtree.EndFree) :
    subtree.symbol ≠ .endOfInput := by
  cases endFree
  assumption

theorem EndFree.first {subtree : Subtree} (endFree : subtree.EndFree) :
    ∀ leaf ∈ subtree.firstLeaf, leaf.symbol ≠ .endOfInput := by
  cases endFree
  assumption

theorem EndFree.child {subtree : Subtree} (endFree : subtree.EndFree) :
    ∀ child ∈ subtree.children, child.EndFree := by
  cases endFree
  assumption

/-- Ids do not matter for being tiled. -/
theorem Tiled.of_erase {subtree : Subtree} (tiled : subtree.erase.Tiled) : subtree.Tiled := by
  generalize same : subtree.erase = erased at tiled
  induction tiled generalizing subtree with
  | mk bare filled _ induction =>
      subst same
      refine .mk (fun token => ?_) (fun node => ?_) fun child member => ?_
      · simpa using bare (by simpa using token)
      · have lengths := filled (by simpa using node)
        simpa using lengths
      · exact induction child.erase (by simpa using ⟨child, member, rfl⟩) rfl

section Totals

theorem totalLength_nil : totalLength [] = 0 := rfl

theorem totalLength_cons (child : Subtree) (rest : List Subtree) :
    totalLength (child :: rest) = child.length + totalLength rest := rfl

theorem totalLength_append (left right : List Subtree) :
    totalLength (left ++ right) = totalLength left + totalLength right := by
  induction left with
  | nil => exact (Nat.zero_add _).symm
  | cons child rest induction =>
      rw [List.cons_append, totalLength_cons, totalLength_cons, induction, Nat.add_assoc]

theorem totalLength_eq_zero {subtrees : List Subtree} :
    totalLength subtrees = 0 ↔ ∀ subtree ∈ subtrees, subtree.length = 0 := by
  induction subtrees with
  | nil => simp [totalLength_nil]
  | cons child rest induction =>
      rw [totalLength_cons, Nat.add_eq_zero_iff, induction, List.forall_mem_cons]

theorem totalLength_takeWhile_add_dropWhile (extra : Subtree → Bool) (subtrees : List Subtree) :
    totalLength (subtrees.takeWhile extra) + totalLength (subtrees.dropWhile extra) =
      totalLength subtrees := by
  rw [← totalLength_append, List.takeWhile_append_dropWhile]

/-- The children of a tiled subtree never take more room than the subtree. -/
theorem Tiled.totalLength_children_le {subtree : Subtree} (tiled : subtree.Tiled) :
    totalLength subtree.children ≤ subtree.length := by
  cases isLeaf : subtree.isLeaf with
  | true =>
      rw [tiled.bare isLeaf]
      exact Nat.zero_le _
  | false => exact (tiled.filled isLeaf).ge

end Totals

section Made

variable {id : Nat}

theorem tiled_ofLeaf (spec : LeafSpec) : (ofLeaf id spec).Tiled :=
  .mk (fun _ => rfl) (fun node => by cases node) fun _ member => absurd member List.not_mem_nil

theorem tiled_ofChildren (spec : NodeSpec) {children : List Subtree}
    (tiled : ∀ child ∈ children, child.Tiled) : (ofChildren id spec children).Tiled :=
  .mk (fun token => by cases token) (fun _ => rfl) tiled

theorem endFree_ofLeaf {spec : LeafSpec} (token : spec.symbol ≠ .endOfInput) :
    (ofLeaf id spec).EndFree := by
  refine .mk token ?_ fun _ member => absurd member List.not_mem_nil
  rintro leaf ⟨⟩
  exact token

theorem endFree_ofChildren {spec : NodeSpec} (symbol : spec.symbol ≠ .endOfInput)
    {children : List Subtree} (endFree : ∀ child ∈ children, child.EndFree) :
    (ofChildren id spec children).EndFree := by
  refine .mk symbol (fun leaf found => ?_) endFree
  obtain ⟨child, member, first⟩ := List.exists_of_findSome?_eq_some found
  exact (endFree child member).first leaf first

end Made

end Subtree

namespace EditMap

/-- Whether the start of an edit comes before the ends of the removed and of the inserted text. -/
def Ordered (map : EditMap) : Prop := map.start ≤ map.oldEnd ∧ map.start ≤ map.newEnd

theorem ordered_ofEdit (edit : Edit) (length : Nat) : (ofEdit edit length).Ordered := by
  simp only [Ordered, ofEdit]
  omega

variable {map : EditMap}

/-- Offsets keep their order. -/
theorem map_mono (ordered : map.Ordered) {first second : Nat} (order : first ≤ second) :
    map.map first ≤ map.map second := by
  obtain ⟨old, new⟩ := ordered
  cases atEnd : map.atEnd <;> simp only [EditMap.map, atEnd] <;> split_ifs <;> omega

theorem newLength_eq (ordered : map.Ordered) {first second : Nat} (order : first ≤ second) :
    map.newLength first second = map.map second - map.map first := by
  rw [newLength, max_eq_left (map_mono ordered order)]

/-- New lengths of adjacent ranges add up. -/
theorem newLength_add (ordered : map.Ordered) {first second third : Nat} (left : first ≤ second)
    (right : second ≤ third) :
    map.newLength first second + map.newLength second third = map.newLength first third := by
  have lower := map_mono ordered left
  have upper := map_mono ordered right
  rw [newLength_eq ordered left, newLength_eq ordered right,
    newLength_eq ordered (left.trans right)]
  omega

/-- A range that an edit leaves untouched keeps its length. -/
theorem newLength_untouched (ordered : map.Ordered) {first length lookahead : Nat}
    (untouched : map.isUntouched first (first + length) lookahead = true) :
    map.newLength first (first + length) = length := by
  rw [newLength_eq ordered (Nat.le_add_right first length)]
  obtain ⟨old, new⟩ := ordered
  cases atEnd : map.atEnd with
  | false =>
      simp only [isUntouched, atEnd, Bool.false_eq_true, if_false, Bool.or_eq_true,
        Bool.and_eq_true, decide_eq_true_eq] at untouched
      simp only [EditMap.map, atEnd, Bool.false_eq_true, if_false]
      split_ifs <;> omega
  | true =>
      simp only [isUntouched, atEnd, if_true, Bool.or_eq_true,
        Bool.and_eq_true, decide_eq_true_eq] at untouched
      simp only [EditMap.map, atEnd, if_true]
      split_ifs <;> omega

end EditMap

namespace Subtree

section Edits

variable {map : EditMap}

@[simp]
theorem length_resized (subtree : Subtree) (id length : Nat) :
    (subtree.resized id length).length = length := rfl

@[simp]
theorem length_rebuilt (subtree : Subtree) (id length : Nat) (children : List Subtree) :
    (subtree.rebuilt id length children).length = length := rfl

theorem length_plainEdit (map : EditMap) (start : Nat) (subtree : Subtree) :
    (plainEdit map start subtree).length = map.newLength start (start + subtree.length) := by
  obtain ⟨data, children⟩ := subtree
  rw [plainEdit]
  split <;> rfl

/-- The changed children fill the new range of their parent. -/
theorem totalLength_plainEditAll (ordered : map.Ordered) (start : Nat) (subtrees : List Subtree) :
    totalLength (plainEditAll map start subtrees) =
      map.newLength start (start + totalLength subtrees) := by
  induction subtrees generalizing start with
  | nil => simp [plainEditAll, totalLength, EditMap.newLength]
  | cons child rest induction =>
      have first : (if map.isUntouched start (start + child.length) child.lookahead then child
          else plainEdit map start child).length =
          map.newLength start (start + child.length) := by
        split
        · next untouched => exact (EditMap.newLength_untouched ordered untouched).symm
        · exact length_plainEdit map start child
      rw [plainEditAll, totalLength_cons, totalLength_cons, first, induction,
        ← Nat.add_assoc]
      exact EditMap.newLength_add ordered (Nat.le_add_right _ _) (Nat.le_add_right _ _)

mutual

theorem Tiled.plainEdit (ordered : map.Ordered) (start : Nat) {subtree : Subtree}
    (tiled : subtree.Tiled) : (plainEdit map start subtree).Tiled := by
  cases subtree with
  | mk data children =>
      rw [Subtree.plainEdit]
      split
      · next isLeaf =>
          exact .mk (fun _ => rfl) (fun node => absurd (isLeaf.symm.trans node) (by simp))
            fun _ member => absurd member List.not_mem_nil
      · next isNode =>
          have filled : data.length = totalLength children :=
            tiled.filled (Bool.not_eq_true _ ▸ isNode)
          refine .mk (fun token => absurd token isNode) (fun _ => ?_)
            (Tiled.plainEditAll ordered start tiled.child)
          rw [length_rebuilt, filled]
          exact (totalLength_plainEditAll ordered start children).symm

theorem Tiled.plainEditAll (ordered : map.Ordered) (start : Nat) {subtrees : List Subtree}
    (tiled : ∀ child ∈ subtrees, child.Tiled) :
    ∀ child ∈ plainEditAll map start subtrees, child.Tiled := by
  cases subtrees with
  | nil => exact fun _ member => absurd member List.not_mem_nil
  | cons child rest =>
      rw [Subtree.plainEditAll]
      have childTiled := tiled child List.mem_cons_self
      intro other member
      rcases List.mem_cons.1 member with rfl | later
      · split
        · exact childTiled
        · exact Tiled.plainEdit ordered start childTiled
      · exact Tiled.plainEditAll ordered (start + child.length)
          (fun held inside => tiled held (List.mem_cons_of_mem child inside)) other later

end

mutual

theorem EndFree.plainEdit (map : EditMap) (start : Nat) {subtree : Subtree}
    (endFree : subtree.EndFree) : (plainEdit map start subtree).EndFree := by
  cases subtree with
  | mk data children =>
      rw [Subtree.plainEdit]
      split
      · refine .mk endFree.symbol (fun leaf found => ?_)
          fun _ member => absurd member List.not_mem_nil
        obtain ⟨original, originalFound, rfl⟩ := Option.map_eq_some_iff.1 found
        exact endFree.first original originalFound
      · have below := EndFree.plainEditAll map start endFree.child
        refine .mk endFree.symbol (fun leaf found => ?_) below
        obtain ⟨child, member, first⟩ := List.exists_of_findSome?_eq_some found
        exact (below child member).first leaf first

theorem EndFree.plainEditAll (map : EditMap) (start : Nat) {subtrees : List Subtree}
    (endFree : ∀ child ∈ subtrees, child.EndFree) :
    ∀ child ∈ plainEditAll map start subtrees, child.EndFree := by
  cases subtrees with
  | nil => exact fun _ member => absurd member List.not_mem_nil
  | cons child rest =>
      rw [Subtree.plainEditAll]
      have childEndFree := endFree child List.mem_cons_self
      intro other member
      rcases List.mem_cons.1 member with rfl | later
      · split
        · exact childEndFree
        · exact EndFree.plainEdit map start childEndFree
      · exact EndFree.plainEditAll map (start + child.length)
          (fun held inside => endFree held (List.mem_cons_of_mem child inside)) other later

end

theorem Tiled.afterEdit {root : Subtree} (tiled : root.Tiled) (edit : Edit) :
    (root.afterEdit edit).Tiled :=
  tiled.plainEdit (EditMap.ordered_ofEdit edit root.length) 0

theorem EndFree.afterEdit {root : Subtree} (endFree : root.EndFree) (edit : Edit) :
    (root.afterEdit edit).EndFree :=
  endFree.plainEdit _ 0

end Edits

end Subtree

end IncrementalGlr
