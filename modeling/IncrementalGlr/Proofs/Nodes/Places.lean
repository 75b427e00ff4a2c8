import IncrementalGlr.Proofs.Edits.Parts
import IncrementalGlr.Tree.Node
import Mathlib.Data.List.Nodup

/-!
# Places of nodes

A place below a node is a path through the children of subtrees, hidden ones included.  A child of a
node is at the end of a path that leads through hidden subtrees only, and every exposed node is a
child of a child, and so on.  Of two places that are not one above the other, one comes before the
other in the order of the text.
-/

namespace IncrementalGlr

/-- Whether a path turns off to the left of another one. -/
def ComesBefore (left right : List Nat) : Prop :=
  ∃ above index other before behind, left = above ++ index :: before ∧
    right = above ++ other :: behind ∧ index < other

namespace ComesBefore

variable {left right : List Nat}

theorem of_lt {index other : Nat} (less : index < other) (before behind : List Nat) :
    ComesBefore (index :: before) (other :: behind) :=
  ⟨[], index, other, before, behind, rfl, rfl, less⟩

theorem under (before : ComesBefore left right) (above : List Nat) :
    ComesBefore (above ++ left) (above ++ right) := by
  obtain ⟨common, index, other, rest, behind, rfl, rfl, less⟩ := before
  exact ⟨above ++ common, index, other, rest, behind, by simp, by simp, less⟩

theorem append (before : ComesBefore left right) (first second : List Nat) :
    ComesBefore (left ++ first) (right ++ second) := by
  obtain ⟨above, index, other, rest, behind, rfl, rfl, less⟩ := before
  exact ⟨above, index, other, rest ++ first, behind ++ second, by simp, by simp, less⟩

/-- What two paths begin with in common does not matter. -/
theorem of_append_left {above : List Nat} (before : ComesBefore (above ++ left) (above ++ right)) :
    ComesBefore left right := by
  induction above with
  | nil => exact before
  | cons first above induction =>
      refine induction ?_
      obtain ⟨common, index, other, rest, behind, leftSame, rightSame, less⟩ := before
      cases common with
      | nil =>
          obtain ⟨rfl, -⟩ := List.cons.inj leftSame
          exact absurd less (List.cons.inj rightSame).1.not_lt
      | cons second common =>
          exact ⟨common, index, other, rest, behind, (List.cons.inj leftSame).2,
            (List.cons.inj rightSame).2, less⟩

theorem ne (before : ComesBefore left right) : left ≠ right := by
  obtain ⟨above, index, other, rest, behind, rfl, rfl, less⟩ := before
  simp only [ne_eq, List.append_cancel_left_eq, List.cons.injEq, not_and]
  exact fun same => absurd same less.ne

end ComesBefore

theorem Span.covers_iff {outer inner : Span} :
    outer.covers inner = true ↔ outer.start ≤ inner.start ∧ inner.stop ≤ outer.stop := by
  simp [covers]

namespace Subtree

theorem part?_append (subtree : Subtree) (above path : List Nat) :
    subtree.part? (above ++ path) = (subtree.part? above).bind fun (offset, part) =>
      (part.part? path).map fun (within, inner) => (offset + within, inner) := by
  induction above generalizing subtree with
  | nil => simp [part?]
  | cons index above induction =>
      cases found : subtree.children[index]? with
      | none => simp [part?, found]
      | some child =>
          simp only [List.cons_append, part?, found, Option.bind_some, induction]
          cases child.part? above with
          | none => rfl
          | some place => cases inner : place.2.part? path <;> simp [inner, Nat.add_assoc]

end Subtree

namespace Node

/-- The part of a node at the end of a path through the children, as a node. -/
def part? (node : Node) (path : List Nat) : Option Node :=
  (node.subtree.part? path).map fun (offset, part) => ⟨part, node.start + offset⟩

/-- Whether a node is a child of another one: it is exposed, and the path to it leads through hidden
subtrees. -/
inductive HasChild : Node → List Nat → Node → Prop
  /-- The child is directly below. -/
  | here {node child : Node} {index : Nat} (found : node.part? [index] = some child)
      (exposed : child.subtree.isExposed = true) : HasChild node [index] child
  /-- It is below a hidden subtree. -/
  | through {node hidden child : Node} {index : Nat} {path : List Nat}
      (found : node.part? [index] = some hidden) (isHidden : hidden.subtree.isExposed = false)
      (inner : HasChild hidden path child) : HasChild node (index :: path) child

/-- Whether a node shows up at the end of a path: it is exposed, or it is where the path begins. -/
structure Shows (root : Node) (path : List Nat) (node : Node) : Prop where
  /-- It is at the end of the path. -/
  found : root.part? path = some node
  /-- It is not hidden. -/
  shown : path = [] ∨ node.subtree.isExposed = true

variable {root node child other : Node} {path above below : List Nat} {index : Nat}

theorem part?_append (node : Node) (above path : List Nat) :
    node.part? (above ++ path) = (node.part? above).bind fun part => part.part? path := by
  simp only [part?, Subtree.part?_append]
  cases node.subtree.part? above with
  | none => rfl
  | some place => cases inner : place.2.part? path <;> simp [inner, Nat.add_assoc]

theorem part?_append_eq_some : node.part? (above ++ path) = some child ↔
    ∃ between, node.part? above = some between ∧ between.part? path = some child := by
  rw [part?_append, Option.bind_eq_some_iff]

theorem part?_cons_eq_some : node.part? (index :: path) = some child ↔
    ∃ between, node.part? [index] = some between ∧ between.part? path = some child :=
  @part?_append_eq_some node child path [index]

theorem part?_singleton_eq_some : node.part? [index] = some child ↔
    node.subtree.children[index]? = some child.subtree ∧
      child.start = node.start + Subtree.totalLength (node.subtree.children.take index) := by
  simp only [part?, Option.map_eq_some_iff, Prod.exists, Subtree.part?_cons_eq_some,
    Subtree.part?_nil_eq_some]
  constructor
  · rintro ⟨_, _, ⟨part, _, found, ⟨rfl, rfl⟩, rfl⟩, rfl⟩
    exact ⟨found, rfl⟩
  · rintro ⟨found, start⟩
    exact ⟨_, _, ⟨_, 0, found, ⟨rfl, rfl⟩, rfl⟩, by rw [Nat.add_zero, ← start]⟩

section Ranges

theorem tiled_of_part (tiled : node.subtree.Tiled) (found : node.part? path = some child) :
    child.subtree.Tiled := by
  obtain ⟨place, there, rfl⟩ := Option.map_eq_some_iff.1 found
  exact tiled.of_part there

/-- A part lies inside the node. -/
theorem part_inside (tiled : node.subtree.Tiled) (found : node.part? path = some child) :
    node.start ≤ child.start ∧ child.stop ≤ node.stop := by
  obtain ⟨place, there, rfl⟩ := Option.map_eq_some_iff.1 found
  have inside := tiled.part_inside there
  simp only [stop]
  omega

/-- A part that comes before another one ends where that one starts or earlier. -/
theorem stop_le_start (tiled : node.subtree.Tiled) (left : node.part? above = some child)
    (right : node.part? below = some other) (before : ComesBefore above below) :
    child.stop ≤ other.start := by
  obtain ⟨common, index, behind, rest, later, rfl, rfl, less⟩ := before
  obtain ⟨parent, found, left⟩ := part?_append_eq_some.1 left
  obtain ⟨same, refound, right⟩ := part?_append_eq_some.1 right
  obtain rfl := Option.some.inj (found.symm.trans refound)
  have parentTiled := tiled_of_part tiled found
  obtain ⟨first, firstFound, left⟩ := part?_cons_eq_some.1 left
  obtain ⟨second, secondFound, right⟩ := part?_cons_eq_some.1 right
  have firstInside := (part_inside (tiled_of_part parentTiled firstFound) left).2
  have secondInside := (part_inside (tiled_of_part parentTiled secondFound) right).1
  obtain ⟨firstChild, firstStart⟩ := part?_singleton_eq_some.1 firstFound
  obtain ⟨-, secondStart⟩ := part?_singleton_eq_some.1 secondFound
  -- The first child ends within the children before the second one.
  have inTake : (parent.subtree.children.take behind)[index]? = some first.subtree := by
    rw [List.getElem?_take_of_lt less, firstChild]
  have early := Subtree.totalLength_take_add_length_le inTake
  rw [List.take_take, min_eq_left less.le] at early
  simp only [stop] at firstInside ⊢
  omega

end Ranges

section Children

theorem HasChild.found (has : node.HasChild path child) : node.part? path = some child := by
  induction has with
  | here found _ => exact found
  | through found _ _ induction => exact part?_cons_eq_some.2 ⟨_, found, induction⟩

theorem HasChild.exposed (has : node.HasChild path child) :
    child.subtree.isExposed = true := by
  induction has with
  | here _ exposed => exact exposed
  | through _ _ _ induction => exact induction

theorem HasChild.nonempty (has : node.HasChild path child) : path ≠ [] := by
  cases has <;> exact List.cons_ne_nil _ _

/-- Between a node and its child there are only hidden subtrees. -/
theorem HasChild.hidden_between (has : node.HasChild path child) (start : above <+: path)
    (proper : above ≠ path) (nonempty : above ≠ []) (found : node.part? above = some other) :
    other.subtree.isExposed = false := by
  induction has generalizing above with
  | @here node child index there exposed =>
      obtain ⟨first, rest, rfl⟩ := List.exists_cons_of_ne_nil nonempty
      obtain ⟨rfl, further⟩ := List.cons_prefix_cons.1 start
      exact absurd (by rw [List.prefix_nil.1 further]) proper
  | @through node hidden child index path there isHidden inner induction =>
      obtain ⟨first, rest, rfl⟩ := List.exists_cons_of_ne_nil nonempty
      obtain ⟨rfl, further⟩ := List.cons_prefix_cons.1 start
      obtain ⟨between, first, later⟩ := part?_cons_eq_some.1 found
      obtain rfl := Option.some.inj (there.symm.trans first)
      by_cases ends : rest = []
      · subst ends
        obtain rfl := Option.some.inj later
        exact isHidden
      · exact induction further (fun same => proper (same ▸ rfl)) ends later

/-- Two children are at the same place, or one comes before the other. -/
theorem HasChild.comesBefore_or (first : node.HasChild above child)
    (second : node.HasChild below other) :
    above = below ∨ ComesBefore above below ∨ ComesBefore below above := by
  induction first generalizing below with
  | @here node child index found exposed =>
      obtain ⟨place, rest, rfl⟩ := List.exists_cons_of_ne_nil second.nonempty
      rcases lt_trichotomy index place with less | rfl | greater
      · exact .inr (.inl (.of_lt less _ _))
      · cases second with
        | here => exact .inl rfl
        | through there hidden _ =>
            obtain rfl := Option.some.inj (found.symm.trans there)
            exact absurd exposed (by simp [hidden])
      · exact .inr (.inr (.of_lt greater _ _))
  | @through node hidden child index path found isHidden inner induction =>
      obtain ⟨place, rest, rfl⟩ := List.exists_cons_of_ne_nil second.nonempty
      rcases lt_trichotomy index place with less | rfl | greater
      · exact .inr (.inl (.of_lt less _ _))
      · cases second with
        | here there exposed =>
            obtain rfl := Option.some.inj (found.symm.trans there)
            exact absurd exposed (by simp [isHidden])
        | through there _ further =>
            obtain rfl := Option.some.inj (found.symm.trans there)
            rcases induction further with same | before | behind
            · exact .inl (by rw [same])
            · exact .inr (.inl (before.under [index]))
            · exact .inr (.inr (behind.under [index]))
      · exact .inr (.inr (.of_lt greater _ _))

theorem mem_exposedNodesAll {start : Nat} {subtrees : List Subtree} :
    node ∈ Subtree.exposedNodesAll start subtrees ↔ ∃ (index : Nat) (subtree : Subtree),
      subtrees[index]? = some subtree ∧
        node ∈ subtree.exposedNodes (start + Subtree.totalLength (subtrees.take index)) := by
  induction subtrees generalizing start with
  | nil => simp [Subtree.exposedNodesAll]
  | cons first rest induction =>
      rw [Subtree.exposedNodesAll, List.mem_append, induction]
      constructor
      · rintro (member | ⟨index, subtree, found, member⟩)
        · exact ⟨0, first, rfl, member⟩
        · exact ⟨index + 1, subtree, found, by
            rwa [List.take_succ_cons, Subtree.totalLength_cons, ← Nat.add_assoc]⟩
      · rintro ⟨_ | index, subtree, found, member⟩
        · obtain rfl := Option.some.inj found
          exact .inl member
        · rw [List.take_succ_cons, Subtree.totalLength_cons, ← Nat.add_assoc] at member
          exact .inr ⟨index, subtree, found, member⟩

theorem mem_children_iff_part : child ∈ node.children ↔ ∃ (index : Nat) (part : Node),
    node.part? [index] = some part ∧ child ∈ part.subtree.exposedNodes part.start := by
  rw [children, mem_exposedNodesAll]
  constructor
  · rintro ⟨index, subtree, found, member⟩
    exact ⟨index, ⟨subtree, _⟩, part?_singleton_eq_some.2 ⟨found, rfl⟩, member⟩
  · rintro ⟨index, part, found, member⟩
    obtain ⟨there, start⟩ := part?_singleton_eq_some.1 found
    exact ⟨index, part.subtree, there, start ▸ member⟩

theorem exposedNodes_of_exposed (exposed : node.subtree.isExposed = true) :
    node.subtree.exposedNodes node.start = [node] := by
  rcases node with ⟨⟨data, children⟩, start⟩
  rw [Subtree.exposedNodes, if_pos exposed]

theorem exposedNodes_of_hidden (hidden : node.subtree.isExposed = false) :
    node.subtree.exposedNodes node.start = node.children := by
  rcases node with ⟨⟨data, children⟩, start⟩
  rw [Subtree.exposedNodes, if_neg (by simpa using hidden)]
  rfl

theorem HasChild.mem_children (has : node.HasChild path child) : child ∈ node.children := by
  induction has with
  | here found exposed =>
      exact mem_children_iff_part.2 ⟨_, _, found, by simp [exposedNodes_of_exposed exposed]⟩
  | through found hidden _ induction =>
      exact mem_children_iff_part.2 ⟨_, _, found, by rwa [exposedNodes_of_hidden hidden]⟩

theorem count_part_lt (found : node.part? [index] = some child) :
    child.subtree.count < node.subtree.count := by
  rcases node with ⟨⟨data, children⟩, start⟩
  obtain ⟨there, -⟩ := part?_singleton_eq_some.1 found
  have member : child.subtree ∈ children := List.mem_of_getElem? there
  clear there found
  induction children with
  | nil => cases member
  | cons first rest induction =>
      rw [Subtree.count, Subtree.countAll]
      rcases List.mem_cons.1 member with rfl | later
      · omega
      · have less := induction later
        rw [Subtree.count] at less
        omega

theorem count_part_le (found : node.part? path = some child) :
    child.subtree.count ≤ node.subtree.count := by
  induction path generalizing node with
  | nil =>
      obtain rfl := Option.some.inj found
      exact le_rfl
  | cons index path induction =>
      obtain ⟨between, first, rest⟩ := part?_cons_eq_some.1 found
      exact (induction rest).trans (count_part_lt first).le

/-- The nodes listed as the children are those at the end of such a path. -/
theorem mem_children_iff : child ∈ node.children ↔ ∃ path, node.HasChild path child := by
  refine ⟨fun member => ?_, fun ⟨path, has⟩ => has.mem_children⟩
  induction size : node.subtree.count using Nat.strong_induction_on generalizing node with
  | h size induction =>
      subst size
      obtain ⟨index, part, found, member⟩ := mem_children_iff_part.1 member
      cases exposed : part.subtree.isExposed with
      | true =>
          rw [exposedNodes_of_exposed exposed, List.mem_singleton] at member
          subst member
          exact ⟨[index], .here found exposed⟩
      | false =>
          rw [exposedNodes_of_hidden exposed] at member
          obtain ⟨path, has⟩ := induction _ (count_part_lt found) member rfl
          exact ⟨index :: path, .through found exposed has⟩

theorem HasChild.count_lt (has : node.HasChild path child) :
    child.subtree.count < node.subtree.count := by
  induction has with
  | here found _ => exact count_part_lt found
  | through found _ _ induction => exact induction.trans (count_part_lt found)

end Children

section Shown

theorem shows_nil (root : Node) : root.Shows [] root := ⟨rfl, .inl rfl⟩

theorem HasChild.shows (has : root.HasChild above child) (shows : child.Shows path node) :
    root.Shows (above ++ path) node := by
  refine ⟨part?_append_eq_some.2 ⟨child, has.found, shows.found⟩, .inr ?_⟩
  rcases shows.shown with rfl | exposed
  · obtain rfl := Option.some.inj shows.found
    exact has.exposed
  · exact exposed

/-- A node that shows up below another one is a child of it or shows up below a child. -/
theorem Shows.exists_child (shows : root.Shows path node) (proper : path ≠ []) :
    ∃ above below child, path = above ++ below ∧ root.HasChild above child ∧
      child.Shows below node := by
  induction path generalizing root with
  | nil => exact absurd rfl proper
  | cons index path induction =>
      obtain ⟨between, first, rest⟩ := part?_cons_eq_some.1 shows.found
      have exposed := shows.shown.resolve_left (List.cons_ne_nil _ _)
      cases hidden : between.subtree.isExposed with
      | true => exact ⟨[index], path, between, rfl, .here first hidden, rest, .inr exposed⟩
      | false =>
          have further : path ≠ [] := by
            rintro rfl
            obtain rfl := Option.some.inj rest
            exact absurd exposed (by simp [hidden])
          obtain ⟨above, below, child, rfl, has, later⟩ := induction ⟨rest, .inr exposed⟩ further
          exact ⟨index :: above, below, child, rfl, .through first hidden has, later⟩

end Shown

end Node

/-! ## Distinct objects -/

namespace Subtree

mutual

/-- The ids of a subtree and of all subtrees below it. -/
def ids : Subtree → List Nat
  | .mk data children => data.id :: idsAll children

/-- The ids of subtrees and of all subtrees below them. -/
def idsAll : List Subtree → List Nat
  | [] => []
  | child :: rest => child.ids ++ idsAll rest

end

theorem idsAll_eq_flatMap (subtrees : List Subtree) : idsAll subtrees = subtrees.flatMap ids := by
  induction subtrees with
  | nil => rfl
  | cons child rest induction => rw [idsAll, induction, List.flatMap_cons]

theorem ids_eq (subtree : Subtree) :
    subtree.ids = subtree.id :: subtree.children.flatMap ids := by
  rcases subtree with ⟨data, children⟩
  rw [ids, idsAll_eq_flatMap]
  rfl

variable {subtree part other : Subtree} {path place : List Nat} {offset within : Nat}

theorem id_mem_ids_of_part (found : subtree.part? path = some (offset, part)) :
    part.id ∈ subtree.ids := by
  induction path generalizing subtree offset with
  | nil =>
      obtain ⟨-, rfl⟩ := part?_nil_eq_some.1 found
      rw [ids_eq]
      exact .head _
  | cons index path induction =>
      obtain ⟨child, within, first, rest, -⟩ := part?_cons_eq_some.1 found
      rw [ids_eq]
      exact .tail _ (List.mem_flatMap.2 ⟨child, List.mem_of_getElem? first, induction rest⟩)

/-- If no object occurs twice in a subtree, an object there has one place. -/
theorem path_eq_of_id_eq (distinct : subtree.ids.Nodup)
    (first : subtree.part? path = some (offset, part))
    (second : subtree.part? place = some (within, other)) (same : part.id = other.id) :
    path = place := by
  induction path generalizing subtree place offset within with
  | nil =>
      obtain ⟨-, rfl⟩ := part?_nil_eq_some.1 first
      cases place with
      | nil => rfl
      | cons index place =>
          obtain ⟨child, _, found, below, -⟩ := part?_cons_eq_some.1 second
          rw [ids_eq, List.nodup_cons] at distinct
          exact absurd (List.mem_flatMap.2 ⟨child, List.mem_of_getElem? found,
            same ▸ id_mem_ids_of_part below⟩) distinct.1
  | cons index path induction =>
      obtain ⟨child, _, found, below, -⟩ := part?_cons_eq_some.1 first
      rw [ids_eq, List.nodup_cons] at distinct
      cases place with
      | nil =>
          obtain ⟨-, rfl⟩ := part?_nil_eq_some.1 second
          exact absurd (List.mem_flatMap.2 ⟨child, List.mem_of_getElem? found,
            same ▸ id_mem_ids_of_part below⟩) distinct.1
      | cons position place =>
          obtain ⟨sibling, _, there, further, -⟩ := part?_cons_eq_some.1 second
          obtain ⟨each, apart⟩ := List.nodup_flatMap.1 distinct.2
          obtain ⟨inside, rfl⟩ := List.getElem?_eq_some_iff.1 found
          obtain ⟨within, rfl⟩ := List.getElem?_eq_some_iff.1 there
          have here := id_mem_ids_of_part below
          have elsewhere := same ▸ id_mem_ids_of_part further
          rw [List.pairwise_iff_getElem] at apart
          rcases lt_trichotomy index position with less | rfl | greater
          · exact (apart _ _ inside within less here elsewhere).elim
          · rw [induction (each _ (List.getElem_mem inside)) below further]
          · exact (apart _ _ within inside greater elsewhere here).elim

end Subtree

/-- A tree in which a hidden node holds an empty token and a node that begin where the token before
them ends. -/
def SyntaxTree.touching : SyntaxTree :=
  let node : NodeSpec := { (default : NodeSpec) with visible := true, named := true }
  let word : LeafSpec := { (default : LeafSpec) with length := 1, visible := true, named := true }
  let mark : LeafSpec := { (default : LeafSpec) with length := 1 }
  ⟨.ofChildren 6 node
    [.ofLeaf 0 word,
      .ofChildren 5 default
        [.ofLeaf 1 default, .ofChildren 4 node [.ofLeaf 2 mark, .ofLeaf 3 word]]],
    default⟩

theorem SyntaxTree.nodup_touching : touching.root.ids.Nodup := by decide

theorem SyntaxTree.tiled_touching : touching.root.Tiled := by
  refine Subtree.tiled_ofChildren _ ?_
  simp only [List.forall_mem_cons, List.not_mem_nil, false_implies, implies_true, and_true]
  refine ⟨Subtree.tiled_ofLeaf _, Subtree.tiled_ofChildren _ ?_⟩
  simp only [List.forall_mem_cons, List.not_mem_nil, false_implies, implies_true, and_true]
  refine ⟨Subtree.tiled_ofLeaf _, Subtree.tiled_ofChildren _ ?_⟩
  simp [Subtree.tiled_ofLeaf]

end IncrementalGlr
