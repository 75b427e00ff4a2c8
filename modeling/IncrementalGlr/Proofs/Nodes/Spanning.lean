import IncrementalGlr.Proofs.Nodes.Places

/-!
# The smallest node that spans a range

The search for the smallest node goes down to the first child that spans the range as long as there
is one.  The children of a node lie one behind the other, so at most one of them spans a range that
is not empty, and every spanning node below is below that child.
-/

namespace IncrementalGlr

namespace Node

/-- Whether a node spans a range, of which the start must lie in its text unless it is empty. -/
def spans (range : Span) (node : Node) : Bool := node.subtree.spans node.start range

/-- The node where the way down from a node ends that always takes the first spanning child. -/
def lowest (range : Span) (node : Node) : Node :=
  (Subtree.spanningAll? range node.start node.subtree.children).getD node

variable {range : Span} {node child other : Node} {path above below : List Nat}

mutual

theorem spanning?_eq (range : Span) : ∀ (subtree : Subtree) (start : Nat),
    subtree.spanning? range start =
      ((subtree.exposedNodes start).find? (spans range)).map (lowest range)
  | .mk data children, start => by
      rw [Subtree.spanning?, Subtree.exposedNodes]
      split
      · cases covered : (Subtree.mk data children).spans start range <;>
          simp [spans, lowest, covered, Subtree.children]
      · exact spanningAll?_eq range children start

/-- The search goes on from the first of the exposed nodes that spans the range. -/
theorem spanningAll?_eq (range : Span) : ∀ (subtrees : List Subtree) (start : Nat),
    Subtree.spanningAll? range start subtrees =
      ((Subtree.exposedNodesAll start subtrees).find? (spans range)).map (lowest range)
  | [], _ => rfl
  | child :: rest, start => by
      rw [Subtree.spanningAll?, Subtree.exposedNodesAll, List.find?_append,
        spanning?_eq range child start, spanningAll?_eq range rest]
      cases (child.exposedNodes start).find? (spans range) <;> rfl

end

theorem lowest_of_none (none : node.children.find? (spans range) = none) :
    node.lowest range = node := by
  rw [children] at none
  rw [lowest, spanningAll?_eq, none]
  rfl

theorem lowest_of_some (first : node.children.find? (spans range) = some child) :
    node.lowest range = child.lowest range := by
  rw [children] at first
  rw [lowest, spanningAll?_eq, first]
  rfl

theorem spans_iff : node.spans range = true ↔ node.start ≤ range.start ∧ range.stop ≤ node.stop ∧
    (range.start < node.stop ∨ node.subtree.length = 0) := by
  simp [spans, Subtree.spans, stop, Subtree.isEmpty, and_assoc]

theorem spans_of_inside (nonempty : range.start < range.stop) (starts : node.start ≤ range.start)
    (stops : range.stop ≤ node.stop) : node.spans range = true :=
  spans_iff.2 ⟨starts, stops, .inl (nonempty.trans_le stops)⟩

/-- At most one child spans a range that is not empty. -/
theorem HasChild.eq_of_spans (tiled : node.subtree.Tiled) (nonempty : range.start < range.stop)
    (first : node.HasChild above child) (firstSpans : child.spans range = true)
    (second : node.HasChild below other) (secondSpans : other.spans range = true) :
    above = below ∧ child = other := by
  obtain ⟨starts, stops, -⟩ := spans_iff.1 firstSpans
  obtain ⟨otherStarts, otherStops, -⟩ := spans_iff.1 secondSpans
  rcases first.comesBefore_or second with rfl | before | behind
  · exact ⟨rfl, Option.some.inj (first.found.symm.trans second.found)⟩
  · have apart := stop_le_start tiled first.found second.found before
    omega
  · have apart := stop_le_start tiled second.found first.found behind
    omega

/-- The way down ends at an exposed node none of whose children spans the range.  If the range is
not empty, it passes every exposed node around the range. -/
theorem exists_lowest (tiled : node.subtree.Tiled) (range : Span) :
    ∃ path, node.Shows path (node.lowest range) ∧
      (path = [] ∨ (node.lowest range).spans range = true) ∧
      (∀ child ∈ (node.lowest range).children, ¬child.spans range = true) ∧
      (range.start < range.stop → ∀ place other, node.Shows place other →
        other.start ≤ range.start → range.stop ≤ other.stop → place <+: path) := by
  induction size : node.subtree.count using Nat.strong_induction_on generalizing node with
  | h size induction =>
      subst size
      cases first : node.children.find? (spans range) with
      | none =>
          have nowhere := List.find?_eq_none.1 first
          rw [lowest_of_none first]
          refine ⟨[], node.shows_nil, .inl rfl, nowhere,
            fun nonempty place other shows starts stops => ?_⟩
          by_contra proper
          obtain ⟨above, below, child, rfl, has, later⟩ :=
            shows.exists_child fun same => proper (same ▸ List.prefix_rfl)
          have inside := part_inside (tiled_of_part tiled has.found) later.found
          exact nowhere child has.mem_children
            (spans_of_inside nonempty (inside.1.trans starts) (stops.trans inside.2))
      | some child =>
          have spanned := List.find?_some first
          obtain ⟨above, has⟩ := mem_children_iff.1 (List.mem_of_find?_eq_some first)
          have childTiled := tiled_of_part tiled has.found
          obtain ⟨path, shows, ends, last, passes⟩ := induction _ has.count_lt childTiled rfl
          rw [lowest_of_some first]
          refine ⟨above ++ path, has.shows shows, .inr ?_, last,
            fun nonempty place other otherShows starts stops => ?_⟩
          · rcases ends with rfl | ends
            · rwa [← Option.some.inj shows.found]
            · exact ends
          · by_cases proper : place = []
            · exact proper ▸ List.nil_prefix
            -- The other node is below a child, which spans the range as well.
            obtain ⟨before, rest, parent, rfl, hasOther, later⟩ := otherShows.exists_child proper
            have inside := part_inside (tiled_of_part tiled hasOther.found) later.found
            obtain ⟨rfl, rfl⟩ := has.eq_of_spans tiled nonempty spanned hasOther
              (spans_of_inside nonempty (inside.1.trans starts) (stops.trans inside.2))
            exact (List.prefix_append_right_inj _).2
              (passes nonempty rest other later starts stops)

theorem descendant?_eq (node : Node) (start stop : Nat) : node.descendant? ⟨start, stop⟩ =
    if start ≤ stop ∧ node.start ≤ start ∧ stop ≤ node.stop then
      some (node.lowest ⟨start, stop⟩) else none := by
  simp only [descendant?, lowest, Bool.and_eq_true, decide_eq_true_eq, Span.covers_iff]
  rfl

/-- The search for a range that is not empty fails exactly if the range is not inside the node.
Otherwise the node found spans the range, and every exposed node below the starting one that spans
it is above the node found or is that node.  For an empty range strictly inside the node, the node
found contains the offset, and no child of it starts there or before and ends after it. -/
theorem descendant?_smallest (node : Node) (tiled : node.subtree.Tiled) :
    (∀ start stop, start < stop →
      (node.descendant? ⟨start, stop⟩ = none ↔ ¬(node.start ≤ start ∧ stop ≤ node.stop)) ∧
      ∀ found, node.descendant? ⟨start, stop⟩ = some found →
        found.start ≤ start ∧ stop ≤ found.stop ∧
        ∃ path, node.Shows path found ∧ ∀ place other, node.Shows place other →
          other.start ≤ start → stop ≤ other.stop → place <+: path) ∧
    ∀ offset, node.start < offset → offset < node.stop →
      ∃ found path, node.descendant? ⟨offset, offset⟩ = some found ∧ node.Shows path found ∧
        found.start ≤ offset ∧ offset ≤ found.stop ∧
        ∀ child ∈ found.children, child.start ≤ offset → child.stop ≤ offset := by
  refine ⟨fun start stop nonempty => ?_, fun offset after before => ?_⟩
  · obtain ⟨path, shows, ends, -, passes⟩ := exists_lowest tiled ⟨start, stop⟩
    rw [descendant?_eq]
    by_cases inside : node.start ≤ start ∧ stop ≤ node.stop
    · rw [if_pos ⟨nonempty.le, inside⟩]
      refine ⟨iff_of_false (Option.some_ne_none _) (not_not.2 inside), ?_⟩
      rintro _ ⟨rfl⟩
      have around : (node.lowest ⟨start, stop⟩).spans ⟨start, stop⟩ = true := by
        rcases ends with rfl | ends
        · rw [← Option.some.inj shows.found]
          exact spans_of_inside nonempty inside.1 inside.2
        · exact ends
      obtain ⟨starts, stops, -⟩ := spans_iff.1 around
      exact ⟨starts, stops, path, shows, passes nonempty⟩
    · rw [if_neg fun both => inside both.2]
      exact ⟨iff_of_true rfl inside, nofun⟩
  · obtain ⟨path, shows, ends, last, -⟩ := exists_lowest tiled ⟨offset, offset⟩
    refine ⟨_, path, by rw [descendant?_eq, if_pos ⟨le_rfl, after.le, before.le⟩], shows, ?_⟩
    have around : (node.lowest ⟨offset, offset⟩).start ≤ offset ∧
        offset ≤ (node.lowest ⟨offset, offset⟩).stop := by
      rcases ends with rfl | ends
      · rw [← Option.some.inj shows.found]
        exact ⟨after.le, before.le⟩
      · obtain ⟨starts, stops, -⟩ := spans_iff.1 ends
        exact ⟨starts, stops⟩
    refine ⟨around.1, around.2, fun child member starts => ?_⟩
    by_contra ends
    exact last child member (spans_iff.2 ⟨starts, (not_le.1 ends).le, .inl (not_le.1 ends)⟩)

/-- The second token of the inner node is the smallest node around its text.  At the end of the
first token of the tree an empty token begins, and this is the node found there. -/
theorem descendant?_smallest_touching :
    let root := SyntaxTree.touching.rootNode
    root.subtree.Tiled ∧
      (∃ found, root.descendant? ⟨2, 3⟩ = some found ∧ found.start = 2 ∧ found.stop = 3 ∧
        ∃ path, root.Shows path found ∧ ∀ place other, root.Shows place other →
          other.start ≤ 2 → 3 ≤ other.stop → place <+: path) ∧
      ∃ found, root.descendant? ⟨1, 1⟩ = some found ∧ found.stop = 1 ∧ found.subtree.id = 1 ∧
        ∀ child ∈ found.children, child.start ≤ 1 → child.stop ≤ 1 := by
  intro root
  have tiled : root.subtree.Tiled := SyntaxTree.tiled_touching
  obtain ⟨around, inside⟩ := descendant?_smallest root tiled
  refine ⟨tiled, ⟨_, rfl, by decide, by decide, ?_⟩, ?_⟩
  · exact ((around 2 3 (by decide)).2 _ rfl).2.2
  · obtain ⟨found, path, same, -, -, -, last⟩ := inside 1 (by decide) (by decide)
    have known : (root.descendant? ⟨1, 1⟩).map (fun found => (found.stop, found.subtree.id)) =
        some (1, 1) := by decide
    rw [same] at known
    obtain ⟨stops, id⟩ := Prod.mk.inj (Option.some.inj known)
    exact ⟨found, same, stops, id, last⟩

end Node

end IncrementalGlr
