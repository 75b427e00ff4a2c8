import IncrementalGlr.Proofs.Reuse.Frames
import Mathlib.Order.Bounds.Basic

/-!
# What the cursor over an earlier tree offers

The parser calls for candidates at positions that never decrease and may reject what it is offered.
Whatever it does, it is offered the first subtree in preorder that it can still use, and nothing
that starts at a position still to come gets lost.
-/

namespace IncrementalGlr

namespace ReuseFrames

/-- Number of subtrees before the cursor in the preorder of a tree. -/
def place (root : Subtree) (cursor : ReuseFrames) : Nat := root.count - cursor.ahead

/-- The cursors that calls lead to: after calls for candidates at positions up to `position`, the
cursor is there, `offered` says whether the latest call has just offered a subtree, and `rejected`
are the places of the subtrees that were offered and rejected. -/
inductive Session (root : Subtree) : (cursor : ReuseFrames) → (position : Nat) →
    (offered : Bool) → (rejected : List Nat) → Prop
  /-- Nothing was called for. -/
  | start : Session root (ofRoot root) 0 false []
  /-- A candidate is called for, at no earlier position than before. -/
  | candidate {cursor : ReuseFrames} {position : Nat} {offered : Bool} {rejected : List Nat}
    (before : Session root cursor position offered rejected) {later : Nat}
    (monotone : position ≤ later) :
    Session root (cursor.candidate later).2 later (cursor.candidate later).1.isSome rejected
  /-- The subtree that was offered is rejected. -/
  | reject {cursor : ReuseFrames} {position : Nat} {rejected : List Nat}
    (before : Session root cursor position true rejected) :
    Session root cursor.reject position false (cursor.place root :: rejected)

/-- Whether the subtree at a place of the preorder can be offered at a position: the cursor has not
passed it, it was not rejected, it holds text and starts there. -/
def Wanted (root : Subtree) (cursor : ReuseFrames) (rejected : List Nat) (position index : Nat) :
    Prop :=
  cursor.place root ≤ index ∧ index ∉ rejected ∧
    ∃ node, (root.inOrder 0)[index]? = some node ∧
      0 < node.subtree.length ∧ node.start = position

/-- What calls can count on at a cursor. -/
structure OffersOutermost (root : Subtree) (cursor : ReuseFrames) (position : Nat)
    (offered : Bool) (rejected : List Nat) : Prop where
  /-- The cursor stands at the subtree of its place. -/
  current : cursor.current? = (root.inOrder 0)[cursor.place root]?
  /-- What is offered at a position is the first subtree that can be, and the cursor moves there. -/
  offers {later : Nat} (monotone : position ≤ later) {subtree : Subtree} {after : ReuseFrames} :
    cursor.candidate later = (some subtree, after) →
      IsLeast {index | Wanted root cursor rejected later index} (after.place root) ∧
        (root.inOrder 0)[after.place root]? = some ⟨subtree, later⟩
  /-- If nothing is offered at a position, there is nothing that can be. -/
  nothing {later : Nat} (monotone : position ≤ later) {after : ReuseFrames} :
    cursor.candidate later = (none, after) → ∀ index, ¬Wanted root cursor rejected later index
  /-- A rejection moves on to the first child of the subtree that was offered. -/
  child : offered = true → ∀ node ∈ cursor.current?, ∀ child ∈ node.subtree.children.head?,
    cursor.reject.current? = some ⟨child, node.start⟩
  /-- With or without children, that is the next subtree in preorder. -/
  next : offered = true → cursor.reject.place root = cursor.place root + 1 ∧
    cursor.reject.current? = (root.inOrder 0)[cursor.place root + 1]?
  /-- What was passed was rejected, or is empty, or starts before the position. -/
  passed : ∀ index < cursor.place root, ∀ node ∈ (root.inOrder 0)[index]?,
    index ∈ rejected ∨ node.subtree.length = 0 ∨ node.start < position

/-! ## What every call keeps -/

/-- What holds of the cursor after every call. -/
structure Standing (root : Subtree) (cursor : ReuseFrames) (position : Nat) (offered : Bool)
    (rejected : List Nat) : Prop where
  /-- All parts that are still to come are tiled. -/
  tiled : cursor.toCursor.Each Subtree.Tiled
  /-- The subtrees still to come are those from the place of the cursor on. -/
  document : cursor.toCursor.document = (root.inOrder 0).drop (cursor.place root)
  /-- The subtree that was offered is the current one. -/
  head : offered = true → ∃ node ∈ cursor.toCursor.pending.head?,
    node.start = position ∧ 0 < node.subtree.length
  /-- The cursor has passed what was rejected. -/
  behind : ∀ index ∈ rejected, index < cursor.place root
  /-- It has passed nothing else that could be offered at a position still to come. -/
  passed : ∀ index < cursor.place root, ∀ node ∈ (root.inOrder 0)[index]?,
    index ∈ rejected ∨ node.subtree.length = 0 ∨ node.start < position

section Steps

variable {root : Subtree} {cursor : ReuseFrames} {position : Nat} {offered : Bool}
  {rejected : List Nat}

theorem place_eq_length {passed : List Node}
    (split : root.inOrder 0 = passed ++ cursor.toCursor.document) :
    cursor.place root = passed.length := by
  have total := congrArg List.length split
  rw [List.length_append, Subtree.length_inOrder, length_document] at total
  rw [place]
  omega

theorem standing_ofRoot (tiled : root.Tiled) : Standing root (ofRoot root) 0 false [] := by
  have first : (ofRoot root).place root = 0 :=
    @place_eq_length root (ofRoot root) [] (ReuseCursor.document_ofRoot root).symm
  refine ⟨List.forall_mem_singleton.2 tiled, ?_, nofun, nofun, ?_⟩
  · rw [first]
    exact ReuseCursor.document_ofRoot root
  · rw [first]
    exact fun _ never => absurd never (Nat.not_lt_zero _)

namespace Standing

variable (standing : Standing root cursor position offered rejected)

include standing

theorem split : root.inOrder 0 =
    (root.inOrder 0).take (cursor.place root) ++ cursor.toCursor.document := by
  rw [standing.document, List.take_append_drop]

/-- The subtrees that a call for a candidate passes stand between the places of the cursor before
and after it. -/
theorem split_candidate (later : Nat) : ∃ passed : List Node,
    root.inOrder 0 = (root.inOrder 0).take (cursor.place root) ++ passed ++
        (cursor.candidate later).2.toCursor.document ∧
      (cursor.candidate later).2.place root = cursor.place root + passed.length ∧
      ∀ node ∈ passed, node.subtree.length = 0 ∨ node.start < later := by
  obtain ⟨passed, split, harmless⟩ := cursor.candidate_passes later standing.tiled
  have whole := standing.split
  rw [split, ← List.append_assoc] at whole
  have before : ((root.inOrder 0).take (cursor.place root)).length = cursor.place root :=
    (place_eq_length standing.split).symm
  refine ⟨passed, whole, ?_, harmless⟩
  rw [place_eq_length whole, List.length_append, before]

theorem candidate {later : Nat} (monotone : position ≤ later) :
    Standing root (cursor.candidate later).2 later (cursor.candidate later).1.isSome rejected := by
  obtain ⟨passed, split, moved, harmless⟩ := standing.split_candidate later
  obtain ⟨searched, answer, -⟩ := cursor.candidate_eq later
  have before : ((root.inOrder 0).take (cursor.place root)).length = cursor.place root :=
    (place_eq_length standing.split).symm
  refine ⟨?_, ?_, fun offered => ?_, fun index member => ?_, fun index inside node member => ?_⟩
  · rw [searched]
    exact ReuseCursor.Each.later standing.tiled (fun own => own.child) (.seek _ _ .refl)
  · rw [place_eq_length split]
    nth_rewrite 2 [split]
    exact List.drop_left.symm
  · obtain ⟨subtree, found⟩ := Option.isSome_iff_exists.1 offered
    obtain ⟨rest, first⟩ := ReuseCursor.candidate?_eq_some_iff.1 (answer.symm.trans found)
    have current : ⟨subtree, later⟩ ∈ (cursor.candidate later).2.toCursor.pending.head? := by
      rw [first]
      rfl
    exact ⟨_, current, rfl,
      Nat.lt_add_right_iff_pos.1 (cursor.reaches_candidate later _ current).2⟩
  · have earlier := standing.behind index member
    omega
  · by_cases early : index < cursor.place root
    · rcases standing.passed index early node member with refused | empty | start
      · exact .inl refused
      · exact .inr (.inl empty)
      · exact .inr (.inr (Nat.lt_of_lt_of_le start monotone))
    · refine .inr (harmless node ?_)
      rw [split, List.append_assoc, List.getElem?_append_right (by omega), before,
        List.getElem?_append_left (by omega)] at member
      exact List.mem_of_getElem? member

theorem place_reject (isOffered : offered = true) :
    cursor.reject.place root = cursor.place root + 1 := by
  obtain ⟨node, current, -⟩ := standing.head isOffered
  have first : cursor.toCursor.document = node :: cursor.reject.toCursor.document := by
    rw [toCursor_reject, ReuseCursor.document_reject]
    refine (List.cons_head?_tail ?_).symm
    rwa [ReuseCursor.head?_document]
  have whole := standing.split
  rw [first, List.append_cons] at whole
  have before := place_eq_length standing.split
  rw [place_eq_length whole, List.length_append, ← before]
  rfl

theorem reject (isOffered : offered = true) :
    Standing root cursor.reject position false (cursor.place root :: rejected) := by
  have moved := standing.place_reject isOffered
  refine ⟨?_, ?_, nofun, fun index member => ?_, fun index inside node member => ?_⟩
  · rw [toCursor_reject]
    exact ReuseCursor.Each.later standing.tiled (fun own => own.child) (.reject .refl)
  · rw [toCursor_reject, ReuseCursor.document_reject, standing.document, List.tail_drop, moved]
  · rcases List.mem_cons.1 member with rfl | earlier
    · omega
    · have behind := standing.behind index earlier
      omega
  · by_cases here : index = cursor.place root
    · exact .inl (here ▸ List.mem_cons_self)
    · rcases standing.passed index (by omega) node member with refused | harmless
      · exact .inl (List.mem_cons_of_mem _ refused)
      · exact .inr harmless

/-! ## What is offered -/

theorem current : cursor.current? = (root.inOrder 0)[cursor.place root]? := by
  rw [current?_eq, ← ReuseCursor.head?_document, standing.document, List.head?_drop]

/-- What comes after the cursor does not start earlier. -/
theorem sorted (tiled : root.Tiled) : cursor.toCursor.document.Pairwise (·.start ≤ ·.start) := by
  rw [standing.document]
  exact (tiled.sorted 0).drop

/-- Nothing that can be offered at the latest position was passed. -/
theorem place_le {earlier : ReuseFrames} {index : Nat}
    (wanted : Wanted root earlier rejected position index) : cursor.place root ≤ index := by
  obtain ⟨-, kept, node, here, text, start⟩ := wanted
  by_contra inside
  rcases standing.passed index (Nat.lt_of_not_le inside) node here with refused | empty | before
  · exact kept refused
  · omega
  · omega

theorem offers {later : Nat} (monotone : position ≤ later) {subtree : Subtree}
    {after : ReuseFrames} (found : cursor.candidate later = (some subtree, after)) :
    IsLeast {index | Wanted root cursor rejected later index} (after.place root) ∧
      (root.inOrder 0)[after.place root]? = some ⟨subtree, later⟩ := by
  have moved := standing.candidate monotone
  obtain ⟨passed, -, further, -⟩ := standing.split_candidate later
  obtain ⟨-, answer, -⟩ := cursor.candidate_eq later
  simp only [found] at moved further answer
  obtain ⟨rest, first⟩ := ReuseCursor.candidate?_eq_some_iff.1 answer.symm
  have here : (root.inOrder 0)[after.place root]? = some ⟨subtree, later⟩ := by
    rw [← moved.current, current?_eq, first]
    rfl
  obtain ⟨node, isHead, start, text⟩ := moved.head rfl
  rw [first] at isHead
  obtain rfl := Option.some.inj isHead
  refine ⟨⟨⟨by omega, fun refused => ?_, _, here, text, start⟩, fun index => moved.place_le⟩, here⟩
  exact absurd (moved.behind _ refused) (Nat.lt_irrefl _)

theorem nothing (tiled : root.Tiled) {later : Nat} (monotone : position ≤ later)
    {after : ReuseFrames} (found : cursor.candidate later = (none, after)) (index : Nat) :
    ¬Wanted root cursor rejected later index := by
  intro wanted
  have moved := standing.candidate monotone
  obtain ⟨-, answer, -⟩ := cursor.candidate_eq later
  have reaches := cursor.reaches_candidate later
  simp only [found] at moved answer reaches
  have coming := moved.place_le wanted
  obtain ⟨-, -, node, here, -, start⟩ := wanted
  have member : node ∈ after.toCursor.document := by
    refine List.mem_of_getElem? (i := index - after.place root) ?_
    rw [moved.document, List.getElem?_drop, Nat.add_sub_cancel' coming, here]
  cases first : after.toCursor.document with
  | nil => exact absurd (first ▸ member) List.not_mem_nil
  | cons head rest =>
    have isHead : head ∈ after.toCursor.pending.head? := by
      rw [← ReuseCursor.head?_document, first]
      rfl
    have elsewhere := ReuseCursor.candidate?_eq_none_iff.1 answer.symm head isHead
    have order := moved.sorted tiled
    rw [first] at member order
    have notBefore := (reaches head isHead).1
    have least : head.start ≤ node.start := by
      rcases List.mem_cons.1 member with rfl | later
      · exact Nat.le_refl _
      · exact List.rel_of_pairwise_cons order later
    omega

theorem offersOutermost (tiled : root.Tiled) :
    OffersOutermost root cursor position offered rejected where
  current := standing.current
  offers monotone _ _ found := standing.offers monotone found
  nothing monotone _ found := standing.nothing tiled monotone found
  child isOffered node isCurrent child first := by
    rw [current?_eq] at isCurrent
    rw [current?_eq, toCursor_reject]
    generalize cursor.toCursor = place at isCurrent
    obtain ⟨_ | ⟨head, rest⟩⟩ := place
    · cases isCurrent
    · obtain rfl := Option.some.inj isCurrent
      obtain ⟨others, children⟩ := List.head?_eq_some_iff.1 first
      change (Subtree.placed head.start head.subtree.children ++ rest).head? = _
      rw [children]
      rfl
  next isOffered := by
    have moved := standing.place_reject isOffered
    exact ⟨moved, moved ▸ (standing.reject isOffered).current⟩
  passed := standing.passed

end Standing

end Steps

theorem Session.standing {root : Subtree} (tiled : root.Tiled) {cursor : ReuseFrames}
    {position : Nat} {offered : Bool} {rejected : List Nat}
    (session : Session root cursor position offered rejected) :
    Standing root cursor position offered rejected := by
  induction session with
  | start => exact standing_ofRoot tiled
  | candidate before monotone standing => exact standing.candidate monotone
  | reject before standing => exact standing.reject rfl

/-- In a tiled tree the parser is always offered the outermost subtree that it can still use, and no
subtree is passed that could be used later, unless the parser rejected it. -/
theorem Session.offers_outermost {root : Subtree} (tiled : root.Tiled) {cursor : ReuseFrames}
    {position : Nat} {offered : Bool} {rejected : List Nat}
    (session : Session root cursor position offered rejected) :
    OffersOutermost root cursor position offered rejected :=
  (session.standing tiled).offersOutermost tiled

/-- A subtree is offered at its own start if it holds text. -/
theorem candidate_here (frame : ReuseFrame) (below : List ReuseFrame)
    (text : 0 < frame.subtree.length) :
    candidate frame.start ⟨frame :: below⟩ = (some frame.subtree, ⟨frame :: below⟩) := by
  rw [candidate, if_neg (by omega), if_neg (Nat.lt_irrefl _), if_pos rfl]

/-- Two tokens in a node. -/
def innerWords : Subtree :=
  .ofChildren 1 default
    [.ofLeaf 2 { (default : LeafSpec) with length := 1 },
      .ofLeaf 3 { (default : LeafSpec) with length := 2 }]

/-- Two tokens in a node before another one. -/
def nestedWords : Subtree :=
  .ofChildren 0 default [innerWords, .ofLeaf 4 { (default : LeafSpec) with length := 3 }]

theorem tiled_nestedWords : nestedWords.Tiled := by
  refine Subtree.tiled_ofChildren _ (List.forall_mem_cons.2 ⟨Subtree.tiled_ofChildren _ ?_,
    List.forall_mem_singleton.2 (Subtree.tiled_ofLeaf _)⟩)
  exact List.forall_mem_cons.2 ⟨Subtree.tiled_ofLeaf _,
    List.forall_mem_singleton.2 (Subtree.tiled_ofLeaf _)⟩

/-- The tree is offered whole, and after its rejection its first child. -/
theorem session_nestedWords :
    Session nestedWords (ofRoot nestedWords).reject 0 true [0] := by
  have whole := @Session.candidate nestedWords _ _ _ _ .start 0 (Nat.le_refl 0)
  have first : (ofRoot nestedWords).candidate 0 = (some nestedWords, ofRoot nestedWords) :=
    candidate_here ⟨nestedWords, 0, 0⟩ [] (by decide)
  rw [first] at whole
  have inner := @Session.candidate nestedWords _ _ _ _ (.reject whole) 0 (Nat.le_refl 0)
  have second : (ofRoot nestedWords).reject.candidate 0 =
      (some innerWords, (ofRoot nestedWords).reject) :=
    candidate_here ⟨innerWords, 0, 0⟩ [⟨nestedWords, 0, 0⟩] (by decide)
  rw [second] at inner
  exact inner

theorem Session.offers_outermost_nestedWords :
    nestedWords.Tiled ∧ Session nestedWords (ofRoot nestedWords).reject 0 true [0] ∧
      OffersOutermost nestedWords (ofRoot nestedWords).reject 0 true [0] :=
  ⟨tiled_nestedWords, session_nestedWords,
    Session.offers_outermost tiled_nestedWords session_nestedWords⟩

end ReuseFrames

end IncrementalGlr
