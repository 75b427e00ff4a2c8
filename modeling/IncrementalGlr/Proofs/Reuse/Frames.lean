import IncrementalGlr.Parse.Reuse
import IncrementalGlr.Proofs.Made

/-!
# Two cursors over an earlier tree

The cursor that keeps the way from the root and the cursor that keeps the parts still to come are in
the same place at all times: the parts are the current subtree and the later siblings along the way.
-/

namespace IncrementalGlr

namespace ReuseCursor

variable {accepts : Subtree → Bool} {position : Nat} {node : Node} {rest : List Node}

/-! ## Steps of a search -/

/-- What ends before the position is passed. -/
theorem seek_passed (before : node.start + node.subtree.length ≤ position) :
    seek accepts position ⟨node :: rest⟩ = seek accepts position ⟨rest⟩ := by
  obtain ⟨⟨data, children⟩, start⟩ := node
  have nothing : openAt accepts position start (.mk data children) = [] := by
    rw [openAt]
    exact if_pos before
  rw [seek, openPending, nothing, seek]

/-- What starts after the position ends the search, and so does what is accepted there. -/
theorem seek_stops (reaches : position < node.start + node.subtree.length)
    (stops : position < node.start ∨ node.start = position ∧ accepts node.subtree = true) :
    seek accepts position ⟨node :: rest⟩ = ⟨node :: rest⟩ := by
  obtain ⟨⟨data, children⟩, start⟩ := node
  have whole : openAt accepts position start (.mk data children) =
      [⟨.mk data children, start⟩] := by
    rw [openAt, if_neg (show ¬start + data.length ≤ position from Nat.not_le_of_lt reaches)]
    exact if_pos (by simpa using stops)
  rw [seek, openPending, whole]
  rfl

theorem openPending_placed (start : Nat) (children : List Subtree) (rest : List Node) :
    openPending accepts position (Subtree.placed start children ++ rest) =
      match openAllAt accepts position start children with
      | [] => openPending accepts position rest
      | parts => parts ++ rest := by
  induction children generalizing start with
  | nil => rfl
  | cons child children induction =>
    rw [Subtree.placed, List.cons_append, openPending, openAllAt, induction]
    cases openAt accepts position start child with
    | nil => rfl
    | cons part parts => simp

/-- What the position cuts, or what starts there and is not accepted, is broken into its
children. -/
theorem seek_opened (reaches : position < node.start + node.subtree.length)
    (goes : node.start ≤ position ∧ (node.start = position → accepts node.subtree = false)) :
    seek accepts position ⟨node :: rest⟩ =
      seek accepts position (reject ⟨node :: rest⟩) := by
  obtain ⟨⟨data, children⟩, start⟩ := node
  have opened : openAt accepts position start (.mk data children) =
      openAllAt accepts position start children := by
    rw [openAt, if_neg (show ¬start + data.length ≤ position from Nat.not_le_of_lt reaches)]
    refine if_neg fun stops => ?_
    rcases (Bool.or_eq_true _ _).mp stops with after | whole
    · exact absurd (of_decide_eq_true after) (Nat.not_lt.2 goes.1)
    · obtain ⟨here, accepted⟩ := (Bool.and_eq_true _ _).mp whole
      exact Bool.false_ne_true ((goes.2 (eq_of_beq here)).symm.trans accepted)
  rw [seek, openPending, opened, seek, reject]
  exact congrArg mk (openPending_placed start children rest).symm

theorem candidate?_eq_some_iff {cursor : ReuseCursor} {subtree : Subtree} :
    cursor.candidate? position = some subtree ↔
      ∃ rest, cursor.pending = ⟨subtree, position⟩ :: rest := by
  obtain ⟨_ | ⟨⟨first, start⟩, rest⟩⟩ := cursor
  · exact ⟨nofun, nofun⟩
  · simp [candidate?, and_comm]

theorem candidate?_eq_none_iff {cursor : ReuseCursor} :
    cursor.candidate? position = none ↔
      ∀ node ∈ cursor.pending.head?, node.start ≠ position := by
  obtain ⟨_ | ⟨node, rest⟩⟩ := cursor
  · exact ⟨fun _ => nofun, fun _ => rfl⟩
  · simp [candidate?]

end ReuseCursor

namespace ReuseFrames

/-- The later siblings of a frame and of all frames below it, in their places. -/
def siblings (frame : ReuseFrame) : List ReuseFrame → List Node
  | [] => []
  | parent :: below =>
    Subtree.placed (frame.start + frame.subtree.length)
      (parent.subtree.children.drop (frame.index + 1)) ++ siblings parent below

/-- The cursor with the parts that are still to come. -/
def toCursor (cursor : ReuseFrames) : ReuseCursor :=
  match cursor.frames with
  | [] => ⟨[]⟩
  | frame :: below => ⟨⟨frame.subtree, frame.start⟩ :: siblings frame below⟩

theorem toCursor_ofRoot (root : Subtree) : (ofRoot root).toCursor = .ofRoot root := rfl

theorem current?_eq (cursor : ReuseFrames) : cursor.current? = cursor.toCursor.pending.head? := by
  obtain ⟨_ | ⟨frame, below⟩⟩ := cursor <;> rfl

theorem toCursor_advance (frame : ReuseFrame) (below : List ReuseFrame) :
    (advance ⟨frame :: below⟩).toCursor = ⟨siblings frame below⟩ := by
  induction below generalizing frame with
  | nil => rfl
  | cons parent below induction =>
    rw [advance, passed, siblings]
    cases found : parent.subtree.children[frame.index + 1]? with
    | some next =>
      obtain ⟨inside, rfl⟩ := List.getElem?_eq_some_iff.1 found
      rw [List.drop_eq_getElem_cons inside]
      rfl
    | none =>
      rw [List.drop_eq_nil_of_le (List.getElem?_eq_none_iff.1 found)]
      exact induction parent

theorem toCursor_reject (cursor : ReuseFrames) :
    cursor.reject.toCursor = cursor.toCursor.reject := by
  obtain ⟨_ | ⟨⟨⟨data, children⟩, start, index⟩, below⟩⟩ := cursor
  · rfl
  · cases children with
    | nil => exact toCursor_advance _ below
    | cons child rest => rfl

/-- The subtree that is offered is the one that the search of the other cursor finds, whatever it is
looked for afterwards. -/
theorem candidate_eq (position : Nat) (cursor : ReuseFrames) :
    (cursor.candidate position).2.toCursor = cursor.toCursor.seek (fun _ => true) position ∧
      (cursor.candidate position).1 =
        (cursor.candidate position).2.toCursor.candidate? position ∧
      ∀ accepts, (cursor.candidate position).2.toCursor.seek accepts position =
        cursor.toCursor.seek accepts position := by
  fun_induction candidate position cursor with
  | case1 => exact ⟨rfl, rfl, fun _ => rfl⟩
  | case2 frame below before induction =>
    have passed : ∀ accepts, (advance ⟨frame :: below⟩).toCursor.seek accepts position =
        (toCursor ⟨frame :: below⟩).seek accepts position := fun accepts =>
      toCursor_advance frame below ▸ (ReuseCursor.seek_passed before).symm
    exact ⟨induction.1.trans (passed _), induction.2.1, fun accepts =>
      (induction.2.2 accepts).trans (passed accepts)⟩
  | case3 frame below reaches after =>
    refine ⟨(ReuseCursor.seek_stops (Nat.lt_of_not_le reaches) (.inl after)).symm, ?_,
      fun _ => rfl⟩
    exact (if_neg fun here => absurd (eq_of_beq here) (Nat.ne_of_gt after)).symm
  | case4 frame below reaches notAfter here =>
    refine ⟨(ReuseCursor.seek_stops (Nat.lt_of_not_le reaches) (.inr ⟨here, rfl⟩)).symm, ?_,
      fun _ => rfl⟩
    exact (if_pos (beq_iff_eq.2 here)).symm
  | case5 frame below reaches notAfter elsewhere induction =>
    have opened : ∀ accepts, (reject ⟨frame :: below⟩).toCursor.seek accepts position =
        (toCursor ⟨frame :: below⟩).seek accepts position := fun accepts =>
      toCursor_reject _ ▸ (ReuseCursor.seek_opened (Nat.lt_of_not_le reaches)
        ⟨Nat.le_of_not_lt notAfter, fun here => absurd here elsewhere⟩).symm
    exact ⟨induction.1.trans (opened _), induction.2.1, fun accepts =>
      (induction.2.2 accepts).trans (opened accepts)⟩

/-- A search ends at a subtree that the position neither follows nor cuts. -/
theorem reaches_candidate (position : Nat) (cursor : ReuseFrames) :
    ∀ node ∈ (cursor.candidate position).2.toCursor.pending.head?,
      position ≤ node.start ∧ position < node.start + node.subtree.length := by
  fun_induction candidate position cursor with
  | case1 =>
    intro node never
    cases never
  | case2 frame below before induction => exact induction
  | case3 frame below reaches after =>
    rintro _ ⟨⟩
    exact ⟨Nat.le_of_lt after, Nat.lt_of_not_le reaches⟩
  | case4 frame below reaches notAfter here =>
    rintro _ ⟨⟩
    exact ⟨Nat.le_of_eq here.symm, Nat.lt_of_not_le reaches⟩
  | case5 frame below reaches notAfter elsewhere induction => exact induction

/-- The loop over offers and rejections finds what the search for an accepted subtree finds. -/
theorem offer_eq (accepts : Subtree → Bool) (position : Nat) (cursor : ReuseFrames) :
    (cursor.offer accepts position).2.toCursor = cursor.toCursor.seek accepts position ∧
      (cursor.offer accepts position).1 =
        (cursor.toCursor.seek accepts position).candidate? position := by
  fun_induction offer accepts position cursor with
  | case1 cursor after found =>
    obtain ⟨-, nothing, same⟩ := cursor.candidate_eq position
    have reaches := cursor.reaches_candidate position
    simp only [found] at nothing same reaches
    have elsewhere := ReuseCursor.candidate?_eq_none_iff.1 nothing.symm
    have stays : after.toCursor.seek accepts position = after.toCursor := by
      generalize after.toCursor = place at reaches elsewhere
      obtain ⟨_ | ⟨node, rest⟩⟩ := place
      · rfl
      · obtain ⟨notBefore, inside⟩ := reaches node rfl
        exact ReuseCursor.seek_stops inside
          (.inl (Nat.lt_of_le_of_ne notBefore (elsewhere node rfl).symm))
    rw [← same, stays]
    exact ⟨rfl, nothing⟩
  | case2 cursor subtree after found fewer accepted =>
    obtain ⟨-, offered, same⟩ := cursor.candidate_eq position
    have reaches := cursor.reaches_candidate position
    simp only [found] at offered same reaches
    have stays : after.toCursor.seek accepts position = after.toCursor := by
      obtain ⟨rest, here⟩ := ReuseCursor.candidate?_eq_some_iff.1 offered.symm
      rw [show after.toCursor = ⟨_ :: rest⟩ from congrArg ReuseCursor.mk here]
      exact ReuseCursor.seek_stops (reaches _ (here ▸ rfl)).2 (.inr ⟨rfl, accepted⟩)
    rw [← same, stays]
    exact ⟨rfl, offered⟩
  | case3 cursor subtree after found fewer refused induction =>
    obtain ⟨-, offered, same⟩ := cursor.candidate_eq position
    have reaches := cursor.reaches_candidate position
    simp only [found] at offered same reaches
    have opened : after.reject.toCursor.seek accepts position =
        after.toCursor.seek accepts position := by
      obtain ⟨rest, here⟩ := ReuseCursor.candidate?_eq_some_iff.1 offered.symm
      rw [toCursor_reject, show after.toCursor = ⟨_ :: rest⟩ from congrArg ReuseCursor.mk here]
      exact (ReuseCursor.seek_opened (reaches _ (here ▸ rfl)).2
        ⟨Nat.le_refl _, fun _ => Bool.eq_false_iff.2 refused⟩).symm
    rw [← same, ← opened]
    exact induction

end ReuseFrames

/-! ## Offers in the order of the text

The cursor over an edited tree stands at a subtree of the preorder of the tree.  A rejection moves
it on by one, and a call for a candidate passes only what is empty or starts before the position.
So nothing that could still be used is passed unless it was offered and rejected.
-/

namespace Subtree

mutual

/-- A subtree at `start` and all subtrees below it in preorder, in their places. -/
def inOrder (start : Nat) : Subtree → List Node
  | .mk data children => ⟨.mk data children, start⟩ :: inOrderAll start children

/-- The same for subtrees that stand one after the other. -/
def inOrderAll (start : Nat) : List Subtree → List Node
  | [] => []
  | child :: rest => child.inOrder start ++ inOrderAll (start + child.length) rest

end

theorem inOrder_eq_cons (start : Nat) (subtree : Subtree) :
    subtree.inOrder start = ⟨subtree, start⟩ :: inOrderAll start subtree.children := by
  cases subtree
  rfl

theorem inOrderAll_eq_flatMap (start : Nat) (subtrees : List Subtree) :
    inOrderAll start subtrees =
      (placed start subtrees).flatMap fun node => node.subtree.inOrder node.start := by
  induction subtrees generalizing start with
  | nil => rfl
  | cons child rest induction => exact congrArg (child.inOrder start ++ ·) (induction _)

mutual

theorem length_inOrder (start : Nat) (subtree : Subtree) :
    (subtree.inOrder start).length = subtree.count := by
  cases subtree with
  | mk data children => exact congrArg (· + 1) (length_inOrderAll start children)

theorem length_inOrderAll (start : Nat) (subtrees : List Subtree) :
    (inOrderAll start subtrees).length = countAll subtrees := by
  cases subtrees with
  | nil => rfl
  | cons child rest =>
    rw [inOrderAll, List.length_append, length_inOrder start child,
      length_inOrderAll (start + child.length) rest, countAll]

end


/-! ### Places in tiled subtrees -/

/-- Whether a node lies between two offsets. -/
def Within (first last : Nat) (node : Node) : Prop :=
  first ≤ node.start ∧ node.start + node.subtree.length ≤ last

theorem within_inOrderAll {subtrees : List Subtree}
    (each : ∀ child ∈ subtrees, ∀ start, ∀ node ∈ child.inOrder start,
      Within start (start + child.length) node) (start : Nat) :
    ∀ node ∈ inOrderAll start subtrees, Within start (start + totalLength subtrees) node := by
  induction subtrees generalizing start with
  | nil => exact fun _ never => absurd never List.not_mem_nil
  | cons child rest induction =>
    obtain ⟨first, others⟩ := List.forall_mem_cons.1 each
    rw [inOrderAll, totalLength_cons]
    refine List.forall_mem_append.2 ⟨fun node member => ?_, fun node member => ?_⟩
    · obtain ⟨lower, upper⟩ := first start node member
      exact ⟨lower, by omega⟩
    · obtain ⟨lower, upper⟩ := induction others (start + child.length) node member
      exact ⟨by omega, by omega⟩

/-- What is below a tiled subtree lies inside it. -/
theorem Tiled.within {subtree : Subtree} (tiled : subtree.Tiled) (start : Nat) :
    ∀ node ∈ subtree.inOrder start, Within start (start + subtree.length) node := by
  induction tiled generalizing start with
  | @mk subtree bare filled under induction =>
    have room := (Tiled.mk bare filled under).totalLength_children_le
    rw [inOrder_eq_cons]
    refine List.forall_mem_cons.2 ⟨⟨Nat.le_refl _, Nat.le_refl _⟩, fun node member => ?_⟩
    obtain ⟨lower, upper⟩ := within_inOrderAll induction start node member
    exact ⟨lower, by omega⟩

theorem sorted_inOrderAll {subtrees : List Subtree} (tiled : ∀ child ∈ subtrees, child.Tiled)
    (each : ∀ child ∈ subtrees, ∀ start, (child.inOrder start).Pairwise (·.start ≤ ·.start))
    (start : Nat) : (inOrderAll start subtrees).Pairwise (·.start ≤ ·.start) := by
  induction subtrees generalizing start with
  | nil => exact List.Pairwise.nil
  | cons child rest induction =>
    obtain ⟨first, others⟩ := List.forall_mem_cons.1 each
    obtain ⟨firstTiled, othersTiled⟩ := List.forall_mem_cons.1 tiled
    refine List.pairwise_append.2 ⟨first start, induction othersTiled others _, ?_⟩
    intro node member other otherMember
    have before := (firstTiled.within start node member).2
    have after := (within_inOrderAll (fun next nextMember => (othersTiled next nextMember).within)
      (start + child.length) other otherMember).1
    omega

/-- In preorder a subtree never starts before an earlier one. -/
theorem Tiled.sorted {subtree : Subtree} (tiled : subtree.Tiled) (start : Nat) :
    (subtree.inOrder start).Pairwise (·.start ≤ ·.start) := by
  induction tiled generalizing start with
  | mk bare filled under induction =>
    rw [inOrder_eq_cons]
    refine List.pairwise_cons.2 ⟨fun node member => ?_, sorted_inOrderAll under induction start⟩
    exact (within_inOrderAll (fun child childMember => (under child childMember).within)
      start node member).1

end Subtree

namespace ReuseCursor

/-- The subtrees that are still to come, in preorder. -/
def document (cursor : ReuseCursor) : List Node :=
  cursor.pending.flatMap fun node => node.subtree.inOrder node.start

theorem document_ofRoot (root : Subtree) : (ofRoot root).document = root.inOrder 0 :=
  List.append_nil _

theorem document_cons (node : Node) (rest : List Node) :
    document ⟨node :: rest⟩ = node.subtree.inOrder node.start ++ document ⟨rest⟩ := rfl

theorem head?_document (cursor : ReuseCursor) : cursor.document.head? = cursor.pending.head? := by
  obtain ⟨_ | ⟨⟨⟨data, children⟩, start⟩, rest⟩⟩ := cursor <;> rfl

/-- A rejection moves on by one subtree. -/
theorem document_reject (cursor : ReuseCursor) : cursor.reject.document = cursor.document.tail := by
  obtain ⟨_ | ⟨node, rest⟩⟩ := cursor
  · rfl
  · rw [document_cons, Subtree.inOrder_eq_cons, List.cons_append, List.tail_cons, reject, document,
      List.flatMap_append, ← Subtree.inOrderAll_eq_flatMap]
    rfl

end ReuseCursor

namespace ReuseFrames

theorem length_document_siblings (frame : ReuseFrame) (below : List ReuseFrame) :
    (ReuseCursor.document ⟨siblings frame below⟩).length = countAfter frame below := by
  induction below generalizing frame with
  | nil => rfl
  | cons parent below induction =>
    rw [ReuseCursor.document, siblings, List.flatMap_append, ← Subtree.inOrderAll_eq_flatMap,
      List.length_append, Subtree.length_inOrderAll]
    exact congrArg _ (induction parent)

theorem length_document (cursor : ReuseFrames) :
    cursor.toCursor.document.length = cursor.ahead := by
  obtain ⟨_ | ⟨frame, below⟩⟩ := cursor
  · rfl
  · rw [toCursor, ReuseCursor.document_cons, List.length_append, Subtree.length_inOrder,
      length_document_siblings, ahead]

/-- What is passed on the way to a candidate is empty or starts before the position. -/
theorem candidate_passes (position : Nat) (cursor : ReuseFrames)
    (tiled : cursor.toCursor.Each Subtree.Tiled) :
    ∃ passed, cursor.toCursor.document =
        passed ++ (cursor.candidate position).2.toCursor.document ∧
      ∀ node ∈ passed, node.subtree.length = 0 ∨ node.start < position := by
  fun_induction candidate position cursor with
  | case1 => exact ⟨[], rfl, fun _ never => absurd never List.not_mem_nil⟩
  | case2 frame below before induction =>
    have current := tiled _ List.mem_cons_self
    have rest : (advance ⟨frame :: below⟩).toCursor = ⟨siblings frame below⟩ :=
      toCursor_advance frame below
    obtain ⟨passed, split, harmless⟩ := induction (rest ▸ (List.forall_mem_cons.1 tiled).2)
    refine ⟨frame.subtree.inOrder frame.start ++ passed, ?_,
      List.forall_mem_append.2 ⟨?_, harmless⟩⟩
    · rw [List.append_assoc, ← split, rest]
      rfl
    · intro node member
      have inside := (current.within frame.start node member).2
      dsimp only at inside
      omega
  | case3 | case4 => exact ⟨[], rfl, fun _ never => absurd never List.not_mem_nil⟩
  | case5 frame below reaches notAfter elsewhere induction =>
    have rest := toCursor_reject ⟨frame :: below⟩
    obtain ⟨passed, split, harmless⟩ := induction
      (rest ▸ ReuseCursor.Each.later tiled (fun own => own.child) (.reject .refl))
    have first : (toCursor ⟨frame :: below⟩).document =
        ⟨frame.subtree, frame.start⟩ :: (reject ⟨frame :: below⟩).toCursor.document := by
      rw [rest, ReuseCursor.document_reject, toCursor, ReuseCursor.document_cons,
        Subtree.inOrder_eq_cons]
      rfl
    refine ⟨⟨frame.subtree, frame.start⟩ :: passed, ?_, List.forall_mem_cons.2 ⟨?_, harmless⟩⟩
    · rw [first, split, List.cons_append]
    · exact .inr (Nat.lt_of_le_of_ne (Nat.le_of_not_lt notAfter) elsewhere)

end ReuseFrames

end IncrementalGlr
