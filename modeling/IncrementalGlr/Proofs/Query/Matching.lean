import IncrementalGlr.Proofs.Query.Ways

/-!
# Where patterns match

A pattern matches at a node and the siblings after it if its steps match in some way in which the
captured nodes satisfy all conditions.  The search for a pattern finds such a way exactly if there
is one.
-/

namespace IncrementalGlr

namespace Predicate

/-- Whether captured nodes are as a condition asks for: each node recorded under the tested capture
has the expected text, the first nodes under two captures have the same text, or the pattern is found
in each node's text; if negated, all this is not so. -/
def Satisfied (text : Text) (captures : List QueryCapture) : Predicate → Prop
  | equal capture (.text expected) negated =>
    ∀ node, ⟨capture, node⟩ ∈ captures →
      ((node.text text).bytes = (Text.ofString expected).bytes ↔ negated = false)
  | equal capture (.capture other) negated =>
    ∀ left right, captures.find? (·.index == capture) = some left →
      captures.find? (·.index == other) = some right →
      ((left.node.text text).bytes = (right.node.text text).bytes ↔ negated = false)
  | found capture pattern negated =>
    ∀ node, ⟨capture, node⟩ ∈ captures →
      (pattern.isFoundIn (node.text text).decode.toList = true ↔ negated = false)

variable {text : Text} {captures : List QueryCapture}

theorem mem_texts {capture : Nat} {found : Text} : found ∈ texts text captures capture ↔
    ∃ node, ⟨capture, node⟩ ∈ captures ∧ node.text text = found := by
  simp only [texts, List.mem_map, List.mem_filter, beq_iff_eq]
  constructor
  · rintro ⟨⟨index, node⟩, ⟨member, rfl⟩, rfl⟩
    exact ⟨node, member, rfl⟩
  · rintro ⟨node, member, rfl⟩
    exact ⟨⟨capture, node⟩, ⟨member, rfl⟩, rfl⟩

theorem head?_texts (capture : Nat) : (texts text captures capture).head? =
    (captures.find? (·.index == capture)).map fun first => first.node.text text := by
  rw [texts, List.head?_map, List.head?_filter]

theorem bytes_beq_iff {left right : ByteArray} : (left == right) = true ↔ left = right := by
  rcases left with ⟨left⟩
  rcases right with ⟨right⟩
  change (left == right) = true ↔ _
  simp

theorem bne_eq_true_iff (found negated : Bool) :
    (found != negated) = true ↔ (found = true ↔ negated = false) := by
  cases found <;> cases negated <;> decide

theorem all_texts_iff {capture : Nat} {test : Text → Bool} {negated : Bool} :
    ((texts text captures capture).all fun found => test found != negated) = true ↔
      ∀ node, ⟨capture, node⟩ ∈ captures → (test (node.text text) = true ↔ negated = false) := by
  simp only [List.all_eq_true, bne_eq_true_iff, mem_texts]
  constructor
  · intro all node member
    exact all _ ⟨node, member, rfl⟩
  · rintro all found ⟨node, member, rfl⟩
    exact all node member

/-- The test of a condition decides it. -/
theorem holds_iff (predicate : Predicate) :
    predicate.holds text captures = true ↔ predicate.Satisfied text captures := by
  cases predicate with
  | equal capture other negated =>
      cases other with
      | text expected => simp only [holds, all_texts_iff, bytes_beq_iff, Satisfied]
      | capture other =>
          have first := @head?_texts text captures capture
          have second := @head?_texts text captures other
          unfold holds Satisfied
          cases left : captures.find? (·.index == capture) with
          | none =>
              rw [left, Option.map_none, List.head?_eq_none_iff] at first
              simp [first, left]
          | some leftFirst =>
              cases right : captures.find? (·.index == other) with
              | none =>
                  rw [right, Option.map_none, List.head?_eq_none_iff] at second
                  simp [second, right]
              | some rightFirst =>
                  rw [left, Option.map_some, List.head?_eq_some_iff] at first
                  rw [right, Option.map_some, List.head?_eq_some_iff] at second
                  obtain ⟨others, first⟩ := first
                  obtain ⟨more, second⟩ := second
                  simp only [first, second, left, right, bne_eq_true_iff, bytes_beq_iff,
                    Option.some.injEq]
                  refine ⟨?_, fun all => all leftFirst rightFirst rfl rfl⟩
                  rintro same _ _ rfl rfl
                  exact same
  | found capture pattern negated => exact all_texts_iff

end Predicate

namespace QueryPattern

/-- Whether a pattern matches at a node and the siblings after it with certain nodes captured: the
first step matches the node itself, and the other steps match among the siblings. -/
def MatchesAt (pattern : QueryPattern) (node : Node) (siblings : List Node)
    (captures : List QueryCapture) : Prop :=
  ∃ next last own others, pattern.first.Matches [node] 0 next own ∧
    QueryStep.MatchesInOrder pattern.rest siblings 0 last others ∧ captures = own ++ others

variable {pattern : QueryPattern} {text : Text} {node : Node} {siblings : List Node}

/-- The search for the steps of a pattern tries exactly the ways in which the pattern matches. -/
theorem tries_steps (pattern : QueryPattern) (node : Node) (siblings : List Node) :
    Matching.Tries [node]
      (fun next => Matching.step [node]
        (fun _ => Matching.sequence siblings (fun _ => next [node]) pattern.rest) pattern.first)
      fun position captures => position = 0 ∧ pattern.MatchesAt node siblings captures := by
  have others : ∀ _ : Nat, Matching.Tries [node]
      (fun next => Matching.sequence siblings (fun _ => next [node]) pattern.rest)
      fun position more => position = 0 ∧
        ∃ last, QueryStep.MatchesInOrder pattern.rest siblings 0 last more :=
    fun _ => (Matching.tries_sequence pattern.rest siblings 0).under 0
  have both := @Matching.Tries.andThen [node] _ _
    (fun _ next => Matching.sequence siblings (fun _ => next [node]) pattern.rest) _
    (Matching.tries_step pattern.first [node] 0) others
  refine both.congr fun position captures => ⟨?_, ?_⟩
  · rintro ⟨next, own, more, matched, ⟨rfl, last, rest⟩, rfl⟩
    exact ⟨rfl, next, last, own, more, matched, rest, rfl⟩
  · rintro ⟨rfl, next, last, own, more, matched, rest, rfl⟩
    exact ⟨next, own, more, matched, ⟨rfl, last, rest⟩, rfl⟩

/-- Whether all conditions of a pattern are satisfied. -/
def AllSatisfied (pattern : QueryPattern) (text : Text) (captures : List QueryCapture) : Prop :=
  ∀ predicate ∈ pattern.predicates, predicate.Satisfied text captures

/-- How the search for a pattern goes on when all steps have matched. -/
def check (pattern : QueryPattern) (text : Text) : Matching.Continuation := fun _ =>
  return pattern.predicates.all (Predicate.holds text (← get))

theorem restores_check (rest : List Node) : Matching.Restores (pattern.check text rest) := by
  intro captured final failed
  exact (congrArg Prod.snd failed).symm

theorem check_run_iff {rest : List Node} {captures final : List QueryCapture} :
    (pattern.check text rest).run captures = (true, final) ↔
      pattern.AllSatisfied text captures ∧ captures = final := by
  have satisfied : pattern.predicates.all (Predicate.holds text captures) = true ↔
      pattern.AllSatisfied text captures := by
    simp only [List.all_eq_true, Predicate.holds_iff, AllSatisfied]
  rw [← satisfied]
  exact ⟨fun same => ⟨congrArg Prod.fst same, congrArg Prod.snd same⟩,
    fun both => Prod.ext both.1 both.2⟩

theorem matchAt?_eq_some {captures : List QueryCapture} :
    pattern.matchAt? text node siblings = some captures ↔
      (pattern.search text node siblings).run [] = (true, captures) := by
  unfold matchAt?
  rcases (pattern.search text node siblings).run [] with ⟨_ | _, final⟩
  · exact ⟨fun none => absurd none.symm (Option.some_ne_none captures),
      fun same => by cases congrArg Prod.fst same⟩
  · exact ⟨fun same => congrArg (Prod.mk true) (Option.some.inj same),
      fun same => congrArg some (congrArg Prod.snd same)⟩

/-- Captured nodes that are found come from a way in which the pattern matches. -/
theorem matchAt?_sound {captures : List QueryCapture}
    (found : pattern.matchAt? text node siblings = some captures) :
    pattern.MatchesAt node siblings captures ∧ pattern.AllSatisfied text captures := by
  obtain ⟨position, more, ⟨-, matched⟩, further⟩ :=
    (pattern.tries_steps node siblings).found (fun _ => restores_check _)
      (matchAt?_eq_some.1 found)
  obtain ⟨satisfied, rfl⟩ := check_run_iff.1 further
  exact ⟨matched, satisfied⟩

/-- Where the pattern matches in some way, captured nodes are found. -/
theorem matchAt?_complete {captures : List QueryCapture}
    (matched : pattern.MatchesAt node siblings captures)
    (satisfied : pattern.AllSatisfied text captures) :
    (pattern.matchAt? text node siblings).isSome = true := by
  rcases searched : (pattern.search text node siblings).run [] with ⟨_ | _, final⟩
  · have missed := (pattern.tries_steps node siblings).missed (fun _ => restores_check _) searched
      ⟨rfl, matched⟩
    have passed : (pattern.check text [node]).run captures = (true, captures) :=
      check_run_iff.2 ⟨satisfied, rfl⟩
    cases congrArg Prod.fst (passed.symm.trans missed)
  · rw [matchAt?_eq_some.2 searched]
    rfl

/-- The search for a pattern is sound and complete: it gives captured nodes exactly if the first step
matches the node itself and the other steps match among the siblings in some way in which the
captured nodes satisfy all conditions; those that it gives come from such a way; and if it fails, the
nodes captured before are as they were. -/
theorem matchAt?_iff (pattern : QueryPattern) (text : Text) (node : Node) (siblings : List Node) :
    ((pattern.matchAt? text node siblings).isSome ↔
        ∃ captures, pattern.MatchesAt node siblings captures ∧
          pattern.AllSatisfied text captures) ∧
      (∀ captures, pattern.matchAt? text node siblings = some captures →
        pattern.MatchesAt node siblings captures ∧ pattern.AllSatisfied text captures) ∧
      Matching.Restores (pattern.search text node siblings) := by
  refine ⟨⟨fun found => ?_, ?_⟩, fun captures => matchAt?_sound, ?_⟩
  · obtain ⟨captures, found⟩ := Option.isSome_iff_exists.1 found
    exact ⟨captures, matchAt?_sound found⟩
  · rintro ⟨captures, matched, satisfied⟩
    exact matchAt?_complete matched satisfied
  · exact (pattern.tries_steps node siblings).restores fun _ => restores_check _

/-- A repetition that has taken all siblings gives one back to the step after it. -/
example :
    let leaf (start : Nat) : Node := ⟨default, start⟩
    let pattern : QueryPattern :=
      ⟨.node .any [] [0], [.repetition (.node .any [] [1]) .many, .node .any [] [2]], [], 0⟩
    (pattern.matchAt? (.ofString "") (leaf 0) [leaf 1, leaf 2, leaf 3]).map
        (List.map fun capture => (capture.index, capture.node.start)) =
      some [(0, 0), (1, 1), (1, 2), (2, 3)] := by
  decide

end QueryPattern

end IncrementalGlr
