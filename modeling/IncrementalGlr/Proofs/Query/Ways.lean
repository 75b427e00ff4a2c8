import IncrementalGlr.Query.Matching
import Mathlib.Data.List.Basic

/-!
# Searches and what they try

Where a step matches is said without a search: at which positions among siblings, up to which
position, and with which captured nodes.  A match never goes back, and if it does not go on it
captures nothing; so matches of nothing can be left out of any number of matches.

The search for a step finds a way to match from a position on exactly if there is one with which it
can go on, and if it finds none, the captured nodes are those from before.  The central notion is
that of a search which tries a set of ways.  It is closed under the combinations of searches that
steps are made of, so that there is one short case for each step.
-/

namespace IncrementalGlr

/-! ## Where steps match -/

namespace QueryStep

mutual

/-- Whether a step matches among siblings from a position on, what follows going on at another
position, with certain nodes captured. -/
inductive Matches : QueryStep → List Node → Nat → Nat → List QueryCapture → Prop
  /-- Any node from the position on that passes the test, if the children match below it. -/
  | node {test : NodeTest} {children : List QueryStep} {names : List Nat} {nodes : List Node}
      {start index stop : Nat} {node : Node} {below : List QueryCapture} (after : start ≤ index)
      (here : nodes[index]? = some node) (accepted : test.accepts node = true)
      (inner : MatchesInOrder children node.visibleChildren 0 stop below) :
      Matches (.node test children names) nodes start (index + 1)
        (names.map (fun name => ⟨name, node⟩) ++ below)
  /-- Any of the alternatives. -/
  | alternation {alternatives : List QueryStep} {chosen : QueryStep} {nodes : List Node}
      {start next : Nat} {captures : List QueryCapture} (member : chosen ∈ alternatives)
      (matched : Matches chosen nodes start next captures) :
      Matches (.alternation alternatives) nodes start next captures
  /-- All items in their order. -/
  | group {items : List QueryStep} {nodes : List Node} {start next : Nat}
      {captures : List QueryCapture} (matched : MatchesInOrder items nodes start next captures) :
      Matches (.group items) nodes start next captures
  /-- What is optional may be left out. -/
  | omitted {inner : QueryStep} {nodes : List Node} {start : Nat} :
      Matches (.repetition inner .optional) nodes start start []
  /-- What is optional may match. -/
  | present {inner : QueryStep} {nodes : List Node} {start next : Nat}
      {captures : List QueryCapture} (matched : Matches inner nodes start next captures) :
      Matches (.repetition inner .optional) nodes start next captures
  /-- Any number of times. -/
  | many {inner : QueryStep} {nodes : List Node} {start next : Nat}
      {captures : List QueryCapture} (matched : MatchesOften inner nodes start next captures) :
      Matches (.repetition inner .many) nodes start next captures
  /-- Once, and then any number of times. -/
  | atLeastOne {inner : QueryStep} {nodes : List Node} {start middle next : Nat}
      {first others : List QueryCapture} (once : Matches inner nodes start middle first)
      (more : MatchesOften inner nodes middle next others) :
      Matches (.repetition inner .atLeastOne) nodes start next (first ++ others)

/-- Whether steps match one after the other among siblings. -/
inductive MatchesInOrder : List QueryStep → List Node → Nat → Nat → List QueryCapture → Prop
  /-- No steps match nothing. -/
  | nil {nodes : List Node} {start : Nat} : MatchesInOrder [] nodes start start []
  /-- The other steps match from where the first one has come to. -/
  | cons {step : QueryStep} {steps : List QueryStep} {nodes : List Node}
      {start middle next : Nat} {first others : List QueryCapture}
      (once : Matches step nodes start middle first)
      (more : MatchesInOrder steps nodes middle next others) :
      MatchesInOrder (step :: steps) nodes start next (first ++ others)

/-- Whether a step matches any number of times among siblings. -/
inductive MatchesOften : QueryStep → List Node → Nat → Nat → List QueryCapture → Prop
  /-- Not at all. -/
  | never {step : QueryStep} {nodes : List Node} {start : Nat} :
      MatchesOften step nodes start start []
  /-- Once more. -/
  | again {step : QueryStep} {nodes : List Node} {start middle next : Nat}
      {first others : List QueryCapture} (once : Matches step nodes start middle first)
      (more : MatchesOften step nodes middle next others) :
      MatchesOften step nodes start next (first ++ others)

end

/-- What every match of a step has done when it comes to a position. -/
structure Advances (nodes : List Node) (start next : Nat) (captures : List QueryCapture) : Prop where
  /-- It has not gone back. -/
  le : start ≤ next
  /-- It has not gone beyond the last sibling. -/
  inside : next ≤ max start nodes.length
  /-- It has captured nothing where it has not gone on. -/
  idle : next = start → captures = []

variable {nodes : List Node} {start middle next : Nat} {first others captures : List QueryCapture}

theorem Advances.stay : Advances nodes start start [] :=
  ⟨Nat.le_refl start, Nat.le_max_left .., fun _ => rfl⟩

theorem Advances.trans (once : Advances nodes start middle first)
    (more : Advances nodes middle next others) : Advances nodes start next (first ++ others) where
  le := Nat.le_trans once.le more.le
  inside := by
    have := once.inside
    have := more.inside
    omega
  idle same := by
    have := once.le
    have := more.le
    rw [once.idle (by omega), more.idle (by omega)]
    rfl

mutual

theorem Matches.advances : ∀ {step : QueryStep} {nodes : List Node} {start next : Nat}
    {captures : List QueryCapture}, step.Matches nodes start next captures →
    Advances nodes start next captures
  | _, _, _, _, _, .node after here _ _ => by
      have inside := (List.getElem?_eq_some_iff.1 here).1
      exact ⟨by omega, by omega, fun same => by omega⟩
  | _, _, _, _, _, .alternation _ matched => matched.advances
  | _, _, _, _, _, .group matched => matched.advances
  | _, _, _, _, _, .omitted => .stay
  | _, _, _, _, _, .present matched => matched.advances
  | _, _, _, _, _, .many matched => matched.advances
  | _, _, _, _, _, .atLeastOne once more => once.advances.trans more.advances

theorem MatchesInOrder.advances : ∀ {steps : List QueryStep} {nodes : List Node} {start next : Nat}
    {captures : List QueryCapture}, MatchesInOrder steps nodes start next captures →
    Advances nodes start next captures
  | _, _, _, _, _, .nil => .stay
  | _, _, _, _, _, .cons once more => once.advances.trans more.advances

theorem MatchesOften.advances : ∀ {step : QueryStep} {nodes : List Node} {start next : Nat}
    {captures : List QueryCapture}, step.MatchesOften nodes start next captures →
    Advances nodes start next captures
  | _, _, _, _, _, .never => .stay
  | _, _, _, _, _, .again once more => once.advances.trans more.advances

end

/-- Whether a step matches more than nothing, and then any number of times. -/
def Progresses (step : QueryStep) (nodes : List Node) (start next : Nat)
    (captures : List QueryCapture) : Prop :=
  ∃ middle first others, start < middle ∧ step.Matches nodes start middle first ∧
    step.MatchesOften nodes middle next others ∧ captures = first ++ others

/-- Matches of nothing can be left out of any number of matches. -/
theorem MatchesOften.progresses {step : QueryStep} : ∀ {nodes : List Node} {start next : Nat}
    {captures : List QueryCapture}, step.MatchesOften nodes start next captures →
    step.Progresses nodes start next captures ∨ next = start ∧ captures = []
  | _, _, _, _, .never => .inr ⟨rfl, rfl⟩
  | _, _, _, _, .again once more => by
      have later := more.progresses
      rcases Nat.eq_or_lt_of_le once.advances.le with same | further
      · subst same
        rw [once.advances.idle rfl]
        exact later
      · exact .inl ⟨_, _, _, further, once, more, rfl⟩

theorem matchesOften_iff {step : QueryStep} : step.MatchesOften nodes start next captures ↔
    step.Progresses nodes start next captures ∨ next = start ∧ captures = [] := by
  refine ⟨MatchesOften.progresses, ?_⟩
  rintro (⟨middle, first, others, -, once, more, rfl⟩ | ⟨rfl, rfl⟩)
  · exact .again once more
  · exact .never

end QueryStep

/-! ## Searches -/

namespace Matching

open QueryStep

variable {nodes : List Node}

/-- Whether a search that fails leaves the captured nodes as they were. -/
def Restores (search : Search) : Prop :=
  ∀ {captured final : List QueryCapture}, search.run captured = (false, final) → final = captured

theorem restores_fail : Restores (return false) := by
  intro captured final failed
  exact (congrArg Prod.snd failed).symm

theorem either_run (first second : Search) (captured : List QueryCapture) :
    (either first second).run captured =
      match first.run captured with
      | (true, final) => (true, final)
      | (false, final) => second.run final := by
  change StateT.run (if (first.run captured).1 then return true else second)
    (first.run captured).2 = _
  rcases first.run captured with ⟨_ | _, final⟩ <;> rfl

theorem capturing_run (names : List QueryCapture) (search : Search)
    (captured : List QueryCapture) :
    (capturing names search).run captured =
      match search.run (captured ++ names) with
      | (true, final) => (true, final)
      | (false, final) => (false, final.take captured.length) := by
  change StateT.run (do
    if !(search.run (captured ++ names)).1 then modify (List.take captured.length)
    return (search.run (captured ++ names)).1) (search.run (captured ++ names)).2 = _
  rcases search.run (captured ++ names) with ⟨_ | _, final⟩ <;> rfl

/-- Whether a search tries exactly certain ways on among siblings, each given by the position where
it goes on and the nodes that it captures: if it succeeds it has gone on along one of them, and if it
fails none of them leads to success and the captured nodes are those from before. -/
structure Tries (nodes : List Node) (search : Continuation → Search)
    (ways : Nat → List QueryCapture → Prop) : Prop where
  /-- Success comes from one of the ways. -/
  found : ∀ {next : Continuation}, (∀ position, Restores (next (nodes.drop position))) →
    ∀ {captured final : List QueryCapture}, (search next).run captured = (true, final) →
      ∃ position more, ways position more ∧
        (next (nodes.drop position)).run (captured ++ more) = (true, final)
  /-- After a failure nothing is captured. -/
  restores : ∀ {next : Continuation}, (∀ position, Restores (next (nodes.drop position))) →
    Restores (search next)
  /-- No way is left out before a failure. -/
  missed : ∀ {next : Continuation}, (∀ position, Restores (next (nodes.drop position))) →
    ∀ {captured final : List QueryCapture}, (search next).run captured = (false, final) →
      ∀ {position : Nat} {more : List QueryCapture}, ways position more →
        (next (nodes.drop position)).run (captured ++ more) = (false, captured ++ more)

namespace Tries

variable {search other : Continuation → Search} {ways otherWays : Nat → List QueryCapture → Prop}

theorem congr (tries : Tries nodes search ways)
    (same : ∀ position more, ways position more ↔ otherWays position more) :
    Tries nodes search otherWays := by
  obtain rfl : ways = otherWays := funext fun position => funext fun more =>
    propext (same position more)
  exact tries

/-- A search that fails tries nothing. -/
theorem fail : Tries nodes (fun _ => return false) fun _ _ => False where
  found _ _ _ succeeded := by cases congrArg Prod.fst succeeded
  restores _ := restores_fail
  missed _ _ _ _ _ _ none := none.elim

/-- To go on at once is the only way that captures nothing and skips nothing. -/
theorem stay (start : Nat) :
    Tries nodes (fun next => next (nodes.drop start)) fun position more =>
      position = start ∧ more = [] where
  found _ captured _ succeeded := ⟨start, [], ⟨rfl, rfl⟩, by rwa [List.append_nil]⟩
  restores steady := steady start
  missed steady captured final failed position more way := by
    obtain ⟨rfl, rfl⟩ := way
    rw [List.append_nil, failed, steady position failed]

/-- Two searches of which the second is tried after the first try the ways of both. -/
theorem either (tries : Tries nodes search ways) (otherTries : Tries nodes other otherWays) :
    Tries nodes (fun next => either (search next) (other next)) fun position more =>
      ways position more ∨ otherWays position more := by
  have failed : ∀ {next : Continuation}, (∀ position, Restores (next (nodes.drop position))) →
      ∀ {captured final : List QueryCapture},
        (Matching.either (search next) (other next)).run captured = (false, final) →
        (search next).run captured = (false, captured) ∧
          (other next).run captured = (false, final) := by
    intro next steady captured final failed
    rw [either_run] at failed
    rcases first : (search next).run captured with ⟨_ | _, middle⟩
    · rw [first] at failed
      obtain rfl := tries.restores steady first
      exact ⟨rfl, failed⟩
    · rw [first] at failed
      cases congrArg Prod.fst failed
  constructor
  · intro next steady captured final succeeded
    rw [either_run] at succeeded
    rcases first : (search next).run captured with ⟨_ | _, middle⟩
    · rw [first] at succeeded
      obtain rfl := tries.restores steady first
      obtain ⟨position, more, way, further⟩ := otherTries.found steady succeeded
      exact ⟨position, more, .inr way, further⟩
    · rw [first] at succeeded
      obtain ⟨position, more, way, further⟩ := tries.found steady (first.trans succeeded)
      exact ⟨position, more, .inl way, further⟩
  · intro next steady captured final none
    exact otherTries.restores steady (failed steady none).2
  · intro next steady captured final none position more way
    obtain ⟨first, second⟩ := failed steady none
    rcases way with way | way
    · exact tries.missed steady first way
    · exact otherTries.missed steady second way

/-- A search that goes on with other searches, depending on where it has come to, tries the ways
along both. -/
theorem andThen {further : List Node → Continuation → Search}
    {furtherWays : Nat → Nat → List QueryCapture → Prop} (tries : Tries nodes search ways)
    (furtherTries : ∀ middle, Tries nodes (further (nodes.drop middle)) (furtherWays middle)) :
    Tries nodes (fun next => search fun rest => further rest next) fun position more =>
      ∃ middle first others, ways middle first ∧ furtherWays middle position others ∧
        more = first ++ others where
  found steady captured final succeeded := by
    obtain ⟨middle, first, way, succeeded⟩ :=
      tries.found (fun middle => (furtherTries middle).restores steady) succeeded
    obtain ⟨position, others, furtherWay, succeeded⟩ := (furtherTries middle).found steady succeeded
    exact ⟨position, first ++ others, ⟨middle, first, others, way, furtherWay, rfl⟩,
      by rwa [← List.append_assoc]⟩
  restores steady := tries.restores fun middle => (furtherTries middle).restores steady
  missed steady captured final failed position more way := by
    obtain ⟨middle, first, others, way, furtherWay, rfl⟩ := way
    have none := tries.missed (fun middle => (furtherTries middle).restores steady) failed way
    rw [← List.append_assoc]
    exact (furtherTries middle).missed steady none furtherWay

/-- A search among other siblings, after which it goes on at a fixed position. -/
theorem under {children : List Node} (tries : Tries children search ways) (start : Nat) :
    Tries nodes (fun next => search fun _ => next (nodes.drop start)) fun position more =>
      position = start ∧ ∃ stop, ways stop more where
  found steady captured final succeeded := by
    obtain ⟨stop, more, way, further⟩ := tries.found (fun _ => steady start) succeeded
    exact ⟨start, more, ⟨rfl, stop, way⟩, further⟩
  restores steady := tries.restores fun _ => steady start
  missed steady captured final failed position more way := by
    obtain ⟨rfl, stop, way⟩ := way
    exact tries.missed (fun _ => steady position) failed way

/-- Nodes that are captured first are captured along every way. -/
theorem capturing (tries : Tries nodes search ways) (names : List QueryCapture) :
    Tries nodes (fun next => capturing names (search next)) fun position more =>
      ∃ others, ways position others ∧ more = names ++ others := by
  have failed : ∀ {next : Continuation}, (∀ position, Restores (next (nodes.drop position))) →
      ∀ {captured final : List QueryCapture},
        (Matching.capturing names (search next)).run captured = (false, final) →
        final = captured ∧
          (search next).run (captured ++ names) = (false, captured ++ names) := by
    intro next steady captured final failed
    rw [capturing_run] at failed
    rcases inner : (search next).run (captured ++ names) with ⟨_ | _, middle⟩
    · rw [inner] at failed
      obtain rfl := tries.restores steady inner
      refine ⟨?_, rfl⟩
      rw [← (Prod.mk.inj failed).2, List.take_left]
    · rw [inner] at failed
      cases congrArg Prod.fst failed
  constructor
  · intro next steady captured final succeeded
    rw [capturing_run] at succeeded
    rcases inner : (search next).run (captured ++ names) with ⟨_ | _, middle⟩
    · rw [inner] at succeeded
      cases congrArg Prod.fst succeeded
    · rw [inner] at succeeded
      obtain ⟨position, others, way, further⟩ := tries.found steady (inner.trans succeeded)
      exact ⟨position, names ++ others, ⟨others, way, rfl⟩, by rwa [← List.append_assoc]⟩
  · intro next steady captured final none
    exact (failed steady none).1
  · intro next steady captured final none position more way
    obtain ⟨others, way, rfl⟩ := way
    rw [← List.append_assoc]
    exact tries.missed steady (failed steady none).2 way

/-- Where a search is tried at each of the siblings from a position on, all of them are tried. -/
theorem tryEach {attempt : Node → List Node → Continuation → Search}
    {captures : Node → List QueryCapture → Prop}
    (tries : ∀ node start, Tries nodes (attempt node (nodes.drop start)) fun position more =>
      position = start ∧ captures node more) (start : Nat) :
    Tries nodes (fun next => tryEach (fun node rest => attempt node rest next) (nodes.drop start))
      fun position more => ∃ index node, start ≤ index ∧ nodes[index]? = some node ∧
        position = index + 1 ∧ captures node more := by
  generalize left : nodes.length - start = count
  induction count generalizing start with
  | zero =>
      rw [List.drop_eq_nil_of_le (by omega)]
      refine fail.congr fun position more => ⟨False.elim, ?_⟩
      rintro ⟨index, node, after, here, -⟩
      have := (List.getElem?_eq_some_iff.1 here).1
      omega
  | succ count induction =>
      have before : start < nodes.length := by omega
      rw [List.drop_eq_getElem_cons before]
      refine ((tries nodes[start] (start + 1)).either (induction (start + 1) (by omega))).congr
        fun position more => ⟨?_, ?_⟩
      · rintro (⟨rfl, captured⟩ | ⟨index, node, after, rest⟩)
        · have here := List.getElem?_eq_getElem before
          exact ⟨start, nodes[start], Nat.le_refl start, here, rfl, captured⟩
        · exact ⟨index, node, by omega, rest⟩
      · rintro ⟨index, node, after, here, rfl, captured⟩
        rcases Nat.eq_or_lt_of_le after with rfl | after
        · obtain rfl := Option.some.inj ((List.getElem?_eq_getElem before).symm.trans here)
          exact .inl ⟨rfl, captured⟩
        · exact .inr ⟨index, node, after, here, rfl, captured⟩

/-- A step is repeated along all ways on which it matches any number of times, if the budget
reaches as far as the siblings. -/
theorem repeatWithin {inner : QueryStep} {once : List Node → Continuation → Search}
    (tries : ∀ start, Tries nodes (once (nodes.drop start)) (inner.Matches nodes start))
    {budget start : Nat} (enough : nodes.length ≤ start + budget) :
    Tries nodes (fun next => repeatWithin once next budget (nodes.drop start))
      (inner.MatchesOften nodes start) := by
  induction budget generalizing start with
  | zero =>
      refine (stay start).congr fun position more => ⟨?_, fun often => ?_⟩
      · rintro ⟨rfl, rfl⟩
        exact .never
      · have := often.advances.le
        have := often.advances.inside
        have same : position = start := by omega
        exact ⟨same, often.advances.idle same⟩
  | succ budget induction =>
      -- A repetition goes on only if it has come further, which leaves out no way on.
      refine (either ?_ (stay start)).congr fun position more => matchesOften_iff.symm
      rcases Nat.lt_or_ge start nodes.length with before | past
      · have further : ∀ middle, Tries nodes
            (fun next =>
              if (nodes.drop middle).length < (nodes.drop start).length then
                Matching.repeatWithin once next budget (nodes.drop middle)
              else return false)
            fun position more =>
              start < middle ∧ inner.MatchesOften nodes middle position more := by
          intro middle
          rw [List.length_drop, List.length_drop]
          by_cases progress : start < middle
          · simp only [show nodes.length - middle < nodes.length - start by omega, if_true]
            exact (induction (by omega)).congr fun position more =>
              ⟨fun often => ⟨progress, often⟩, And.right⟩
          · simp only [show ¬nodes.length - middle < nodes.length - start by omega, if_false]
            exact fail.congr fun position more => ⟨False.elim, fun way => progress way.1⟩
        have some_ : (nodes.drop start).isEmpty = false := by
          rw [List.isEmpty_eq_false_iff, ne_eq, List.drop_eq_nil_iff]
          omega
        simp only [some_]
        refine ((tries start).andThen further).congr fun position more => ⟨?_, ?_⟩
        · rintro ⟨middle, first, others, matched, ⟨progress, often⟩, rfl⟩
          exact ⟨middle, first, others, progress, matched, often, rfl⟩
        · rintro ⟨middle, first, others, progress, matched, often, rfl⟩
          exact ⟨middle, first, others, matched, ⟨progress, often⟩, rfl⟩
      · rw [List.drop_eq_nil_of_le past]
        refine fail.congr fun position more => ⟨False.elim, ?_⟩
        rintro ⟨middle, first, others, progress, matched, -⟩
        have := matched.advances.inside
        omega

end Tries

/-- A node is tried if it passes the test: its children must match, and the node is captured before
what is captured among them. -/
theorem tries_attempt {test : NodeTest} {children : List QueryStep} {names : List Nat}
    (below : ∀ nodes, Tries nodes (fun next => sequence nodes next children)
      (MatchesInOrder children nodes 0)) (nodes : List Node) (node : Node) (start : Nat) :
    Tries nodes
      (fun next =>
        if !test.accepts node then return false
        else
          capturing (names.map fun index => ⟨index, node⟩) <|
            if children.isEmpty then next (nodes.drop start)
            else sequence node.visibleChildren (fun _ => next (nodes.drop start)) children)
      fun position more => position = start ∧ test.accepts node = true ∧
        ∃ below stop, MatchesInOrder children node.visibleChildren 0 stop below ∧
          more = names.map (fun index => ⟨index, node⟩) ++ below := by
  cases accepted : test.accepts node with
  | false =>
      exact Tries.fail.congr fun position more => ⟨False.elim, fun way => by cases way.2.1⟩
  | true =>
      have inner : Tries nodes (fun next => sequence node.visibleChildren
          (fun _ => next (nodes.drop start)) children) _ :=
        (below node.visibleChildren).under start
      have same : ∀ next : Continuation,
          (if children.isEmpty then next (nodes.drop start)
          else sequence node.visibleChildren (fun _ => next (nodes.drop start)) children) =
            sequence node.visibleChildren (fun _ => next (nodes.drop start)) children := by
        intro next
        cases children <;> rfl
      simp only [same]
      refine (inner.capturing _).congr fun position more => ⟨?_, ?_⟩
      · rintro ⟨below, ⟨rfl, stop, matched⟩, rfl⟩
        exact ⟨rfl, trivial, below, stop, matched, rfl⟩
      · rintro ⟨rfl, -, below, stop, matched, rfl⟩
        exact ⟨below, ⟨rfl, stop, matched⟩, rfl⟩

theorem tries_node {test : NodeTest} {children : List QueryStep} {names : List Nat}
    (below : ∀ nodes, Tries nodes (fun next => sequence nodes next children)
      (MatchesInOrder children nodes 0)) (nodes : List Node) (start : Nat) :
    Tries nodes (fun next => Matching.step (nodes.drop start) next (.node test children names))
      ((QueryStep.node test children names).Matches nodes start) := by
  refine (Tries.tryEach (tries_attempt below nodes) start).congr fun position more => ⟨?_, ?_⟩
  · rintro ⟨index, node, after, here, rfl, accepted, below, stop, inner, rfl⟩
    exact .node after here accepted inner
  · exact fun
      | .node after here accepted inner =>
          ⟨_, _, after, here, rfl, accepted, _, _, inner, rfl⟩

theorem tries_optional {inner : QueryStep} {nodes : List Node} {start : Nat}
    (once : Tries nodes (fun next => Matching.step (nodes.drop start) next inner)
      (inner.Matches nodes start)) :
    Tries nodes (fun next => Matching.step (nodes.drop start) next (.repetition inner .optional))
      ((QueryStep.repetition inner .optional).Matches nodes start) := by
  refine (once.either (.stay start)).congr fun position more => ⟨?_, ?_⟩
  · rintro (matched | ⟨rfl, rfl⟩)
    · exact .present matched
    · exact .omitted
  · exact fun
      | .omitted => .inr ⟨rfl, rfl⟩
      | .present matched => .inl matched

section Repetitions

variable {inner : QueryStep} {nodes : List Node}
  (once : ∀ start, Tries nodes (fun next => Matching.step (nodes.drop start) next inner)
    (inner.Matches nodes start))

include once

/-- There are not more repetitions to try than nodes that are left. -/
theorem tries_often (start : Nat) :
    Tries nodes
      (fun next => Matching.repeatWithin (fun nodes next => Matching.step nodes next inner) next
        (nodes.drop start).length (nodes.drop start))
      (inner.MatchesOften nodes start) := by
  refine Tries.repeatWithin once ?_
  rw [List.length_drop]
  omega

theorem tries_many (start : Nat) :
    Tries nodes (fun next => Matching.step (nodes.drop start) next (.repetition inner .many))
      ((QueryStep.repetition inner .many).Matches nodes start) :=
  (tries_often once start).congr fun _ _ => ⟨.many, fun | .many often => often⟩

theorem tries_atLeastOne (start : Nat) :
    Tries nodes (fun next => Matching.step (nodes.drop start) next (.repetition inner .atLeastOne))
      ((QueryStep.repetition inner .atLeastOne).Matches nodes start) := by
  refine ((once start).andThen (tries_often once)).congr fun position more => ⟨?_, ?_⟩
  · rintro ⟨middle, first, others, matched, often, rfl⟩
    exact .atLeastOne matched often
  · exact fun | .atLeastOne matched often => ⟨_, _, _, matched, often, rfl⟩

end Repetitions

mutual

/-- The search for a step tries exactly the ways in which the step matches. -/
theorem tries_step : ∀ (step : QueryStep) (nodes : List Node) (start : Nat),
    Tries nodes (fun next => Matching.step (nodes.drop start) next step)
      (step.Matches nodes start)
  | .node test children names, nodes, start =>
      tries_node (fun nodes => tries_sequence children nodes 0) nodes start
  | .alternation alternatives, nodes, start => by
      refine (tries_anyOf alternatives nodes start).congr fun position more => ⟨?_, ?_⟩
      · rintro ⟨chosen, member, matched⟩
        exact .alternation member matched
      · exact fun | .alternation member matched => ⟨_, member, matched⟩
  | .group items, nodes, start =>
      (tries_sequence items nodes start).congr fun position more =>
        ⟨.group, fun | .group matched => matched⟩
  | .repetition inner .optional, nodes, start =>
      tries_optional (tries_step inner nodes start)
  | .repetition inner .many, nodes, start => tries_many (tries_step inner nodes) start
  | .repetition inner .atLeastOne, nodes, start =>
      tries_atLeastOne (tries_step inner nodes) start

theorem tries_sequence : ∀ (steps : List QueryStep) (nodes : List Node) (start : Nat),
    Tries nodes (fun next => sequence (nodes.drop start) next steps)
      (MatchesInOrder steps nodes start)
  | [], nodes, start => by
      refine (Tries.stay start).congr fun position more => ⟨?_, ?_⟩
      · rintro ⟨rfl, rfl⟩
        exact .nil
      · exact fun | .nil => ⟨rfl, rfl⟩
  | step :: steps, nodes, start => by
      refine ((tries_step step nodes start).andThen (tries_sequence steps nodes)).congr
        fun position more => ⟨?_, ?_⟩
      · rintro ⟨middle, first, others, once, rest, rfl⟩
        exact .cons once rest
      · exact fun | .cons once rest => ⟨_, _, _, once, rest, rfl⟩

theorem tries_anyOf : ∀ (steps : List QueryStep) (nodes : List Node) (start : Nat),
    Tries nodes (fun next => anyOf (nodes.drop start) next steps)
      fun position more => ∃ step ∈ steps, step.Matches nodes start position more
  | [], nodes, start => Tries.fail.congr fun position more => by simp
  | step :: steps, nodes, start =>
      ((tries_step step nodes start).either (tries_anyOf steps nodes start)).congr
        fun position more => by simp

end

end Matching

end IncrementalGlr
