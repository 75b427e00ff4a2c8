import IncrementalGlr.Lalr.Automaton
import IncrementalGlr.Proofs.Lalr.Closure
import IncrementalGlr.Proofs.Sorting
import Mathlib.Data.List.SplitBy

/-!
# The transitions of automata

Every item of a kernel but the first has just recognised the symbol by which its state is entered,
and every item of a state that calls for a symbol is advanced by the transition on that symbol.
-/

namespace IncrementalGlr

namespace Lalr

namespace Automaton

variable {context : Context} {kernel : List Item}

/-- Whether a kernel advances the items of another one over a symbol. -/
structure Advances (context : Context) (kernel : List Item) (symbol : Symbol)
    (target : List Item) : Prop where
  /-- There is an item. -/
  nonempty : target ≠ []
  /-- Each of its items advances one over the symbol. -/
  source : ∀ item ∈ target, ∃ origin ∈ context.items kernel,
    context.next? origin = some symbol ∧ item = origin.advance
  /-- All items that call for the symbol are advanced. -/
  all : ∀ origin ∈ context.items kernel, context.next? origin = some symbol →
    origin.advance ∈ target

/-- Adjacent members of a list of which each has the symbol of the one before have one symbol. -/
theorem symbol_of_chain {moves : List (Symbol × Item)} {symbol : Symbol} {item : Item}
    (chain : List.IsChain (fun left right => (left.1 == right.1) = true) ((symbol, item) :: moves)) :
    ∀ move ∈ (symbol, item) :: moves, move.1 = symbol := by
  induction moves generalizing item with
  | nil => simp
  | cons next rest induction =>
      obtain ⟨other, nextItem⟩ := next
      rw [List.isChain_cons_cons] at chain
      obtain ⟨same, later⟩ := chain
      obtain rfl : symbol = other := beq_iff_eq.1 same
      intro move member
      rcases List.mem_cons.1 member with rfl | member
      · rfl
      · exact induction later move member

/-- In an ascending list whose groups change the symbol, the groups ascend strictly. -/
theorem pairwise_groups {groups : List (List (Symbol × Item))}
    (uniform : ∀ group ∈ groups, ∀ move ∈ group, ∀ other ∈ group, move.1 = other.1)
    (apart : groups.IsChain fun left right =>
      ∃ some more, ((left.getLast some).1 == (right.head more).1) = false)
    (sorted : groups.flatten.Pairwise fun left right => left.1.index ≤ right.1.index) :
    groups.Pairwise fun left right =>
      ∀ here ∈ left, ∀ later ∈ right, here.1.index < later.1.index := by
  induction groups with
  | nil => exact .nil
  | cons first rest induction =>
      obtain ⟨ordered, laterSorted, across⟩ := List.pairwise_append.1
        (List.flatten_cons ▸ sorted)
      refine List.pairwise_cons.2 ⟨fun group groupMember here hereMember later laterMember => ?_,
        induction (fun group member => uniform group (List.mem_cons_of_mem first member))
          apart.tail laterSorted⟩
      have laterListed := List.mem_flatten_of_mem groupMember laterMember
      cases rest with
      | nil => cases groupMember
      | cons second others =>
          obtain ⟨some, more, differs⟩ := (List.isChain_cons_cons.1 apart).1
          have last := List.getLast_mem some
          have start : second.head more ∈ (second :: others).flatten :=
            List.mem_flatten_of_mem List.mem_cons_self (List.head_mem more)
          have below := across _ last _ start
          have strict : (first.getLast some).1.index ≠ (second.head more).1.index := fun equal =>
            beq_eq_false_iff_ne.1 differs (Symbol.index_inj equal)
          have least : (second.head more).1.index ≤ later.1.index := by
            obtain ⟨head, tail, rfl⟩ := List.exists_cons_of_ne_nil more
            rcases List.mem_cons.1 laterListed with rfl | deeper
            · exact Nat.le_refl _
            · exact (List.pairwise_cons.1 laterSorted).1 later deeper
          rw [uniform first List.mem_cons_self here hereMember _ last]
          omega

/-- The moves of one group have one symbol. -/
theorem symbol_of_group {group : List (Symbol × Item)} (member : group ∈ moves context kernel) :
    ∀ move ∈ group, ∀ other ∈ group, move.1 = other.1 := by
  intro move moveMember other otherMember
  have chain := List.isChain_of_mem_splitBy member
  cases group with
  | nil => cases moveMember
  | cons first rest =>
      obtain ⟨symbol, item⟩ := first
      rw [symbol_of_chain chain move moveMember, symbol_of_chain chain other otherMember]

/-- The groups of moves ascend by their symbols. -/
theorem pairwise_moves (context : Context) (kernel : List Item) :
    (moves context kernel).Pairwise fun left right =>
      ∀ here ∈ left, ∀ later ∈ right, here.1.index < later.1.index := by
  refine pairwise_groups (fun _ => symbol_of_group)
    (List.isChain_getLast_head_splitBy (fun left right : Symbol × Item => left.1 == right.1) _) ?_
  rw [moves, List.flatten_splitBy]
  refine pairwise_sortBy (fun left right less => ?_) (fun left right more => ?_) _
  · rw [moveLe, Bool.or_eq_true, Bool.and_eq_true, decide_eq_true_eq, beq_iff_eq] at less
    exact less.elim Nat.le_of_lt fun same => (congrArg Symbol.index same.1).le
  · rw [moveLe, Bool.or_eq_false_iff, decide_eq_false_iff_not] at more
    exact Nat.le_of_not_lt more.1

/-- All moves over the symbol of a group are in it. -/
theorem mem_group {group : List (Symbol × Item)} (member : group ∈ moves context kernel)
    {move : Symbol × Item} (moveMember : move ∈ group) {origin : Item}
    (originMember : origin ∈ context.items kernel)
    (next : context.next? origin = some move.1) : (move.1, origin.advance) ∈ group := by
  have flat : (move.1, origin.advance) ∈ (moves context kernel).flatten := by
    rw [moves, List.flatten_splitBy, mem_sortBy, List.mem_filterMap]
    exact ⟨origin, originMember, by rw [next]; rfl⟩
  obtain ⟨other, otherMember, inside⟩ := List.mem_flatten.1 flat
  have distinct : (moves context kernel).Pairwise fun left right =>
      ∀ here ∈ left, ∀ later ∈ right, here.1 ≠ later.1 :=
    (pairwise_moves context kernel).imp fun ascends here hereMember later laterMember same =>
      Nat.ne_of_lt (ascends here hereMember later laterMember) (congrArg Symbol.index same)
  have symmetric : Std.Symm fun left right : List (Symbol × Item) =>
      ∀ here ∈ left, ∀ later ∈ right, here.1 ≠ later.1 :=
    ⟨fun _ _ apart here hereMember later laterMember =>
      (apart later laterMember here hereMember).symm⟩
  by_contra missing
  have different : group ≠ other := fun same => missing (same ▸ inside)
  exact distinct.forall member otherMember different move moveMember _ inside rfl

/-- A group of moves advances the items of the kernel over one symbol. -/
theorem advances_of_group {group : List (Symbol × Item)} (member : group ∈ moves context kernel) :
    ∃ symbol item rest, group = (symbol, item) :: rest ∧ (∀ move ∈ group, move.1 = symbol) ∧
      Advances context kernel symbol (group.map Prod.snd) := by
  have nonempty := List.ne_nil_of_mem_splitBy member
  have chain := List.isChain_of_mem_splitBy member
  have inside : ∀ move ∈ group, ∃ origin ∈ context.items kernel,
      context.next? origin = some move.1 ∧ move.2 = origin.advance := by
    intro move moveMember
    have flat : move ∈ (moves context kernel).flatten := List.mem_flatten_of_mem member moveMember
    rw [moves, List.flatten_splitBy, mem_sortBy, List.mem_filterMap] at flat
    obtain ⟨origin, originMember, next⟩ := flat
    obtain ⟨symbol, called, rfl⟩ := Option.map_eq_some_iff.1 next
    exact ⟨origin, originMember, called, rfl⟩
  cases group with
  | nil => exact absurd rfl nonempty
  | cons first rest =>
      obtain ⟨symbol, item⟩ := first
      have symbols := symbol_of_chain chain
      refine ⟨symbol, item, rest, rfl, symbols, by simp, fun advanced advancedMember => ?_,
        fun origin originMember next => ?_⟩
      · obtain ⟨move, moveMember, rfl⟩ := List.mem_map.1 advancedMember
        obtain ⟨origin, originMember, next, advances⟩ := inside move moveMember
        exact ⟨origin, originMember, symbols move moveMember ▸ next, advances⟩
      · exact List.mem_map_of_mem (mem_group member List.mem_cons_self originMember next)

/-- There is a group of moves for every symbol that an item calls for. -/
theorem exists_group {origin : Item} (member : origin ∈ context.items kernel) {symbol : Symbol}
    (next : context.next? origin = some symbol) :
    ∃ group ∈ moves context kernel, ∃ move ∈ group, move.1 = symbol := by
  have flat : (symbol, origin.advance) ∈ (moves context kernel).flatten := by
    rw [moves, List.flatten_splitBy, mem_sortBy, List.mem_filterMap]
    exact ⟨origin, member, by rw [next]; rfl⟩
  obtain ⟨group, groupMember, inside⟩ := List.mem_flatten.1 flat
  exact ⟨group, groupMember, _, inside, rfl⟩

/-- Whether all kernels of a list keep their positions in another one. -/
def Extends (larger smaller : Array (List Item)) : Prop :=
  ∀ (position : Nat) kernel, smaller[position]? = some kernel → larger[position]? = some kernel

theorem Extends.trans {first second third : Array (List Item)} (left : Extends first second)
    (right : Extends second third) : Extends first third :=
  fun position kernel found => left position kernel (right position kernel found)

theorem findOrAdd_spec (kernels : Array (List Item)) (kernel : List Item) :
    Extends (findOrAdd kernels kernel).2 kernels ∧
      (findOrAdd kernels kernel).2[(findOrAdd kernels kernel).1]? = some kernel ∧
      ∀ (position : Nat) other, (findOrAdd kernels kernel).2[position]? = some other →
        kernels[position]? = some other ∨ other = kernel := by
  unfold findOrAdd
  split
  · next index found =>
      obtain ⟨inside, same, -⟩ := Array.findIdx?_eq_some_iff_getElem.1 found
      rw [beq_iff_eq] at same
      exact ⟨fun _ _ => id, by rw [Array.getElem?_eq_getElem inside, same], fun _ _ => .inl⟩
  · refine ⟨fun position other found => ?_, by simp, fun position other found => ?_⟩
    · have inside := (Array.getElem?_eq_some_iff.1 found).1
      rw [Array.getElem?_push_lt inside, ← Array.getElem?_eq_getElem inside, found]
    · rw [Array.getElem?_push] at found
      split at found
      · exact .inr (Option.some.inj found).symm
      · exact .inl found

/-- Whether edges lead from a kernel to the kernels that advance it. -/
structure Links (context : Context) (kernels : Array (List Item)) (kernel : List Item)
    (edges : List (Symbol × Nat)) : Prop where
  /-- Each edge leads to such a kernel. -/
  sound : ∀ edge ∈ edges, ∃ target, kernels[edge.2]? = some target ∧
    Advances context kernel edge.1 target
  /-- There is an edge for every symbol that an item calls for. -/
  complete : ∀ origin ∈ context.items kernel, ∀ symbol, context.next? origin = some symbol →
    ∃ target, (symbol, target) ∈ edges
  /-- The edges ascend by their symbols, so there is one for each symbol. -/
  ascending : edges.Pairwise fun left right => left.1.index < right.1.index

theorem Links.mono {larger smaller : Array (List Item)} {edges : List (Symbol × Nat)}
    (links : Links context smaller kernel edges) (extends_ : Extends larger smaller) :
    Links context larger kernel edges := by
  refine ⟨fun edge member => ?_, links.complete, links.ascending⟩
  obtain ⟨target, found, advances⟩ := links.sound edge member
  exact ⟨target, extends_ _ _ found, advances⟩

/-- The edges for some groups of moves, and the kernels they lead to. -/
structure Follows (context : Context) (kernel : List Item) (groups : List (List (Symbol × Item)))
    (before : Array (List Item)) (state : List (Symbol × Nat) × Array (List Item)) : Prop where
  /-- No kernel is lost. -/
  keeps : Extends state.2 before
  /-- New kernels advance the kernel. -/
  added : ∀ (position : Nat) other, state.2[position]? = some other →
    before[position]? = some other ∨ ∃ symbol, Advances context kernel symbol other
  /-- Each edge leads to a kernel that advances the kernel. -/
  sound : ∀ edge ∈ state.1, ∃ target, state.2[edge.2]? = some target ∧
    Advances context kernel edge.1 target
  /-- Each group has an edge. -/
  complete : ∀ group ∈ groups, ∀ move ∈ group, ∃ target, (move.1, target) ∈ state.1

theorem Follows.addTransition {done : List (List (Symbol × Item))} {before : Array (List Item)}
    {state : List (Symbol × Nat) × Array (List Item)}
    (follows : Follows context kernel done before state) {group : List (Symbol × Item)}
    (member : group ∈ moves context kernel) :
    Follows context kernel (done ++ [group]) before (addTransition state group) := by
  obtain ⟨symbol, item, rest, same, symbols, advances⟩ := advances_of_group member
  obtain ⟨edges, kernels⟩ := state
  obtain ⟨keeps, found, sources⟩ := findOrAdd_spec kernels (group.map Prod.snd)
  have added : Automaton.addTransition (edges, kernels) group =
      (edges ++ [(symbol, (findOrAdd kernels (group.map Prod.snd)).1)],
        (findOrAdd kernels (group.map Prod.snd)).2) := by
    rw [same]
    rfl
  rw [added]
  constructor
  case keeps => exact keeps.trans follows.keeps
  case added =>
    intro position other there
    rcases sources position other there with old | rfl
    · exact follows.added position other old
    · exact .inr ⟨symbol, advances⟩
  case sound =>
    intro edge edgeMember
    rcases List.mem_append.1 edgeMember with old | new
    · obtain ⟨target, there, targetAdvances⟩ := follows.sound edge old
      exact ⟨target, keeps _ _ there, targetAdvances⟩
    · obtain rfl := List.mem_singleton.1 new
      exact ⟨_, found, advances⟩
  case complete =>
    intro other otherMember move moveMember
    rcases List.mem_append.1 otherMember with old | new
    · obtain ⟨target, there⟩ := follows.complete other old move moveMember
      exact ⟨target, List.mem_append_left _ there⟩
    · obtain rfl := List.mem_singleton.1 new
      rw [symbols move moveMember]
      exact ⟨_, List.mem_append_right _ (List.mem_singleton_self _)⟩

theorem follows_moves (context : Context) (kernel : List Item) (before : Array (List Item)) :
    Follows context kernel (moves context kernel) before
      ((moves context kernel).foldl addTransition ([], before)) := by
  have all : ∀ (done later : List (List (Symbol × Item)))
      (state : List (Symbol × Nat) × Array (List Item)),
      (∀ group ∈ later, group ∈ moves context kernel) →
      Follows context kernel done before state →
      Follows context kernel (done ++ later) before (later.foldl Automaton.addTransition state) := by
    intro done later
    induction later generalizing done with
    | nil =>
        intro state _ follows
        rwa [List.append_nil]
    | cons group rest induction =>
        intro state members follows
        have next := induction (done ++ [group]) _
          (fun other later => members other (List.mem_cons_of_mem group later))
          (follows.addTransition (members group List.mem_cons_self))
        rwa [List.append_assoc] at next
  refine all [] _ _ (fun _ => id) ⟨fun _ _ => id, fun _ _ => .inl, ?_, ?_⟩
  · exact fun _ never => absurd never List.not_mem_nil
  · exact fun _ never => absurd never List.not_mem_nil

/-- There is one transition for each group of moves. -/
theorem symbols_foldl_addTransition (groups : List (List (Symbol × Item)))
    (state : List (Symbol × Nat) × Array (List Item)) :
    (groups.foldl addTransition state).1.map Prod.fst =
      state.1.map Prod.fst ++ groups.filterMap fun group => group.head?.map Prod.fst := by
  induction groups generalizing state with
  | nil => exact (List.append_nil _).symm
  | cons group rest induction =>
      rw [List.foldl_cons, induction]
      cases group with
      | nil => rfl
      | cons first others =>
          have one : (addTransition state (first :: others)).1.map Prod.fst =
              state.1.map Prod.fst ++ [first.1] := List.map_append
          rw [one, List.append_assoc]
          rfl

/-- The transitions of a state ascend by their symbols. -/
theorem pairwise_transitions (context : Context) (kernel : List Item)
    (kernels : Array (List Item)) :
    ((moves context kernel).foldl addTransition ([], kernels)).1.Pairwise
      fun left right => left.1.index < right.1.index := by
  refine (List.pairwise_map (f := Prod.fst)
    (R := fun left right : Symbol => left.index < right.index)).1 ?_
  rw [symbols_foldl_addTransition, List.map_nil, List.nil_append, List.pairwise_filterMap]
  refine (pairwise_moves context kernel).imp fun less here hereFound later laterFound => ?_
  obtain ⟨first, isFirst, rfl⟩ := Option.map_eq_some_iff.1 hereFound
  obtain ⟨second, isSecond, rfl⟩ := Option.map_eq_some_iff.1 laterFound
  exact less first (List.mem_of_mem_head? isFirst) second (List.mem_of_mem_head? isSecond)

/-- What holds while the states of a grammar are explored. -/
structure Explores (context : Context) (automaton : Automaton) : Prop where
  /-- The first kernel is that of whole texts. -/
  start : automaton.kernels[0]? = some [⟨context.wholeText, 0⟩]
  /-- Only kernels have transitions. -/
  size : automaton.transitions.size ≤ automaton.kernels.size
  /-- The transitions lead where they should. -/
  links : ∀ (state : Nat) kernel edges, automaton.kernels[state]? = some kernel →
    automaton.transitions[state]? = some edges → Links context automaton.kernels kernel edges
  /-- The other kernels advance one. -/
  origin : ∀ (state : Nat) kernel, automaton.kernels[state + 1]? = some kernel →
    ∃ before symbol, Advances context before symbol kernel

theorem Explores.addState {automaton : Automaton} (explores : Explores context automaton)
    (next : automaton.kernels[automaton.transitions.size]? = some kernel) :
    Explores context (automaton.addState context kernel) := by
  have follows := follows_moves context kernel automaton.kernels
  have kernels : (automaton.addState context kernel).kernels =
      ((moves context kernel).foldl addTransition ([], automaton.kernels)).2 := rfl
  have transitions : (automaton.addState context kernel).transitions = automaton.transitions.push
      ((moves context kernel).foldl addTransition ([], automaton.kernels)).1 := rfl
  generalize automaton.addState context kernel = later at kernels transitions ⊢
  generalize foldEq : (moves context kernel).foldl addTransition ([], automaton.kernels) = state
    at follows kernels transitions
  have inside := (Array.getElem?_eq_some_iff.1 next).1
  constructor
  case start =>
    rw [kernels]
    exact follows.keeps _ _ explores.start
  case size =>
    rw [transitions, kernels, Array.size_push]
    exact (Array.getElem?_eq_some_iff.1 (follows.keeps _ _ next)).1
  case links =>
    intro number source edges found listed
    rw [kernels] at found ⊢
    rw [transitions, Array.getElem?_push] at listed
    split at listed
    · next last =>
        obtain rfl := Option.some.inj listed
        subst last
        rw [follows.keeps _ _ next] at found
        obtain rfl := Option.some.inj found
        refine ⟨follows.sound, fun origin member symbol calls => ?_,
          foldEq ▸ pairwise_transitions context kernel automaton.kernels⟩
        obtain ⟨group, groupMember, move, moveMember, rfl⟩ := exists_group member calls
        exact follows.complete group groupMember move moveMember
    · have before := (Array.getElem?_eq_some_iff.1 listed).1
      have known := Array.getElem?_eq_getElem (Nat.lt_trans before inside)
      rw [follows.keeps _ _ known] at found
      obtain rfl := Option.some.inj found
      exact (explores.links number _ edges known listed).mono follows.keeps
  case origin =>
    intro number other found
    rw [kernels] at found
    rcases follows.added _ other found with old | ⟨symbol, advances⟩
    · exact explores.origin number other old
    · exact ⟨kernel, symbol, advances⟩

/-- Exploring goes on until all states have their transitions or the bound is reached. -/
theorem explores_explore (bound : Nat) {automaton : Automaton}
    (explores : Explores context automaton) :
    Explores context (explore context bound automaton) ∧
      ((explore context bound automaton).transitions.size =
          (explore context bound automaton).kernels.size ∨
        bound + automaton.transitions.size ≤ (explore context bound automaton).transitions.size) := by
  induction bound generalizing automaton with
  | zero => exact ⟨explores, .inr (by rw [Nat.zero_add]; exact Nat.le_refl _)⟩
  | succ bound induction =>
      unfold explore
      split
      · next kernel next =>
          obtain ⟨explored, reached⟩ := induction (explores.addState next)
          refine ⟨explored, reached.imp_right fun enough => ?_⟩
          have one : (automaton.addState context kernel).transitions.size =
              automaton.transitions.size + 1 := Array.size_push _
          omega
      · next none =>
          have complete := Array.getElem?_eq_none_iff.1 none
          exact ⟨explores, .inl (Nat.le_antisymm explores.size complete)⟩

/-- What a grammar's automaton is like once it is explored. -/
structure Complete (context : Context) (automaton : Automaton) : Prop
    extends Explores context automaton where
  /-- Every state has its transitions. -/
  all : automaton.transitions.size = automaton.kernels.size

/-- Every kernel has transitions that lead where they should. -/
theorem Complete.exists_links {automaton : Automaton} (complete : Complete context automaton)
    {state : Nat} (found : automaton.kernels[state]? = some kernel) :
    ∃ edges, automaton.transitions[state]? = some edges ∧
      Links context automaton.kernels kernel edges := by
  have inside := (Array.getElem?_eq_some_iff.1 found).1
  rw [← complete.all] at inside
  have edges := Array.getElem?_eq_getElem inside
  exact ⟨_, edges, complete.links state kernel _ found edges⟩

theorem complete_ofContext
    (bounded : (ofContext context).kernels.size ≤ Nat.pow 2 (itemCount context)) :
    Complete context (ofContext context) := by
  have start : Explores context ⟨#[[⟨context.wholeText, 0⟩]], #[]⟩ := by
    refine ⟨rfl, Nat.zero_le _, fun state kernel edges _ listed => ?_, fun state kernel found => ?_⟩
    · simp at listed
    · simp at found
  obtain ⟨explored, reached⟩ := explores_explore (Nat.pow 2 (itemCount context) + maxStates) start
  refine ⟨explored, reached.resolve_right fun enough => ?_⟩
  have size := explored.size
  change (ofContext context).transitions.size ≤ (ofContext context).kernels.size at size
  change _ ≤ (ofContext context).transitions.size at enough
  have few : 0 < maxStates := by decide
  omega

end Automaton

end Lalr

end IncrementalGlr
