import IncrementalGlr.Parse.Stack

/-!
# What stands on a stack

The subtrees on a stack in the order of the text, and what is left of them when the children of a
production are taken.
-/

namespace IncrementalGlr

namespace ParseStack

variable (stack : ParseStack)

@[simp]
theorem subtrees_nil : subtrees [] = [] := rfl

@[simp]
theorem subtrees_cons (entry : StackEntry) :
    subtrees (entry :: stack) = stack.subtrees ++ [entry.subtree] := by
  simp [subtrees]

@[simp]
theorem subtrees_pushAll (state : StateId) (subtrees : List Subtree) :
    ParseStack.subtrees (stack.pushAll state subtrees) = stack.subtrees ++ subtrees := by
  induction subtrees generalizing stack with
  | nil => simp [pushAll]
  | cons subtree rest induction =>
      have pushed := induction (⟨state, subtree⟩ :: stack)
      simp only [pushAll, List.foldl_cons] at pushed ⊢
      rw [pushed]
      simp

theorem subtrees_append (above below : ParseStack) :
    ParseStack.subtrees (above ++ below) = below.subtrees ++ above.subtrees := by
  simp [subtrees]

theorem pushAll_snoc (state : StateId) (subtrees : List Subtree) (subtree : Subtree) :
    stack.pushAll state (subtrees ++ [subtree]) =
      ⟨state, subtree⟩ :: stack.pushAll state subtrees :=
  List.foldl_append

/-- Whatever is put on a stack in its state leaves it in this state. -/
theorem state_pushAll (subtrees : List Subtree) :
    ParseStack.state (stack.pushAll stack.state subtrees) = stack.state := by
  induction subtrees generalizing stack with
  | nil => rfl
  | cons subtree rest induction => exact induction (⟨stack.state, subtree⟩ :: stack)

theorem takeChildren_zero : stack.takeChildren 0 = some ([], [], stack) := by
  rw [takeChildren, takeFrom]

/-- Extras on top are passed over. -/
theorem takeFrom_pushAll {extras : List Subtree} (areExtras : ∀ extra ∈ extras, extra.isExtra = true)
    (state : StateId) (trailing : List Subtree) (count : Nat) :
    takeFrom [] trailing (count + 1) (stack.pushAll state extras) =
      takeFrom [] (extras ++ trailing) (count + 1) stack := by
  induction extras generalizing stack with
  | nil => rfl
  | cons extra rest induction =>
      obtain ⟨first, others⟩ := List.forall_mem_cons.1 areExtras
      have later := induction (⟨state, extra⟩ :: stack) others
      rw [pushAll] at later ⊢
      rw [List.foldl_cons, later, takeFrom]
      simp [first]

/-- What is taken from a stack and what is left are the subtrees of the stack in order. -/
theorem takeFrom_subtrees {stack below : ParseStack} {children trailing taken extras : List Subtree}
    {count : Nat} (found : takeFrom children trailing count stack = some (taken, extras, below)) :
    below.subtrees ++ taken ++ extras = stack.subtrees ++ children ++ trailing := by
  induction stack generalizing children trailing count with
  | nil =>
      cases count with
      | zero =>
          cases found
          rfl
      | succ count => cases found
  | cons entry rest induction =>
      cases count with
      | zero =>
          cases found
          rfl
      | succ count =>
          simp only [takeFrom] at found
          split at found
          · rw [induction found]
            simp
          · split at found
            · next empty =>
                rw [induction found, List.isEmpty_iff.1 empty]
                simp
            · rw [induction found]
              simp

theorem takeChildren_subtrees {stack below : ParseStack} {taken extras : List Subtree}
    {count : Nat} (found : stack.takeChildren count = some (taken, extras, below)) :
    below.subtrees ++ taken ++ extras = stack.subtrees := by
  simpa using takeFrom_subtrees found

/-- Subtrees are taken from the top. -/
theorem takeFrom_eq_drop {stack below : ParseStack} {children trailing taken extras : List Subtree}
    {count : Nat} (found : takeFrom children trailing count stack = some (taken, extras, below)) :
    ∃ dropped, below = stack.drop dropped := by
  induction stack generalizing children trailing count with
  | nil =>
      cases count with
      | zero =>
          cases found
          exact ⟨0, rfl⟩
      | succ count => cases found
  | cons entry rest induction =>
      cases count with
      | zero =>
          cases found
          exact ⟨0, rfl⟩
      | succ count =>
          have further : (∃ dropped, below = rest.drop dropped) →
              ∃ dropped, below = List.drop dropped (entry :: rest) :=
            fun ⟨dropped, same⟩ => ⟨dropped + 1, same⟩
          simp only [takeFrom] at found
          split at found
          · exact further (induction found)
          · split at found
            · exact further (induction found)
            · exact further (induction found)

/-- What is taken for a production begins and ends with subtrees that are no extras. -/
theorem takeFrom_ends {stack below : ParseStack} {children trailing taken extras : List Subtree}
    {count : Nat} (found : takeFrom children trailing count stack = some (taken, extras, below))
    (first : count = 0 → ∀ child ∈ children.head?, child.isExtra = false)
    (last : ∀ child ∈ children.getLast?, child.isExtra = false) :
    (∀ child ∈ taken.head?, child.isExtra = false) ∧
      ∀ child ∈ taken.getLast?, child.isExtra = false := by
  induction stack generalizing children trailing count with
  | nil =>
      cases count with
      | zero =>
          cases found
          exact ⟨first rfl, last⟩
      | succ count => cases found
  | cons entry rest induction =>
      have kept : children ≠ [] → ∀ child ∈ (entry.subtree :: children).getLast?,
          child.isExtra = false := fun some => by
        rw [List.getLast?_cons_of_ne_nil some]
        exact last
      cases count with
      | zero =>
          cases found
          exact ⟨first rfl, last⟩
      | succ count =>
          simp only [takeFrom] at found
          split at found
          · next plain =>
              rw [Bool.not_eq_true'] at plain
              refine induction found (fun _ child same => ?_) ?_
              · cases same
                exact plain
              · by_cases none : children = []
                · subst none
                  rintro child ⟨⟩
                  exact plain
                · exact kept none
          · split at found
            · exact induction found (fun none => absurd none (Nat.succ_ne_zero _)) last
            · next some =>
                exact induction found (fun none => absurd none (Nat.succ_ne_zero _))
                  (kept fun none => some (List.isEmpty_iff.2 none))

theorem subtrees_take_drop (count : Nat) :
    ParseStack.subtrees (stack.drop count) ++ ParseStack.subtrees (stack.take count) =
      stack.subtrees := by
  simp only [subtrees, ← List.reverse_append, ← List.map_append, List.take_append_drop]

/-- The extras around the only subtree that is not an extra. -/
theorem split_of_filter {subtrees : List Subtree} {root : Subtree}
    (only : subtrees.filter (fun subtree => !subtree.isExtra) = [root]) :
    subtrees = subtrees.takeWhile Subtree.isExtra ++
      root :: (subtrees.dropWhile Subtree.isExtra).tail := by
  induction subtrees with
  | nil => cases only
  | cons first rest induction =>
      cases extra : first.isExtra with
      | true =>
          rw [List.filter_cons_of_neg (by simp [extra])] at only
          rw [List.takeWhile_cons_of_pos extra, List.dropWhile_cons_of_pos extra, List.cons_append,
            ← induction only]
      | false =>
          rw [List.filter_cons_of_pos (by simp [extra])] at only
          rw [List.takeWhile_cons_of_neg (by simp [extra]),
            List.dropWhile_cons_of_neg (by simp [extra]), (List.cons.inj only).1]
          rfl

end ParseStack

end IncrementalGlr
