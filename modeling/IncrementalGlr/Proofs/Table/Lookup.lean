import IncrementalGlr.Grammar.Table

/-!
# What tables look up

The actions and gotos that a loaded grammar finds for a state are those that the contents of the
compiled grammar list for it.
-/

namespace IncrementalGlr

namespace Symbol

theorem index_inj {left right : Symbol} (same : left.index = right.index) : left = right := by
  obtain ⟨left⟩ := left
  obtain ⟨right⟩ := right
  exact congrArg Symbol.mk (UInt16.toNat_inj.1 same)

theorem index_ofIndex {index : Nat} (small : index < 65536) : (ofIndex index).index = index :=
  Nat.mod_eq_of_lt small

theorem index_lt (symbol : Symbol) : symbol.index < 65536 := symbol.id.toNat_lt

end Symbol

theorem StateId.index_ofIndex {index : Nat} (small : index < 65536) :
    (StateId.ofIndex index).index = index :=
  Nat.mod_eq_of_lt small

theorem LexStateId.index_ofIndex {index : Nat} (small : index < 65536) :
    (LexStateId.ofIndex index).index = index :=
  Nat.mod_eq_of_lt small

theorem ProductionId.index_inj {left right : ProductionId} (same : left.index = right.index) :
    left = right := by
  obtain ⟨left⟩ := left
  obtain ⟨right⟩ := right
  exact congrArg ProductionId.mk (UInt16.toNat_inj.1 same)

theorem ProductionId.index_ofIndex {index : Nat} (small : index < 65536) :
    (ProductionId.ofIndex index).index = index :=
  Nat.mod_eq_of_lt small

/-- A place in a table of rows of one width belongs to one row and one column only. -/
theorem row_column_inj {width row other column place : Nat} (columnInside : column < width)
    (placeInside : place < width) (same : row * width + column = other * width + place) :
    row = other ∧ column = place := by
  have columns : column = place := by
    have rest := congrArg (· % width) same
    simpa only [Nat.mul_add_mod_self_right, Nat.mod_eq_of_lt columnInside,
      Nat.mod_eq_of_lt placeInside] using rest
  subst columns
  exact ⟨Nat.eq_of_mul_eq_mul_right (Nat.zero_lt_of_lt columnInside) (Nat.add_right_cancel same),
    rfl⟩

/-- A place in one of the rows of a table is inside the table. -/
theorem row_column_lt {rows width row column : Nat} (known : row < rows) (inside : column < width) :
    row * width + column < rows * width :=
  calc
    _ < (row + 1) * width := by
      rw [Nat.add_one_mul]
      exact Nat.add_lt_add_left inside _
    _ ≤ _ := Nat.mul_le_mul_right _ known

namespace ActionTable

/-- Puts actions into the cell at a position. -/
def put (table : ActionTable) (entry : Nat × List Action) : ActionTable where
  cells := table.cells.setIfInBounds entry.1 ⟨table.actions.size, entry.2.length⟩
  actions := table.actions ++ entry.2

/-- The actions of all cells, one cell after the other. -/
def entries (terminals : Nat) (states : List StateData) : List (Nat × List Action) :=
  states.zipIdx.flatMap fun (state, index) =>
    state.actions.map fun entry => (index * terminals + entry.1.index, entry.2)

@[simp]
theorem put_actions (table : ActionTable) (entry : Nat × List Action) :
    (table.put entry).actions = table.actions ++ entry.2.toArray :=
  Array.toList_inj.1 (by simp [put])

theorem ofStates_eq (terminals : Nat) (states : List StateData) :
    ofStates terminals states =
      (entries terminals states).foldl put
        ⟨Array.replicate (states.length * terminals) Cell.empty, #[]⟩ := by
  simp only [ofStates, entries, List.foldl_flatMap, List.foldl_map]
  rfl

/-- Whether every cell of a table holds only actions that entries put there. -/
def Holds (entries : List (Nat × List Action)) (table : ActionTable) : Prop :=
  ∀ position cell, table.cells[position]? = some cell →
    cell.start + cell.size ≤ table.actions.size ∧
      ∀ action ∈ table.actions.extract cell.start (cell.start + cell.size),
        ∃ entry ∈ entries, entry.1 = position ∧ action ∈ entry.2

theorem Holds.put {done : List (Nat × List Action)} {table : ActionTable}
    (holds : table.Holds done) (entry : Nat × List Action) :
    (table.put entry).Holds (done ++ [entry]) := by
  intro position cell found
  rw [put_actions, Array.size_append]
  simp only [ActionTable.put, Array.getElem?_setIfInBounds] at found
  split at found
  · next here =>
      split at found
      · obtain rfl := Option.some.inj found
        refine ⟨by simp, fun action member => ?_⟩
        refine ⟨entry, List.mem_append_right _ (List.mem_singleton_self entry), here, ?_⟩
        simpa [Array.extract_append] using member
      · cases found
  · obtain ⟨bound, sources⟩ := holds position cell found
    refine ⟨by omega, fun action member => ?_⟩
    have old : action ∈ table.actions.extract cell.start (cell.start + cell.size) := by
      simpa [Array.extract_append, Nat.sub_eq_zero_of_le bound] using member
    obtain ⟨source, sourceMember, same, inside⟩ := sources action old
    exact ⟨source, List.mem_append_left _ sourceMember, same, inside⟩

theorem Holds.putAll {done later : List (Nat × List Action)} {table : ActionTable}
    (holds : table.Holds done) : (later.foldl ActionTable.put table).Holds (done ++ later) := by
  induction later generalizing done table with
  | nil => rwa [List.append_nil]
  | cons entry rest induction =>
      have next := induction (holds.put entry)
      rwa [List.append_assoc] at next

theorem holds_empty (size : Nat) : Holds [] ⟨Array.replicate size Cell.empty, #[]⟩ := by
  intro position cell found
  rw [Array.getElem?_replicate] at found
  obtain ⟨-, ⟨⟩⟩ := Option.ite_none_right_eq_some.1 found
  exact ⟨Nat.le_refl _, fun action none => by simp [Cell.empty] at none⟩

/-- The cells of a table hold only actions that are listed for them. -/
theorem holds_ofStates (terminals : Nat) (states : List StateData) :
    (ofStates terminals states).Holds (entries terminals states) := by
  rw [ofStates_eq]
  exact (holds_empty _).putAll

/-- What is read from a table was entered. -/
theorem mem_read_ofStates {terminals : Nat} {states : List StateData} {position : Nat}
    {action : Action} (member : action ∈ (ofStates terminals states).read position) :
    ∃ entry ∈ entries terminals states, entry.1 = position ∧ action ∈ entry.2 := by
  have holds := holds_ofStates terminals states
  unfold read at member
  split at member
  · next cell found =>
      exact (holds position cell found).2 action (Array.mem_toList_iff.1 member)
  · cases member

end ActionTable

namespace GotoTable

/-- The gotos of all states with their places in the table. -/
def entries (terminals nonterminals : Nat) (states : List StateData) : List (Nat × StateId) :=
  states.zipIdx.flatMap fun (state, index) =>
    state.gotos.map fun entry => (index * nonterminals + (entry.1.index - terminals), entry.2)

theorem ofStates_eq (terminals nonterminals : Nat) (states : List StateData) :
    ofStates terminals nonterminals states =
      (entries terminals nonterminals states).foldl
        (fun table entry => table.setIfInBounds entry.1 (some entry.2))
        (Array.replicate (states.length * nonterminals) none) := by
  simp only [ofStates, entries, List.foldl_flatMap, List.foldl_map]

/-- What stands in a table after entries have been made was there before or was entered. -/
theorem source_of_enter {entries : List (Nat × StateId)} {table : Array (Option StateId)}
    {position : Nat} {target : StateId}
    (found : (entries.foldl (fun table entry => table.setIfInBounds entry.1 (some entry.2))
      table)[position]? = some (some target)) :
    table[position]? = some (some target) ∨ (position, target) ∈ entries := by
  induction entries generalizing table with
  | nil => exact .inl found
  | cons entry rest induction =>
      rcases induction found with before | later
      · rw [Array.getElem?_setIfInBounds] at before
        split at before
        · next here =>
            split at before
            · obtain ⟨⟩ := before
              exact .inr (here ▸ List.mem_cons_self)
            · cases before
        · exact .inl before
      · exact .inr (List.mem_cons_of_mem entry later)

/-- A place for which there is an entry is not empty after all entries have been made. -/
theorem isSome_of_enter {entries : List (Nat × StateId)} {table : Array (Option StateId)}
    {position : Nat} (inside : position < table.size)
    (entered : (∃ target, (position, target) ∈ entries) ∨
      ∃ target, table[position]? = some (some target)) :
    ∃ target, (entries.foldl (fun table entry => table.setIfInBounds entry.1 (some entry.2))
      table)[position]? = some (some target) := by
  induction entries generalizing table with
  | nil => exact entered.elim (fun ⟨_, never⟩ => absurd never List.not_mem_nil) id
  | cons entry rest induction =>
      refine induction (by rwa [Array.size_setIfInBounds]) ?_
      by_cases here : entry.1 = position
      · refine .inr ⟨entry.2, ?_⟩
        rw [Array.getElem?_setIfInBounds, if_pos here, if_pos (here ▸ inside)]
      · rcases entered with ⟨target, member⟩ | ⟨target, found⟩
        · rcases List.mem_cons.1 member with same | later
          · exact absurd (congrArg Prod.fst same).symm here
          · exact .inl ⟨target, later⟩
        · refine .inr ⟨target, ?_⟩
          rwa [Array.getElem?_setIfInBounds, if_neg here]

/-- What stands in the table was entered. -/
theorem mem_entries_of_ofStates {terminals nonterminals : Nat} {states : List StateData}
    {position : Nat} {target : StateId}
    (found : (ofStates terminals nonterminals states)[position]? = some (some target)) :
    (position, target) ∈ entries terminals nonterminals states := by
  rw [ofStates_eq] at found
  rcases source_of_enter found with before | entered
  · rw [Array.getElem?_replicate] at before
    obtain ⟨-, ⟨⟩⟩ := Option.ite_none_right_eq_some.1 before
  · exact entered

/-- A place that was entered is not empty. -/
theorem ofStates_isSome {terminals nonterminals : Nat} {states : List StateData}
    {position : Nat} (inside : position < states.length * nonterminals) {target : StateId}
    (entered : (position, target) ∈ entries terminals nonterminals states) :
    ∃ target, (ofStates terminals nonterminals states)[position]? = some (some target) := by
  rw [ofStates_eq]
  exact isSome_of_enter (by rwa [Array.size_replicate]) (.inl ⟨target, entered⟩)

end GotoTable

end IncrementalGlr
