import IncrementalGlr.Proofs.Table.Lookup
import IncrementalGlr.Symbol
import Mathlib.Algebra.Order.BigOperators.Group.List
import Mathlib.Algebra.Order.Group.Nat

/-!
# Members of symbol sets

Which symbols belong to a set, and how many it can list.
-/

namespace IncrementalGlr

namespace SymbolSet

theorem testBit_insertAll {set : SymbolSet} {symbols : List Symbol} {index : Nat} :
    (set.insertAll symbols).mask.testBit index = true ↔
      set.mask.testBit index = true ∨ ∃ symbol ∈ symbols, symbol.index = index := by
  induction symbols generalizing set with
  | nil => simp [insertAll]
  | cons symbol rest induction =>
      have inserted : (set.insert symbol).mask.testBit index = true ↔
          set.mask.testBit index = true ∨ symbol.index = index := by
        simp [insert, union, singleton, Nat.one_shiftLeft, Nat.testBit_two_pow]
      rw [insertAll, List.foldl_cons]
      change ((set.insert symbol).insertAll rest).mask.testBit index = true ↔ _
      rw [induction, inserted]
      simp [or_assoc]

theorem testBit_ofList {symbols : List Symbol} {index : Nat} :
    (ofList symbols).mask.testBit index = true ↔ ∃ symbol ∈ symbols, symbol.index = index := by
  simp [ofList, testBit_insertAll, empty]

theorem contains_ofList {symbols : List Symbol} {symbol : Symbol} :
    (ofList symbols).contains symbol = true ↔ symbol ∈ symbols := by
  rw [contains, testBit_ofList]
  exact ⟨fun ⟨other, member, same⟩ => Symbol.index_inj same ▸ member,
    fun member => ⟨symbol, member, rfl⟩⟩

theorem mem_slotIndexes {set : SymbolSet} {slot index : Nat} :
    index ∈ set.slotIndexes slot ↔ index / 64 = slot ∧ set.mask.testBit index = true := by
  have bit : ∀ digit, ((set.mask >>> (64 * slot)) % 2 ^ 64).testBit digit = true ↔
      digit < 64 ∧ set.mask.testBit (64 * slot + digit) = true := by
    intro digit
    rw [Nat.testBit_mod_two_pow, Nat.testBit_shiftRight, Bool.and_eq_true, decide_eq_true_eq]
  unfold slotIndexes
  dsimp only
  rw [Nat.pow_eq]
  split
  · next none =>
    refine ⟨fun never => absurd never List.not_mem_nil, fun ⟨place, member⟩ => ?_⟩
    have inside := (bit (index % 64)).2 ⟨Nat.mod_lt _ (by decide), by
      rwa [← place, Nat.div_add_mod]⟩
    rw [none, Nat.zero_testBit] at inside
    cases inside
  · rw [List.mem_map]
    constructor
    · rintro ⟨digit, kept, rfl⟩
      obtain ⟨small, member⟩ := (bit digit).1 (List.mem_filter.1 kept).2
      exact ⟨by omega, member⟩
    · rintro ⟨place, member⟩
      refine ⟨index % 64, List.mem_filter.2 ⟨List.mem_range.2 (Nat.mod_lt _ (by decide)),
        (bit _).2 ⟨Nat.mod_lt _ (by decide), ?_⟩⟩, ?_⟩
      · rwa [← place, Nat.div_add_mod]
      · rw [← place, Nat.div_add_mod]

/-- What is listed are the members of the set. -/
theorem mem_indexes {set : SymbolSet} {index : Nat} :
    index ∈ set.indexes ↔ set.mask.testBit index = true := by
  simp only [indexes, List.mem_flatMap, List.mem_range, mem_slotIndexes]
  refine ⟨fun ⟨_, _, _, member⟩ => member, fun member => ⟨index / 64, ?_, rfl, member⟩⟩
  have least := Nat.ge_two_pow_of_testBit member
  have size : index ≤ set.mask.log2 :=
    (Nat.le_log2 (Nat.ne_of_gt (Nat.lt_of_lt_of_le (Nat.two_pow_pos _) least))).2 least
  exact Nat.lt_succ_of_le (Nat.div_le_div_right size)

theorem testBit_of_mem_indexes {set : SymbolSet} {index : Nat} (member : index ∈ set.indexes) :
    set.mask.testBit index = true := mem_indexes.1 member

/-- Members are listed in ascending order. -/
theorem pairwise_indexes (set : SymbolSet) : set.indexes.Pairwise (· < ·) := by
  refine List.pairwise_flatMap.2 ⟨fun slot _ => ?_, ?_⟩
  · unfold slotIndexes
    dsimp only
    split
    · exact List.Pairwise.nil
    · exact (List.pairwise_lt_range.filter _).map _ fun _ _ before => Nat.add_lt_add_left before _
  · refine List.pairwise_lt_range.imp fun {slot later} before index first other second => ?_
    have left := (mem_slotIndexes.1 first).1
    have right := (mem_slotIndexes.1 second).1
    omega

/-- Listing the symbols of a list as a set adds none. -/
theorem mem_of_mem_toList_ofList {symbols : List Symbol} {symbol : Symbol}
    (member : symbol ∈ (ofList symbols).toList) : symbol ∈ symbols := by
  obtain ⟨index, listed, rfl⟩ := List.mem_map.1 member
  obtain ⟨source, sourceMember, rfl⟩ := testBit_ofList.1 (testBit_of_mem_indexes listed)
  have same : Symbol.ofIndex source.index = source :=
    Symbol.index_inj (Symbol.index_ofIndex source.index_lt)
  rwa [same]

/-- Symbols have words of sixteen bits, so a set of them does not list more than there are words. -/
theorem length_toList_ofList_le (symbols : List Symbol) : (ofList symbols).toList.length ≤ 65536 := by
  have word : (ofList symbols).mask.log2 < 65536 := by
    by_cases empty : (ofList symbols).mask = 0
    · rw [empty, Nat.log2_zero]
      decide
    · obtain ⟨symbol, -, same⟩ := testBit_ofList.1 (Nat.testBit_log2 empty)
      exact same ▸ symbol.index_lt
  have slot : ∀ place, ((ofList symbols).slotIndexes place).length ≤ 64 := by
    intro place
    unfold slotIndexes
    dsimp only
    split
    · exact Nat.zero_le _
    · rw [List.length_map]
      exact (List.length_filter_le _ _).trans (Nat.le_of_eq List.length_range)
  have all := List.sum_le_card_nsmul
    ((List.range ((ofList symbols).mask.log2 / 64 + 1)).map fun place =>
      ((ofList symbols).slotIndexes place).length) 64 fun size member => by
        obtain ⟨place, -, rfl⟩ := List.mem_map.1 member
        exact slot place
  rw [List.length_map, List.length_range, Nat.nsmul_eq_mul] at all
  rw [toList, List.length_map, indexes, List.length_flatMap]
  omega

theorem contains_union {left right : SymbolSet} {symbol : Symbol} :
    (left.union right).contains symbol = true ↔
      left.contains symbol = true ∨ right.contains symbol = true := by
  rw [contains, union, Nat.testBit_or, Bool.or_eq_true]
  exact Iff.rfl

@[simp]
theorem contains_empty (symbol : Symbol) : empty.contains symbol = false :=
  Nat.zero_testBit symbol.index

theorem contains_singleton_iff {symbol other : Symbol} :
    (singleton symbol).contains other = true ↔ other = symbol := by
  rw [contains, singleton, Nat.one_shiftLeft, Nat.testBit_two_pow, decide_eq_true_eq, eq_comm]
  exact ⟨Symbol.index_inj, congrArg Symbol.index⟩

theorem contains_singleton (symbol : Symbol) : (singleton symbol).contains symbol = true :=
  contains_singleton_iff.2 rfl

/-- Whether all members of a set come before a limit. -/
def Below (limit : Nat) (set : SymbolSet) : Prop :=
  ∀ index, set.mask.testBit index = true → index < limit

section Below

variable {limit : Nat} {left right : SymbolSet}

theorem below_empty : Below limit empty := by
  intro index member
  simp [empty] at member

theorem below_singleton {symbol : Symbol} (inside : symbol.index < limit) :
    Below limit (singleton symbol) := by
  intro index member
  rw [singleton, Nat.one_shiftLeft, Nat.testBit_two_pow, decide_eq_true_eq] at member
  exact member ▸ inside

theorem Below.union (first : Below limit left) (second : Below limit right) :
    Below limit (left.union right) := by
  intro index member
  rw [SymbolSet.union, Nat.testBit_or, Bool.or_eq_true] at member
  exact member.elim (first index) (second index)

/-- Sets with the same members below a limit are equal if they have no others. -/
theorem Below.ext (first : Below limit left) (second : Below limit right)
    (same : ∀ index < limit, left.mask.testBit index = right.mask.testBit index) :
    left = right := by
  obtain ⟨mask⟩ := left
  obtain ⟨other⟩ := right
  congr 1
  refine Nat.eq_of_testBit_eq fun index => ?_
  by_cases inside : index < limit
  · exact same index inside
  · rw [Bool.eq_false_iff.2 fun member => inside (first index member),
      Bool.eq_false_iff.2 fun member => inside (second index member)]

/-- The list of a set of symbols has its members. -/
theorem Below.mem_toList {set : SymbolSet} (words : Below 65536 set) {symbol : Symbol} :
    symbol ∈ set.toList ↔ set.contains symbol = true := by
  refine List.mem_map.trans ⟨?_, fun member => ⟨symbol.index, mem_indexes.2 member, ?_⟩⟩
  · rintro ⟨index, listed, rfl⟩
    have member := mem_indexes.1 listed
    rwa [contains, Symbol.index_ofIndex (words index member)]
  · exact Symbol.index_inj (Symbol.index_ofIndex symbol.index_lt)

theorem Below.pairwise_toList {set : SymbolSet} (words : Below 65536 set) :
    set.toList.Pairwise (·.index < ·.index) := by
  refine List.pairwise_map.2 (set.pairwise_indexes.imp_of_mem
    fun {index other} first second before => ?_)
  rw [Symbol.index_ofIndex (words index (mem_indexes.1 first)),
    Symbol.index_ofIndex (words other (mem_indexes.1 second))]
  exact before

end Below

end SymbolSet

end IncrementalGlr
