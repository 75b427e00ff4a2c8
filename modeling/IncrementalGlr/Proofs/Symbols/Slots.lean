import IncrementalGlr.Proofs.SymbolSet
import IncrementalGlr.Symbol.Slots
import Mathlib.Data.List.Sort
import Mathlib.Data.Nat.Bitwise

/-!
# Rows of words as sets of symbols

A row of words is the number whose digits in base `2 ^ 64` are its words, so it is a set of symbols
as one mask.  Every operation on rows is the operation on masks, and what a row shows of its members
is what the mask shows.
-/

namespace IncrementalGlr

namespace SymbolSlots

/-- The number with the given digits in base `2 ^ 64`, the least of them first. -/
def value : List UInt64 → Nat
  | [] => 0
  | slot :: slots => 2 ^ 64 * value slots + slot.toNat

/-- The set of symbols that a row stands for, as a mask. -/
def asSet (set : SymbolSlots) : SymbolSet := ⟨value set.slots⟩

/-! ## Digits of a row -/

theorem testBit_value (slots : List UInt64) (index : Nat) :
    (value slots).testBit index = (slots.getD (index / 64) 0).toNat.testBit (index % 64) := by
  induction slots generalizing index with
  | nil => simp [value]
  | cons slot slots induction =>
    rw [value, Nat.testBit_two_pow_mul_add _ slot.toNat_lt]
    split
    · next inside =>
      rw [Nat.div_eq_of_lt inside, Nat.mod_eq_of_lt inside, List.getD_cons_zero]
    · next outside =>
      have place : index / 64 = (index - 64) / 64 + 1 := by omega
      have digit : index % 64 = (index - 64) % 64 := by omega
      rw [induction, place, List.getD_cons_succ, digit]

@[simp]
theorem value_widen (slots : List UInt64) (length : Nat) :
    value (widen slots length) = value slots := by
  refine Nat.eq_of_testBit_eq fun index => ?_
  rw [testBit_value, testBit_value, widen]
  congr 2
  simp only [List.getD_eq_getElem?_getD, List.getElem?_append, List.getElem?_replicate]
  grind

theorem length_widen (slots : List UInt64) (length : Nat) :
    (widen slots length).length = max slots.length length := by
  rw [widen, List.length_append, List.length_replicate]
  omega

/-- Rows of one length that have one value are equal. -/
theorem value_inj {slots others : List UInt64} (length : slots.length = others.length)
    (same : value slots = value others) : slots = others := by
  induction slots generalizing others with
  | nil => exact (List.length_eq_zero_iff.1 length.symm).symm
  | cons slot slots induction =>
    cases others with
    | nil => cases length
    | cons other others =>
      have first := slot.toNat_lt
      have second := other.toNat_lt
      simp only [value] at same
      rw [UInt64.toNat_inj.1 (show slot.toNat = other.toNat by omega),
        induction (Nat.succ.inj length) (by omega)]

/-! ## Places of symbols -/

theorem slotOf_eq (symbol : Symbol) : slotOf symbol = symbol.index / 64 :=
  UInt16.toNat_div symbol.id slotWidth

theorem toNat_oneBit {place : UInt16} (small : place.toNat < 64) :
    (oneBit place).toNat = 2 ^ place.toNat := by
  have power : 2 ^ place.toNat < 2 ^ 64 := Nat.pow_lt_pow_right (by decide) small
  rw [oneBit, UInt64.toNat_shiftLeft, UInt16.toNat_toUInt64, Nat.mod_eq_of_lt small]
  exact (congrArg (· % _) (Nat.one_shiftLeft _)).trans (Nat.mod_eq_of_lt power)

theorem toNat_maskOf (symbol : Symbol) : (maskOf symbol).toNat = 2 ^ (symbol.index % 64) :=
  have digit : (symbol.id % slotWidth).toNat = symbol.index % 64 :=
    UInt16.toNat_mod symbol.id slotWidth
  digit ▸ toNat_oneBit (digit ▸ Nat.mod_lt _ (by decide))

/-- A bit stands in a word if the word has something in common with it. -/
theorem and_eq_zero_iff {slot mask : UInt64} {place : Nat} (power : mask.toNat = 2 ^ place) :
    slot &&& mask = 0 ↔ slot.toNat.testBit place = false := by
  rw [← UInt64.toNat_inj, UInt64.toNat_and, power, Nat.and_two_pow]
  cases slot.toNat.testBit place <;> simp

theorem testBit_toNat_or (slot other : UInt64) (place : Nat) :
    (slot ||| other).toNat.testBit place =
      (slot.toNat.testBit place || other.toNat.testBit place) := by
  rw [UInt64.toNat_or, Nat.testBit_or]

/-! ## Operations -/

theorem asSet_empty : empty.asSet = .empty := rfl

theorem contains_eq (set : SymbolSlots) (symbol : Symbol) :
    set.contains symbol = set.asSet.contains symbol := by
  rw [SymbolSet.contains, asSet, testBit_value, contains, slotOf_eq, List.getD_eq_getElem?_getD]
  cases set.slots[symbol.index / 64]? with
  | none => exact (Nat.zero_testBit _).symm
  | some slot =>
    rw [Option.any_some, Option.getD_some, Bool.eq_iff_iff, bne_iff_ne, ne_eq,
      and_eq_zero_iff (toNat_maskOf symbol), Bool.not_eq_false]

theorem insert_eq (set : SymbolSlots) (symbol : Symbol) :
    (set.insert symbol).1 = (set.asSet.insertNew symbol).1 ∧
      (set.insert symbol).2.asSet = (set.asSet.insertNew symbol).2 := by
  have digits := testBit_value (widen set.slots (slotOf symbol + 1))
  simp only [value_widen] at digits
  constructor
  · rw [insert, SymbolSet.insertNew, SymbolSet.contains, asSet, digits, ← slotOf_eq,
      Bool.eq_iff_iff, beq_iff_eq, and_eq_zero_iff (toNat_maskOf symbol), Bool.not_eq_true']
  · have present : slotOf symbol < (widen set.slots (slotOf symbol + 1)).length := by
      rw [length_widen]
      omega
    refine congrArg SymbolSet.mk (Nat.eq_of_testBit_eq fun index => ?_)
    rw [SymbolSet.singleton, Nat.testBit_or, Nat.one_shiftLeft, Nat.testBit_two_pow, asSet, digits,
      insert, testBit_value, List.getD_eq_getElem?_getD, List.getElem?_set, if_pos present]
    split
    · next place =>
      rw [slotOf_eq] at place
      have same : symbol.index = index ↔ symbol.index % 64 = index % 64 := by omega
      rw [Option.getD_some, testBit_toNat_or, toNat_maskOf, Nat.testBit_two_pow,
        slotOf_eq, place, decide_eq_decide.2 same]
    · next place =>
      have other : symbol.index ≠ index := fun same => place (slotOf_eq symbol ▸ same ▸ rfl)
      rw [decide_eq_false other, Bool.or_false, List.getD_eq_getElem?_getD]

theorem asSet_insertAll (set : SymbolSlots) (symbols : List Symbol) :
    (set.insertAll symbols).asSet = set.asSet.insertAll symbols := by
  induction symbols generalizing set with
  | nil => rfl
  | cons symbol symbols induction =>
    exact (induction _).trans (congrArg (·.insertAll symbols) (set.insert_eq symbol).2)

theorem length_merge (slots others : List UInt64) :
    (merge slots others).2.length = slots.length := by
  fun_induction merge slots others with
  | case1 slot slots other others changed merged same induction =>
    rw [same] at induction
    exact congrArg (· + 1) induction
  | case2 => rfl

theorem value_merge {slots others : List UInt64} (long : others.length ≤ slots.length) :
    value (merge slots others).2 = value slots ||| value others := by
  fun_induction merge slots others with
  | case1 slot slots other others changed merged same induction =>
    rw [same] at induction
    have kept := induction (Nat.le_of_succ_le_succ long)
    refine Nat.eq_of_testBit_eq fun index => ?_
    simp only [value, Nat.testBit_or, Nat.testBit_two_pow_mul_add _ (UInt64.toNat_lt _), kept]
    split
    · exact testBit_toNat_or slot other index
    · rfl
  | case2 slots others short =>
    cases others with
    | nil => exact (Nat.or_zero _).symm
    | cons other others =>
      cases slots with
      | nil => cases long
      | cons slot slots => exact (short slot slots other others rfl rfl).elim

/-- The flag of a merger says whether a word changed. -/
theorem merge_unchanged_iff (slots others : List UInt64) :
    (merge slots others).1 = false ↔ (merge slots others).2 = slots := by
  fun_induction merge slots others with
  | case1 slot slots other others changed merged same induction =>
    rw [same] at induction
    rw [Bool.or_eq_false_iff, bne_eq_false_iff_eq, List.cons.injEq]
    exact and_congr_right fun _ => induction
  | case2 => exact ⟨fun _ => rfl, fun _ => rfl⟩

theorem union_eq (set other : SymbolSlots) :
    (set.union other).1 = (set.asSet.unionGrow other.asSet).1 ∧
      (set.union other).2.asSet = (set.asSet.unionGrow other.asSet).2 := by
  have long : other.slots.length ≤ (widen set.slots other.slots.length).length := by
    rw [length_widen]
    omega
  have merged : value (merge (widen set.slots other.slots.length) other.slots).2 =
      value set.slots ||| value other.slots := by
    rw [value_merge long, value_widen]
  refine ⟨?_, congrArg SymbolSet.mk merged⟩
  have same : (merge (widen set.slots other.slots.length) other.slots).1 = false ↔
      set.asSet.union other.asSet = set.asSet := by
    rw [merge_unchanged_iff]
    constructor
    · intro unchanged
      rw [unchanged, value_widen] at merged
      exact congrArg SymbolSet.mk merged.symm
    · intro unchanged
      refine value_inj (length_merge _ _) (merged.trans ?_)
      rw [value_widen]
      exact congrArg SymbolSet.mask unchanged
  rw [SymbolSet.unionGrow, Bool.eq_iff_iff, decide_eq_true_eq, ne_eq, ← same, Bool.not_eq_false]
  exact Iff.rfl

theorem isEmpty_eq (set : SymbolSlots) : set.isEmpty = set.asSet.isEmpty := by
  rw [Bool.eq_iff_iff, isEmpty, List.all_eq_true, SymbolSet.isEmpty, beq_iff_eq, asSet]
  simp only [beq_iff_eq]
  induction set.slots with
  | nil => exact ⟨fun _ => rfl, fun _ _ never => absurd never List.not_mem_nil⟩
  | cons slot slots induction =>
    rw [List.forall_mem_cons, induction, value, ← UInt64.toNat_inj, UInt64.toNat_zero]
    omega

/-! ## Comparison -/

theorem withoutPadding_eq_nil_iff (slots : List UInt64) :
    withoutPadding slots = [] ↔ value slots = 0 := by
  induction slots with
  | nil => exact ⟨fun _ => rfl, fun _ => rfl⟩
  | cons slot slots induction =>
    rw [withoutPadding, value]
    split
    · next padding =>
      obtain ⟨zero, nothing⟩ := Bool.and_eq_true_iff.1 padding
      rw [induction.1 (List.isEmpty_iff.1 nothing), eq_of_beq zero]
      exact ⟨fun _ => rfl, fun _ => rfl⟩
    · next present =>
      refine ⟨fun never => absurd never (List.cons_ne_nil _ _), fun nothing => absurd ?_ present⟩
      have zero : slot = 0 := UInt64.toNat_inj.1 (show slot.toNat = 0 by omega)
      rw [induction.2 (by omega), zero]
      rfl

theorem value_withoutPadding (slots : List UInt64) : value (withoutPadding slots) = value slots := by
  induction slots with
  | nil => rfl
  | cons slot slots induction =>
    rw [withoutPadding]
    split
    · next padding =>
      obtain ⟨zero, nothing⟩ := Bool.and_eq_true_iff.1 padding
      rw [value, value, (withoutPadding_eq_nil_iff slots).1 (List.isEmpty_iff.1 nothing),
        eq_of_beq zero]
      rfl
    · rw [value, value, induction]

theorem withoutPadding_congr {slots others : List UInt64} (same : value slots = value others) :
    withoutPadding slots = withoutPadding others := by
  induction slots generalizing others with
  | nil => exact ((withoutPadding_eq_nil_iff others).2 same.symm).symm
  | cons slot slots induction =>
    cases others with
    | nil => exact (withoutPadding_eq_nil_iff _).2 same
    | cons other others =>
      have first := slot.toNat_lt
      have second := other.toNat_lt
      simp only [value] at same
      rw [withoutPadding, withoutPadding, induction (show value slots = value others by omega),
        UInt64.toNat_inj.1 (show slot.toNat = other.toNat by omega)]

/-- Rows have the same significant words if they stand for the same set, however long they are. -/
theorem significant_eq_iff {set other : SymbolSlots} :
    set.significant = other.significant ↔ set.asSet = other.asSet := by
  refine ⟨fun same => ?_, fun same => withoutPadding_congr (congrArg SymbolSet.mask same)⟩
  have values := congrArg value same
  rw [significant, significant, value_withoutPadding, value_withoutPadding] at values
  exact congrArg SymbolSet.mk values

/-! ## Listing -/

/-- Whether a row has no more words than all symbols need. -/
def Fits (set : SymbolSlots) : Prop := set.slots.length ≤ 1024

theorem fits_empty : empty.Fits := Nat.zero_le _

theorem Fits.insert {set : SymbolSlots} (fits : set.Fits) (symbol : Symbol) :
    (set.insert symbol).2.Fits := by
  have word := symbol.index_lt
  rw [Fits, SymbolSlots.insert, List.length_set, length_widen, slotOf_eq]
  exact Nat.max_le.2 ⟨fits, by omega⟩

theorem Fits.insertAll {set : SymbolSlots} (fits : set.Fits) (symbols : List Symbol) :
    (set.insertAll symbols).Fits := by
  induction symbols generalizing set with
  | nil => exact fits
  | cons symbol symbols induction => exact induction (fits.insert symbol)

theorem Fits.union {set other : SymbolSlots} (fits : set.Fits) (otherFits : other.Fits) :
    (set.union other).2.Fits := by
  change (merge (widen set.slots other.slots.length) other.slots).2.length ≤ 1024
  rw [length_merge, length_widen]
  exact Nat.max_le.2 ⟨fits, otherFits⟩

theorem Fits.below {set : SymbolSlots} (fits : set.Fits) : set.asSet.Below 65536 := by
  intro index member
  by_contra outside
  have short : set.slots.length ≤ index / 64 := by
    rw [Fits] at fits
    omega
  rw [asSet, testBit_value, List.getD_eq_default _ _ short, UInt64.toNat_zero,
    Nat.zero_testBit] at member
  cases member

/-- The places of the ones in a word. -/
def ones (slot : UInt64) : List Nat := (List.range 64).filter slot.toNat.testBit

theorem mem_ones {slot : UInt64} {place : Nat} :
    place ∈ ones slot ↔ place < 64 ∧ slot.toNat.testBit place = true := by
  rw [ones, List.mem_filter, List.mem_range]

theorem pairwise_ones (slot : UInt64) : (ones slot).Pairwise (· < ·) :=
  List.pairwise_lt_range.filter _

theorem toNat_place {place : Nat} (small : place < 64) : (UInt16.ofNat place).toNat = place :=
  UInt16.toNat_ofNat_of_lt (Nat.lt_trans small (by decide))

theorem slotMembers_eq (slot : UInt64) (position : Nat) :
    slotMembers slot position = (ones slot).map fun place =>
      ⟨UInt16.ofNat position * slotWidth + UInt16.ofNat place⟩ := by
  have bit : ∀ place ∈ List.range 64,
      ((fun place => slot &&& oneBit place != 0) ∘ UInt16.ofNat) place =
        slot.toNat.testBit place := by
    intro place inside
    have small := List.mem_range.1 inside
    rw [Function.comp_apply, Bool.eq_iff_iff, bne_iff_ne, ne_eq,
      and_eq_zero_iff (toNat_oneBit ((toNat_place small).symm ▸ small)), toNat_place small,
      Bool.not_eq_false]
  rw [slotMembers, List.filter_map, List.map_map, ones, List.filter_congr bit]
  rfl

theorem length_slotMembers (slot : UInt64) (position : Nat) :
    (slotMembers slot position).length = countOnes slot := by
  rw [slotMembers_eq, List.length_map, ones, countOnes, List.countP_eq_length_filter]

theorem map_index_slotMembers (slot : UInt64) {position : Nat} (word : position < 1024) :
    (slotMembers slot position).map Symbol.index = (ones slot).map (64 * position + ·) := by
  rw [slotMembers_eq, List.map_map]
  refine List.map_congr_left fun place member => ?_
  have small := (mem_ones.1 member).1
  have block : (UInt16.ofNat position).toNat = position :=
    UInt16.toNat_ofNat_of_lt (Nat.lt_trans word (by decide))
  have width : slotWidth.toNat = 64 := rfl
  rw [Function.comp_apply, Symbol.index, UInt16.toNat_add, UInt16.toNat_mul, block, width,
    toNat_place small]
  omega

/-- The indexes of the members of a row, word by word. -/
def indexes (slots : List UInt64) : List Nat :=
  slots.zipIdx.flatMap fun (slot, position) => (ones slot).map (64 * position + ·)

theorem mem_indexes {slots : List UInt64} {index : Nat} :
    index ∈ indexes slots ↔ (value slots).testBit index = true := by
  rw [testBit_value, List.getD_eq_getElem?_getD, indexes, List.mem_flatMap]
  constructor
  · rintro ⟨⟨slot, position⟩, listed, member⟩
    obtain ⟨place, one, rfl⟩ := List.mem_map.1 member
    obtain ⟨small, digit⟩ := mem_ones.1 one
    have block : (64 * position + place) / 64 = position := by omega
    rw [block, Nat.mul_add_mod, Nat.mod_eq_of_lt small, List.mk_mem_zipIdx_iff_getElem?.1 listed]
    exact digit
  · intro digit
    cases found : slots[index / 64]? with
    | none =>
      rw [found, Option.getD_none, UInt64.toNat_zero, Nat.zero_testBit] at digit
      cases digit
    | some slot =>
      rw [found] at digit
      exact ⟨(slot, index / 64), List.mk_mem_zipIdx_iff_getElem?.2 found, List.mem_map.2
        ⟨index % 64, mem_ones.2 ⟨Nat.mod_lt _ (by decide), digit⟩, Nat.div_add_mod _ _⟩⟩

/-- The words of a row come in ascending order, and each speaks of indexes of its own. -/
theorem pairwise_indexes (slots : List UInt64) : (indexes slots).Pairwise (· < ·) := by
  refine List.pairwise_flatMap.2 ⟨fun (slot, position) _ => ?_, ?_⟩
  · exact (pairwise_ones slot).map _ fun _ _ before => Nat.add_lt_add_left before _
  · have order : slots.zipIdx.Pairwise fun left right => left.2 < right.2 := by
      refine List.pairwise_map.1 ?_
      rw [List.zipIdx_map_snd]
      exact List.pairwise_lt_range'
    refine order.imp fun {left right} before index first other second => ?_
    obtain ⟨place, member, rfl⟩ := List.mem_map.1 first
    obtain ⟨otherPlace, -, rfl⟩ := List.mem_map.1 second
    have small := (mem_ones.1 member).1
    omega

theorem Fits.map_index_toList {set : SymbolSlots} (fits : set.Fits) :
    set.toList.map Symbol.index = set.asSet.indexes := by
  have blocks : set.toList.map Symbol.index = indexes set.slots := by
    rw [toList, List.map_flatMap]
    refine List.flatMap_congr fun (slot, position) member => ?_
    have inside : position < set.slots.length :=
      (List.getElem?_eq_some_iff.1 (List.mk_mem_zipIdx_iff_getElem?.1 member)).1
    exact map_index_slotMembers slot (Nat.lt_of_lt_of_le inside fits)
  exact blocks.trans ((pairwise_indexes set.slots).eq_of_mem_iff set.asSet.pairwise_indexes
    fun _ => mem_indexes.trans SymbolSet.mem_indexes.symm)

/-- A row lists its members as its mask does. -/
theorem Fits.toList_eq {set : SymbolSlots} (fits : set.Fits) : set.toList = set.asSet.toList := by
  rw [SymbolSet.toList, ← fits.map_index_toList, List.map_map]
  refine (List.map_congr_left fun symbol _ => ?_).trans (List.map_id _) |>.symm
  exact Symbol.index_inj (Symbol.index_ofIndex symbol.index_lt)

theorem Fits.size_eq {set : SymbolSlots} (fits : set.Fits) : set.size = set.asSet.size := by
  have total : set.size = (set.slots.map countOnes).sum := by
    rw [List.sum_eq_foldr, List.foldr_map]
    rfl
  rw [SymbolSet.size, ← fits.map_index_toList, List.length_map, toList, List.length_flatMap, total]
  simp only [length_slotMembers]
  exact congrArg (fun slots => (slots.map countOnes).sum) (List.zipIdx_map_fst 0 set.slots).symm
    |>.trans (congrArg List.sum List.map_map)

end SymbolSlots

end IncrementalGlr
