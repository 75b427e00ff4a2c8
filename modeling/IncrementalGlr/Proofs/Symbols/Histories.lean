import IncrementalGlr.Proofs.Symbols.Slots
import Mathlib.Data.Finset.Card

/-!
# Histories of sets of symbols

Sets of symbols are filled by insertion of one symbol or of many, and by union.  What the calls of
a history answer, and what can be asked of the sets they leave behind, is told by the finite sets
of their members alone.  Rows of words follow masks call by call, and masks follow finite sets.
-/

namespace IncrementalGlr

/-- A call that changes one of a family of sets. -/
inductive SetCall
  /-- Adds a symbol. -/
  | insert (place : Nat) (symbol : Symbol)
  /-- Adds the symbols of a list. -/
  | extend (place : Nat) (symbols : List Symbol)
  /-- Puts the set of the symbols in a list in place of a set. -/
  | collect (place : Nat) (symbols : List Symbol)
  /-- Adds the members of another set. -/
  | union (place other : Nat)

/-- A way to keep sets of symbols. -/
structure SetForm (σ : Type) where
  /-- The set without members. -/
  empty : σ
  /-- Adds a symbol and says whether the set grew. -/
  insert : σ → Symbol → Bool × σ
  /-- Adds the symbols of a list. -/
  insertAll : σ → List Symbol → σ
  /-- Adds the members of another set and says whether the set grew. -/
  union : σ → σ → Bool × σ

namespace SetForm

variable {σ τ : Type}

/-- Sets as rows of words. -/
def rows : SetForm SymbolSlots :=
  ⟨SymbolSlots.empty, SymbolSlots.insert, SymbolSlots.insertAll, SymbolSlots.union⟩

/-- Sets as masks. -/
def masks : SetForm SymbolSet :=
  ⟨SymbolSet.empty, SymbolSet.insertNew, SymbolSet.insertAll, SymbolSet.unionGrow⟩

/-- Sets as they are in theory. -/
def finite : SetForm (Finset Symbol) where
  empty := ∅
  insert set symbol := (decide (set ⊂ Insert.insert symbol set), Insert.insert symbol set)
  insertAll set symbols := set ∪ symbols.toFinset
  union set other := (decide (set ⊂ set ∪ other), set ∪ other)

/-- The answer of a call, if it gives one, and the sets after it. -/
def call (form : SetForm σ) (sets : Nat → σ) : SetCall → Option Bool × (Nat → σ)
  | .insert place symbol =>
    let (grew, set) := form.insert (sets place) symbol
    (some grew, Function.update sets place set)
  | .extend place symbols =>
    (none, Function.update sets place (form.insertAll (sets place) symbols))
  | .collect place symbols =>
    (none, Function.update sets place (form.insertAll form.empty symbols))
  | .union place other =>
    let (grew, set) := form.union (sets place) (sets other)
    (some grew, Function.update sets place set)

/-- The answers of calls in order, and the sets after all of them. -/
def run (form : SetForm σ) (sets : Nat → σ) :
    List SetCall → List (Option Bool) × (Nat → σ)
  | [] => ([], sets)
  | first :: calls =>
    let (answer, after) := form.call sets first
    let (answers, ended) := form.run after calls
    (answer :: answers, ended)

/-- Calls on sets that all start without members. -/
def history (form : SetForm σ) (calls : List SetCall) : List (Option Bool) × (Nat → σ) :=
  form.run (fun _ => form.empty) calls

/-- Whether one form follows another: sets that correspond give the same answers and still
correspond afterwards. -/
structure Follows (form : SetForm σ) (other : SetForm τ) (Like : σ → τ → Prop) : Prop where
  /-- The sets without members correspond. -/
  empty : Like form.empty other.empty
  /-- Insertion agrees. -/
  insert : ∀ {set : σ} {same : τ}, Like set same → ∀ symbol,
    (form.insert set symbol).1 = (other.insert same symbol).1 ∧
      Like (form.insert set symbol).2 (other.insert same symbol).2
  /-- Insertion of many symbols agrees. -/
  insertAll : ∀ {set : σ} {same : τ}, Like set same → ∀ symbols,
    Like (form.insertAll set symbols) (other.insertAll same symbols)
  /-- Union agrees. -/
  union : ∀ {set added : σ} {same sameAdded : τ}, Like set same → Like added sameAdded →
    (form.union set added).1 = (other.union same sameAdded).1 ∧
      Like (form.union set added).2 (other.union same sameAdded).2

namespace Follows

variable {form : SetForm σ} {other : SetForm τ} {Like : σ → τ → Prop}

theorem update {sets : Nat → σ} {others : Nat → τ}
    (alike : ∀ place, Like (sets place) (others place)) (changed : Nat) {set : σ} {same : τ}
    (like : Like set same) (place : Nat) :
    Like (Function.update sets changed set place) (Function.update others changed same place) := by
  rw [Function.update_apply, Function.update_apply]
  split
  · exact like
  · exact alike place

/-- One call keeps families of sets alike. -/
theorem call (follows : form.Follows other Like) {sets : Nat → σ} {others : Nat → τ}
    (alike : ∀ place, Like (sets place) (others place)) (one : SetCall) :
    (form.call sets one).1 = (other.call others one).1 ∧
      ∀ place, Like ((form.call sets one).2 place) ((other.call others one).2 place) := by
  cases one with
  | insert place symbol =>
    obtain ⟨answer, like⟩ := follows.insert (alike place) symbol
    exact ⟨congrArg some answer, update alike place like⟩
  | extend place symbols =>
    exact ⟨rfl, update alike place (follows.insertAll (alike place) symbols)⟩
  | collect place symbols =>
    exact ⟨rfl, update alike place (follows.insertAll follows.empty symbols)⟩
  | union place added =>
    obtain ⟨answer, like⟩ := follows.union (alike place) (alike added)
    exact ⟨congrArg some answer, update alike place like⟩

theorem run (follows : form.Follows other Like) {sets : Nat → σ} {others : Nat → τ}
    (alike : ∀ place, Like (sets place) (others place)) (calls : List SetCall) :
    (form.run sets calls).1 = (other.run others calls).1 ∧
      ∀ place, Like ((form.run sets calls).2 place) ((other.run others calls).2 place) := by
  induction calls generalizing sets others with
  | nil => exact ⟨rfl, alike⟩
  | cons one calls induction =>
    obtain ⟨answer, after⟩ := follows.call alike one
    obtain ⟨answers, ended⟩ := induction after
    exact ⟨congrArg₂ List.cons answer answers, ended⟩

/-- A whole history keeps families of sets alike. -/
theorem history (follows : form.Follows other Like) (calls : List SetCall) :
    (form.history calls).1 = (other.history calls).1 ∧
      ∀ place, Like ((form.history calls).2 place) ((other.history calls).2 place) :=
  follows.run (fun _ => follows.empty) calls

end Follows

/-! ## Rows follow masks -/

theorem rows_follows_masks :
    rows.Follows masks fun row mask => row.Fits ∧ row.asSet = mask where
  empty := ⟨SymbolSlots.fits_empty, SymbolSlots.asSet_empty⟩
  insert := by
    rintro row _ ⟨fits, rfl⟩ symbol
    obtain ⟨answer, same⟩ := row.insert_eq symbol
    exact ⟨answer, fits.insert symbol, same⟩
  insertAll := by
    rintro row _ ⟨fits, rfl⟩ symbols
    exact ⟨fits.insertAll symbols, row.asSet_insertAll symbols⟩
  union := by
    rintro row added _ _ ⟨fits, rfl⟩ ⟨addedFits, rfl⟩
    obtain ⟨answer, same⟩ := row.union_eq added
    exact ⟨answer, fits.union addedFits, same⟩

end SetForm

/-! ## Masks follow finite sets -/

namespace SymbolSet

/-- Whether a mask has exactly the members of a finite set. -/
structure HasMembers (set : SymbolSet) (members : Finset Symbol) : Prop where
  /-- Only symbols are members. -/
  words : set.Below 65536
  /-- The members are those of the finite set. -/
  contains_iff : ∀ symbol, set.contains symbol = true ↔ symbol ∈ members

namespace HasMembers

variable {set other : SymbolSet} {members others : Finset Symbol}

theorem eq_iff (kept : set.HasMembers members) (otherKept : other.HasMembers others) :
    set = other ↔ members = others := by
  constructor
  · rintro rfl
    exact Finset.ext fun symbol =>
      (kept.contains_iff symbol).symm.trans (otherKept.contains_iff symbol)
  · rintro rfl
    refine kept.words.ext otherKept.words fun index word => ?_
    have same := (kept.contains_iff (.ofIndex index)).trans (otherKept.contains_iff _).symm
    rw [contains, contains, Symbol.index_ofIndex word] at same
    exact Bool.eq_iff_iff.2 same

protected theorem insert (kept : set.HasMembers members) (symbol : Symbol) :
    (set.insert symbol).HasMembers (Insert.insert symbol members) where
  words := kept.words.union (below_singleton symbol.index_lt)
  contains_iff other := by
    rw [SymbolSet.insert, contains_union, contains_singleton_iff, kept.contains_iff,
      Finset.mem_insert, or_comm]

protected theorem union (kept : set.HasMembers members) (otherKept : other.HasMembers others) :
    (set.union other).HasMembers (members ∪ others) where
  words := kept.words.union otherKept.words
  contains_iff symbol := by
    rw [contains_union, kept.contains_iff, otherKept.contains_iff, Finset.mem_union]

protected theorem insertAll (kept : set.HasMembers members) (symbols : List Symbol) :
    (set.insertAll symbols).HasMembers (members ∪ symbols.toFinset) := by
  induction symbols generalizing set members with
  | nil => rwa [List.toFinset_nil, Finset.union_empty]
  | cons symbol symbols induction =>
    have added := induction (kept.insert symbol)
    rwa [Finset.insert_union, ← Finset.union_insert, ← List.toFinset_cons] at added

end HasMembers

end SymbolSet

theorem SetForm.masks_follows_finite :
    SetForm.masks.Follows SetForm.finite SymbolSet.HasMembers where
  empty := ⟨SymbolSet.below_empty, fun symbol => by
    simp [masks, finite]⟩
  insert := by
    intro set members kept symbol
    refine ⟨?_, kept.insert symbol⟩
    change (!set.contains symbol) = decide (members ⊂ Insert.insert symbol members)
    rw [Bool.eq_iff_iff, decide_eq_true_eq, Bool.not_eq_true', ← Bool.not_eq_true,
      kept.contains_iff]
    exact ⟨Finset.ssubset_insert, fun grew member => grew.ne (Finset.insert_eq_of_mem member).symm⟩
  insertAll kept := kept.insertAll
  union := by
    intro set added members addedMembers kept addedKept
    refine ⟨?_, kept.union addedKept⟩
    change decide (set.union added ≠ set) = decide (members ⊂ members ∪ addedMembers)
    rw [decide_eq_decide, ne_eq, (kept.union addedKept).eq_iff kept]
    exact ⟨fun changed => Finset.subset_union_left.ssubset_of_ne (Ne.symm changed),
      fun grew same => grew.ne same.symm⟩

/-! ## What is shown of a set -/

/-- What the questions to a set answer, if its members are those of a finite set. -/
structure ShowsMembers (members : Finset Symbol) (contains : Symbol → Bool) (size : Nat)
    (isEmpty : Bool) (listed : List Symbol) : Prop where
  /-- Membership is asked of the finite set. -/
  contains_iff : ∀ symbol, contains symbol = true ↔ symbol ∈ members
  /-- The size is the number of members. -/
  size_eq : size = members.card
  /-- Only the empty set is empty. -/
  isEmpty_iff : isEmpty = true ↔ members = ∅
  /-- The members are listed. -/
  mem_listed_iff : ∀ symbol, symbol ∈ listed ↔ symbol ∈ members
  /-- The list is in strictly ascending order. -/
  ascending : listed.Pairwise (·.index < ·.index)

theorem SymbolSet.HasMembers.shows {set : SymbolSet} {members : Finset Symbol}
    (kept : set.HasMembers members) :
    ShowsMembers members set.contains set.size set.isEmpty set.toList := by
  have listed : ∀ symbol, symbol ∈ set.toList ↔ symbol ∈ members := fun symbol =>
    kept.words.mem_toList.trans (kept.contains_iff symbol)
  have ascending := kept.words.pairwise_toList
  have none : SymbolSet.empty.HasMembers ∅ := SetForm.masks_follows_finite.empty
  refine ⟨kept.contains_iff, ?_, ?_, listed, ascending⟩
  · have distinct : set.toList.Nodup := ascending.imp fun {_ _} before same =>
      absurd (congrArg Symbol.index same) (Nat.ne_of_lt before)
    have same : set.toList.toFinset = members :=
      Finset.ext fun symbol => List.mem_toFinset.trans (listed symbol)
    rw [← same, List.toFinset_card_of_nodup distinct, toList, List.length_map, size]
  · rw [isEmpty, beq_iff_eq, ← kept.eq_iff none, empty, SymbolSet.mk.injEq]

theorem SymbolSlots.Fits.shows {row : SymbolSlots} (fits : row.Fits) {members : Finset Symbol}
    (kept : row.asSet.HasMembers members) :
    ShowsMembers members row.contains row.size row.isEmpty row.toList := by
  have contains : row.contains = row.asSet.contains := funext row.contains_eq
  rw [contains, fits.size_eq, row.isEmpty_eq, fits.toList_eq]
  exact kept.shows

/-- Sets of symbols are finite sets, as rows of words and as masks: calls that add symbols answer
whether the set grew, what is asked afterwards is answered for the members, and rows of any length
are equal, and hashed by the same words, if they have the same members. -/
theorem SetCall.histories_agree (calls : List SetCall) :
    let rows := SetForm.rows.history calls
    let masks := SetForm.masks.history calls
    let sets := SetForm.finite.history calls
    (rows.1 = sets.1 ∧ masks.1 = sets.1) ∧
      (∀ place, ShowsMembers (sets.2 place) (rows.2 place).contains (rows.2 place).size
        (rows.2 place).isEmpty (rows.2 place).toList) ∧
      (∀ place, ShowsMembers (sets.2 place) (masks.2 place).contains (masks.2 place).size
        (masks.2 place).isEmpty (masks.2 place).toList) ∧
      ∀ place other,
        ((rows.2 place == rows.2 other) = true ↔ sets.2 place = sets.2 other) ∧
        ((rows.2 place).significant = (rows.2 other).significant ↔
          sets.2 place = sets.2 other) ∧
        (masks.2 place = masks.2 other ↔ sets.2 place = sets.2 other) := by
  intro rows masks sets
  obtain ⟨rowAnswers, rowsLike⟩ := SetForm.rows_follows_masks.history calls
  obtain ⟨maskAnswers, kept⟩ := SetForm.masks_follows_finite.history calls
  have rowKept : ∀ place, (rows.2 place).asSet.HasMembers (sets.2 place) := fun place =>
    (rowsLike place).2 ▸ kept place
  have words : ∀ place other, (rows.2 place).significant = (rows.2 other).significant ↔
      sets.2 place = sets.2 other := fun place other =>
    SymbolSlots.significant_eq_iff.trans ((rowKept place).eq_iff (rowKept other))
  refine ⟨⟨rowAnswers.trans maskAnswers, maskAnswers⟩, fun place => ?_, fun place => ?_,
    fun place other => ⟨?_, words place other, ?_⟩⟩
  · exact (rowsLike place).1.shows (rowKept place)
  · exact (kept place).shows
  · exact Iff.trans (beq_iff_eq (α := List UInt64)) (words place other)
  · exact (kept place).eq_iff (kept other)

end IncrementalGlr
