import IncrementalGlr.Proofs.Sharing.Mirror
import IncrementalGlr.Tree.Edit

/-!
# Edits without identity

The changed copies that an edit makes get new ids, so a store stays valid, and up to ids they are
what the edit makes of a tree without ids.
-/

namespace IncrementalGlr

open Erasable

namespace Subtree

mutual

/-- The changed copy of a subtree without ids. -/
def plainEdit (map : EditMap) (start : Nat) : Subtree → Subtree
  | mk data children =>
    let length := map.newLength start (start + data.length)
    if data.flags.leaf then (mk data children).resized 0 length
    else (mk data children).rebuilt 0 length (plainEditAll map start children)

/-- The subtrees of a list after an edit, without ids. -/
def plainEditAll (map : EditMap) (start : Nat) : List Subtree → List Subtree
  | [] => []
  | child :: rest =>
    (if map.isUntouched start (start + child.length) child.lookahead then child
      else plainEdit map start child) :: plainEditAll map (start + child.length) rest

end

/-- The tree without ids after an edit. -/
def afterEdit (edit : Edit) (root : Subtree) : Subtree :=
  plainEdit (.ofEdit edit root.length) 0 root

end Subtree

namespace EditProgress

/-- Whether a store is valid for a memory in the course of an edit, and the tokens that the edit has
touched are known. -/
structure Valid (memory : Memory) (store : Store) (progress : EditProgress) : Prop where
  /-- The store is valid with the next id of the edit. -/
  store : Store.Valid memory { store with nextId := progress.nextId }
  /-- The displaced subtrees are unchanged tokens. -/
  displaced : ∀ leaf ∈ progress.displaced,
    memory.Knows leaf ∧ leaf.isLeaf = true ∧ leaf.hasChanges = false

variable {memory : Memory} {store : Store} {progress : EditProgress}

theorem Valid.mono {larger : Memory} {nextId : Nat} (valid : progress.Valid memory store)
    (grows : larger.Extends memory) (storeValid : Store.Valid larger { store with nextId }) :
    Valid larger store { progress with nextId } :=
  ⟨storeValid, fun leaf member =>
    ⟨(valid.displaced leaf member).1.mono grows, (valid.displaced leaf member).2⟩⟩

theorem Valid.displace (valid : progress.Valid memory store) {leaf : Subtree}
    (known : memory.Knows leaf) (isLeaf : leaf.isLeaf = true) :
    (EditProgress.displace leaf progress).2.Valid memory store := by
  unfold EditProgress.displace
  by_cases changed : leaf.hasChanges = true
  · simpa [changed] using valid
  · simp only [changed]
    refine ⟨valid.store, fun other member => ?_⟩
    rcases List.mem_cons.1 member with rfl | older
    · exact ⟨known, isLeaf, by simpa using changed⟩
    · exact valid.displaced other older

end EditProgress

namespace Subtree

variable {store : Store}

theorem erase_resized (subtree : Subtree) (id length : Nat) :
    (subtree.resized id length).erase = subtree.erase.resized 0 length := by
  simp [resized, erase, eraseAll, erase_data]

theorem erase_rebuilt (subtree : Subtree) (id length : Nat) (children : List Subtree) :
    (subtree.rebuilt id length children).erase =
      subtree.erase.rebuilt 0 length (children.map erase) := by
  simp [rebuilt, erase, eraseAll_eq_map, erase_data]

/-- Whether an action of an edit leaves a valid store and gives a known value that is `image` up to
ids. -/
def Edits {α : Type} [Erasable α] (memory : Memory) (store : Store) (image : α)
    (outcome : α × EditProgress) : Prop :=
  ∃ larger : Memory, larger.Extends memory ∧ outcome.2.Valid larger store ∧
    Known larger outcome.1 ∧ Erasable.erase outcome.1 = image

/-- A changed copy with a new id can be learned. -/
theorem edits_copy {memory : Memory} {progress : EditProgress} {copy image : Subtree}
    (valid : progress.Valid memory store) (fresh : copy.id = progress.nextId)
    (children : Known memory copy.children) (changed : copy.hasChanges = true)
    (erased : copy.erase = image) :
    Edits memory store image (copy, { progress with nextId := progress.nextId + 1 }) := by
  have unknown : memory.subtree? copy.id = none := valid.store.unknown fresh.ge
  have learned := valid.store.learn fresh children fun unchanged => by
    rw [changed] at unchanged
    cases unchanged
  exact ⟨memory.learn copy, Memory.learn_extends unknown,
    valid.mono (Memory.learn_extends unknown) learned, Memory.knows_learn memory copy, erased⟩

mutual

theorem editChanged_valid (map : EditMap) (start : Nat) {subtree : Subtree} {memory : Memory}
    {progress : EditProgress} (known : memory.Knows subtree)
    (valid : progress.Valid memory store) :
    Edits memory store (plainEdit map start subtree.erase)
      (editChanged map start subtree progress) := by
  cases subtree with
  | mk data children =>
      by_cases isLeaf : data.flags.leaf = true
      · have displaced := valid.displace known isLeaf
        have image : plainEdit map start (mk data children).erase =
            (mk data children).erase.resized 0 (map.newLength start (start + data.length)) := by
          rw [erase, plainEdit]
          simp [isLeaf]
        rw [editChanged, image]
        simp only [isLeaf, if_true]
        exact edits_copy displaced rfl known_nil rfl (erase_resized _ _ _)
      · have image : plainEdit map start (mk data children).erase =
            (mk data children).erase.rebuilt 0 (map.newLength start (start + data.length))
              (plainEditAll map start (children.map erase)) := by
          rw [erase, plainEdit, eraseAll_eq_map]
          simp [isLeaf]
        obtain ⟨larger, grows, editedValid, editedKnown, erased⟩ :=
          editAll_valid map start (valid.store.closed known) valid
        have copied : Edits larger store _
            ((mk data children).rebuilt (editAll map start children progress).2.nextId
              (map.newLength start (start + data.length)) (editAll map start children progress).1,
              { (editAll map start children progress).2 with
                nextId := (editAll map start children progress).2.nextId + 1 }) :=
          edits_copy editedValid rfl editedKnown rfl (erase_rebuilt _ _ _ _)
        obtain ⟨largest, growsMore, rest⟩ := copied
        have erasedAll : (editAll map start children progress).1.map erase =
            plainEditAll map start (children.map erase) := erased
        rw [erasedAll] at rest
        rw [editChanged, image, if_neg isLeaf]
        exact ⟨largest, growsMore.trans grows, rest⟩

theorem editAll_valid (map : EditMap) (start : Nat) {subtrees : List Subtree} {memory : Memory}
    {progress : EditProgress} (known : Known memory subtrees)
    (valid : progress.Valid memory store) :
    Edits memory store (plainEditAll map start (Erasable.erase subtrees))
      (editAll map start subtrees progress) := by
  cases subtrees with
  | nil => exact ⟨memory, .refl memory, valid, known_nil, rfl⟩
  | cons child rest =>
      obtain ⟨childKnown, restKnown⟩ := known_cons.1 known
      have followed : ∀ {larger : Memory} {first : Subtree} {progress : EditProgress},
          larger.Extends memory → progress.Valid larger store → larger.Knows first →
          Edits memory store
            (first.erase :: plainEditAll map (start + child.length) (Erasable.erase rest))
            (first :: (editAll map (start + child.length) rest progress).1,
              (editAll map (start + child.length) rest progress).2) := by
        intro larger first progress grows firstValid firstKnown
        obtain ⟨largest, growsMore, restValid, othersKnown, erased⟩ :=
          editAll_valid map (start + child.length) (Erasable.mono restKnown grows) firstValid
        exact ⟨largest, growsMore.trans grows, restValid,
          known_cons.2 ⟨Erasable.mono firstKnown growsMore, othersKnown⟩,
          congrArg (first.erase :: ·) erased⟩
      have image : plainEditAll map start (Erasable.erase (child :: rest)) =
          (if map.isUntouched start (start + child.length) child.lookahead then child.erase
            else plainEdit map start child.erase) ::
              plainEditAll map (start + child.length) (Erasable.erase rest) := by
        rw [erase_cons, plainEditAll]
        simp
      by_cases untouched : map.isUntouched start (start + child.length) child.lookahead = true
      · rw [image, editAll, if_pos untouched, if_pos untouched]
        exact followed (.refl memory) valid childKnown
      · obtain ⟨larger, grows, firstValid, firstKnown, erased⟩ :=
          editChanged_valid map start childKnown valid
        rw [image, editAll, if_neg untouched, if_neg untouched, ← erased]
        exact followed grows firstValid firstKnown

end

end Subtree

namespace SyntaxTree

/-- An edited tree is known to a larger memory, for which the store is valid once it skips the ids
of the edit; the tokens that the edit displaced are known and unchanged. -/
theorem edit_valid {memory : Memory} {store : Store} (valid : store.Valid memory)
    {tree : SyntaxTree} (known : memory.Knows tree.root) (edit : Edit) :
    ∃ larger : Memory, larger.Extends memory ∧
      Store.Valid larger { store with nextId := (tree.edit edit store.nextId).2.2 } ∧
      larger.Knows (tree.edit edit store.nextId).1.root ∧
      (tree.edit edit store.nextId).1.root.erase = tree.root.erase.afterEdit edit ∧
      ∀ leaf ∈ (tree.edit edit store.nextId).2.1,
        larger.Knows leaf ∧ leaf.isLeaf = true ∧ leaf.hasChanges = false := by
  have start : EditProgress.Valid memory store ⟨store.nextId, []⟩ :=
    ⟨valid, fun leaf member => absurd member List.not_mem_nil⟩
  obtain ⟨larger, grows, editedValid, editedKnown, erased⟩ :=
    Subtree.editChanged_valid (.ofEdit edit tree.length) 0 known start
  refine ⟨larger, grows, editedValid.store, editedKnown, ?_, ?_⟩
  · rw [Subtree.afterEdit, Subtree.erase_length]
    exact erased
  · intro leaf member
    exact editedValid.displaced leaf (List.mem_reverse.1 member)

end SyntaxTree

namespace Store

variable {memory : Memory} {store : Store}

theorem Valid.seed (valid : store.Valid memory) {subtree : Subtree}
    (known : memory.Knows subtree) : (Store.seed subtree store).Valid memory := by
  unfold Store.seed
  split
  · next unchangedLeaf =>
      simp only [Bool.and_eq_true, Bool.not_eq_eq_eq_not, Bool.not_true] at unchangedLeaf
      exact (valid.shareLeaf known unchangedLeaf.1.1 unchangedLeaf.2).1
  · exact valid

theorem Valid.seedAll (valid : store.Valid memory) {subtrees : List Subtree}
    (known : ∀ subtree ∈ subtrees, memory.Knows subtree) :
    (Store.seedAll subtrees store).Valid memory := by
  unfold Store.seedAll
  induction subtrees generalizing store with
  | nil => exact valid
  | cons subtree rest induction =>
      exact induction (valid.seed (known subtree List.mem_cons_self))
        fun other member => known other (List.mem_cons_of_mem subtree member)

end Store

end IncrementalGlr
