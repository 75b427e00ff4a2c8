import IncrementalGlr.Proofs.Sharing.Memory

/-!
# Actions on a store and their mirror images

An action on a store mirrors one without a store if both give the same result up to ids, from every
valid store.  Making a subtree is such an action, and sequences of such actions are again.
-/

namespace IncrementalGlr

/-- Values that hold subtrees. -/
class Erasable (α : Type) where
  /-- The value with the ids of all subtrees set to zero. -/
  erase : α → α
  /-- Whether a memory knows all subtrees of the value. -/
  Known : Memory → α → Prop
  /-- A larger memory knows no less. -/
  mono {memory larger : Memory} {value : α} :
    Known memory value → larger.Extends memory → Known larger value

namespace Erasable

instance : Erasable Subtree where
  erase := Subtree.erase
  Known := Memory.Knows
  mono known extends_ := known.mono extends_

instance {α β : Type} [Erasable α] [Erasable β] : Erasable (α × β) where
  erase pair := (erase pair.1, erase pair.2)
  Known memory pair := Known memory pair.1 ∧ Known memory pair.2
  mono known extends_ := ⟨mono known.1 extends_, mono known.2 extends_⟩

instance {α : Type} [Erasable α] : Erasable (Option α) where
  erase := Option.map erase
  Known memory value := ∀ held ∈ value, Known memory held
  mono known extends_ := fun held member => mono (known held member) extends_

instance {α : Type} [Erasable α] : Erasable (List α) where
  erase := List.map erase
  Known memory values := ∀ held ∈ values, Known memory held
  mono known extends_ := fun held member => mono (known held member) extends_

section Simp

variable {α β : Type} [Erasable α] [Erasable β] {memory : Memory}

@[simp]
theorem erase_subtree (subtree : Subtree) : erase subtree = subtree.erase := rfl

@[simp]
theorem known_subtree {subtree : Subtree} : Known memory subtree ↔ memory.Knows subtree := Iff.rfl

@[simp]
theorem erase_pair (first : α) (second : β) : erase (first, second) = (erase first, erase second) :=
  rfl

@[simp]
theorem known_pair {first : α} {second : β} :
    Known memory (first, second) ↔ Known memory first ∧ Known memory second := Iff.rfl

@[simp]
theorem erase_none : erase (none : Option α) = none := rfl

@[simp]
theorem erase_some (value : α) : erase (some value) = some (erase value) := rfl

@[simp]
theorem known_none : Known memory (none : Option α) := by
  intro held member
  cases member

@[simp]
theorem known_some {value : α} : Known memory (some value) ↔ Known memory value := by
  constructor
  · exact fun known => known value rfl
  · rintro known held ⟨⟩
    exact known

theorem erase_list (values : List α) : erase values = values.map erase := rfl

theorem known_list {values : List α} : Known memory values ↔ ∀ held ∈ values, Known memory held :=
  Iff.rfl

@[simp]
theorem erase_nil : erase ([] : List α) = [] := rfl

@[simp]
theorem erase_cons (value : α) (rest : List α) :
    erase (value :: rest) = erase value :: erase rest := rfl

@[simp]
theorem erase_append (left right : List α) : erase (left ++ right) = erase left ++ erase right :=
  List.map_append

@[simp]
theorem known_nil : Known memory ([] : List α) := by
  intro held member
  cases member

@[simp]
theorem known_cons {value : α} {rest : List α} :
    Known memory (value :: rest) ↔ Known memory value ∧ Known memory rest := by
  simp [known_list]

@[simp]
theorem known_append {left right : List α} :
    Known memory (left ++ right) ↔ Known memory left ∧ Known memory right := by
  simp [known_list, or_imp, forall_and]

/-- Parts of a list hold no other subtrees. -/
theorem known_of_subset {left right : List α} (known : Known memory right)
    (subset : left ⊆ right) : Known memory left :=
  fun held member => known held (subset member)

end Simp

end Erasable

open Erasable

/-- Whether an action gives, from every valid store, the value of an action without a store up to
ids, and leaves a valid store. -/
def Mirrors {α : Type} [Erasable α] (memory : Memory) (action : StateM Store α)
    (image : Id α) : Prop :=
  ∀ store : Store, store.Valid memory →
    ∃ larger : Memory, larger.Extends memory ∧ (action store).2.Valid larger ∧
      Known larger (action store).1 ∧ erase (action store).1 = image

namespace Mirrors

variable {α β : Type} [Erasable α] [Erasable β] {memory : Memory}

protected theorem pure {value image : α} (known : Known memory value)
    (erased : erase value = image) : Mirrors memory (pure value) (pure image) :=
  fun _ valid => ⟨memory, .refl memory, valid, known, erased⟩

protected theorem bind {action : StateM Store α} {image : Id α} {next : α → StateM Store β}
    {nextImage : α → Id β} (first : Mirrors memory action image)
    (second : ∀ larger value, larger.Extends memory → Known larger value →
      Mirrors larger (next value) (nextImage (erase value))) :
    Mirrors memory (action >>= next) (image >>= nextImage) := by
  intro store valid
  obtain ⟨larger, grows, largerValid, known, erased⟩ := first store valid
  obtain ⟨largest, growsMore, rest⟩ :=
    second larger (action store).1 grows known (action store).2 largerValid
  refine ⟨largest, growsMore.trans grows, ?_⟩
  rw [erased] at rest
  exact rest

/-- A pure step after an action. -/
theorem andThen {action : StateM Store α} {image : Id α} {next nextImage : α → β}
    (first : Mirrors memory action image)
    (second : ∀ larger value, larger.Extends memory → Known larger value →
      Known larger (next value) ∧ erase (next value) = nextImage (erase value)) :
    Mirrors memory (action >>= fun value => pure (next value))
      (image >>= fun value => pure (nextImage value)) :=
  first.bind fun larger value grows known =>
    .pure (second larger value grows known).1 (second larger value grows known).2

/-- An action may rely on the children of known subtrees being known. -/
theorem ofClosed {action : StateM Store α} {image : Id α}
    (mirrors : (∀ subtree : Subtree, memory.Knows subtree → Known memory subtree.children) →
      Mirrors memory action image) : Mirrors memory action image :=
  fun store valid => mirrors (fun _ known => valid.closed known) store valid

theorem ite {condition : Prop} [Decidable condition] {left right : StateM Store α}
    {leftImage rightImage : Id α} (whenTrue : condition → Mirrors memory left leftImage)
    (whenFalse : ¬condition → Mirrors memory right rightImage) :
    Mirrors memory (if condition then left else right)
      (if condition then leftImage else rightImage) := by
  split
  · exact whenTrue ‹_›
  · exact whenFalse ‹_›

theorem mapM {γ : Type} {action : γ → StateM Store α} {image : γ → Id α} (values : List γ)
    (each : ∀ larger value, larger.Extends memory → Mirrors larger (action value) (image value)) :
    Mirrors memory (values.mapM action) (values.mapM image) := by
  induction values generalizing memory with
  | nil => exact .pure known_nil rfl
  | cons value rest induction =>
      simp only [List.mapM_cons]
      refine (each memory value (.refl memory)).bind fun larger first grows known => ?_
      have remaining : Mirrors larger (rest.mapM action) (rest.mapM image) :=
        induction fun largest other growsMore => each largest other (growsMore.trans grows)
      refine remaining.andThen fun largest others growsMore othersKnown => ⟨?_, rfl⟩
      exact known_cons.2 ⟨Erasable.mono known growsMore, othersKnown⟩

theorem foldlM {γ : Type} {action : α → γ → StateM Store α} {image : α → γ → Id α}
    (values : List γ) {start : α} (known : Known memory start)
    (each : ∀ larger current value, larger.Extends memory → Known larger current →
      Mirrors larger (action current value) (image (erase current) value)) :
    Mirrors memory (values.foldlM action start) (values.foldlM image (erase start)) := by
  induction values generalizing memory start with
  | nil => exact .pure known rfl
  | cons value rest induction =>
      simp only [List.foldlM_cons]
      refine (each memory start value (.refl memory) known).bind
        fun larger next grows nextKnown => ?_
      exact induction nextKnown fun largest current other growsMore currentKnown =>
        each largest current other (growsMore.trans grows) currentKnown

end Mirrors

namespace Store

variable {memory : Memory} {store : Store}

/-- A new token can be learned. -/
theorem Valid.newLeaf (valid : store.Valid memory) (spec : LeafSpec) :
    ∃ larger : Memory, larger.Extends memory ∧ (Store.newLeaf spec store).2.Valid larger ∧
      larger.Knows (Store.newLeaf spec store).1 :=
  ⟨memory.learn (.ofLeaf store.nextId spec), Memory.learn_extends (valid.unknown (Nat.le_refl _)),
    valid.learn rfl (by simp [Subtree.ofLeaf, Subtree.children]) fun _ => .inl ⟨spec, rfl⟩,
    Memory.knows_learn _ _⟩

/-- A new node above known subtrees can be learned. -/
theorem Valid.newNode (valid : store.Valid memory) (spec : NodeSpec) {children : List Subtree}
    (known : Known memory children) :
    ∃ larger : Memory, larger.Extends memory ∧
      (Store.newNode spec children store).2.Valid larger ∧
      larger.Knows (Store.newNode spec children store).1 :=
  ⟨memory.learn (.ofChildren store.nextId spec children),
    Memory.learn_extends (valid.unknown (Nat.le_refl _)),
    valid.learn rfl known fun _ => .inr ⟨spec, rfl⟩, Memory.knows_learn _ _⟩

theorem leaf_apply (spec : LeafSpec) (store : Store) :
    Store.leaf spec store =
      if (Store.newLeaf spec store).1.isError then Store.newLeaf spec store
      else Store.shareLeaf (Store.newLeaf spec store).1 (Store.newLeaf spec store).2 := by
  change (if (Store.newLeaf spec store).1.isError then pure (Store.newLeaf spec store).1
    else Store.shareLeaf (Store.newLeaf spec store).1 : StateM Store Subtree)
      (Store.newLeaf spec store).2 = _
  split <;> rfl

theorem node_apply (spec : NodeSpec) (children : List Subtree) (store : Store) :
    Store.node spec children store =
      if (Store.newNode spec children store).1.isError ||
          (Store.newNode spec children store).1.hasChanges ||
          Store.maxSharedChildren < children.length then Store.newNode spec children store
      else Store.shareNode (Store.newNode spec children store).1
        (Store.newNode spec children store).2 := by
  change (if (Store.newNode spec children store).1.isError ||
      (Store.newNode spec children store).1.hasChanges ||
      Store.maxSharedChildren < children.length then pure (Store.newNode spec children store).1
    else Store.shareNode (Store.newNode spec children store).1 : StateM Store Subtree)
      (Store.newNode spec children store).2 = _
  split <;> rfl

end Store

/-- A token of its own is the token without an id. -/
theorem mirrors_newLeaf (memory : Memory) (spec : LeafSpec) :
    Mirrors memory (SubtreeMaker.newLeaf spec) (SubtreeMaker.newLeaf spec) := by
  intro store valid
  obtain ⟨larger, grows, largerValid, known⟩ := valid.newLeaf spec
  exact ⟨larger, grows, largerValid, known, Subtree.erase_ofLeaf store.nextId spec⟩

/-- A shared token is the token without an id. -/
theorem mirrors_leaf (memory : Memory) (spec : LeafSpec) :
    Mirrors memory (SubtreeMaker.leaf spec) (SubtreeMaker.leaf spec) := by
  intro store valid
  obtain ⟨larger, grows, largerValid, known⟩ := valid.newLeaf spec
  have isLeaf : (Store.newLeaf spec store).1.isLeaf = true := rfl
  have unchanged : (Store.newLeaf spec store).1.hasChanges = false := rfl
  have erased : (Store.newLeaf spec store).1.erase = Subtree.ofLeaf 0 spec :=
    Subtree.erase_ofLeaf _ spec
  change ∃ larger : Memory, larger.Extends memory ∧ (Store.leaf spec store).2.Valid larger ∧
    larger.Knows (Store.leaf spec store).1 ∧
      (Store.leaf spec store).1.erase = Subtree.ofLeaf 0 spec
  rw [Store.leaf_apply]
  split
  · exact ⟨larger, grows, largerValid, known, erased⟩
  · obtain ⟨sharedValid, sharedKnown, sharedLeaf, sharedUnchanged, sameKey⟩ :=
      largerValid.shareLeaf known isLeaf unchanged
    refine ⟨larger, grows, sharedValid, sharedKnown, ?_⟩
    rw [Subtree.erase_eq_of_leafKey (largerValid.original sharedKnown sharedUnchanged)
      (largerValid.original known unchanged) sharedLeaf isLeaf sameKey]
    exact erased

/-- A shared node is the node without an id above the subtrees without ids. -/
theorem mirrors_node (memory : Memory) (spec : NodeSpec) {children : List Subtree}
    (childrenKnown : Known memory children) :
    Mirrors memory (SubtreeMaker.node spec children)
      (SubtreeMaker.node spec (erase children)) := by
  intro store valid
  obtain ⟨larger, grows, largerValid, known⟩ := valid.newNode spec childrenKnown
  have isNode : (Store.newNode spec children store).1.isLeaf = false := rfl
  have erased : (Store.newNode spec children store).1.erase =
      Subtree.ofChildren 0 spec (erase children) := Subtree.erase_ofChildren _ spec children
  change ∃ larger : Memory, larger.Extends memory ∧
    (Store.node spec children store).2.Valid larger ∧
      larger.Knows (Store.node spec children store).1 ∧
        (Store.node spec children store).1.erase = Subtree.ofChildren 0 spec (erase children)
  rw [Store.node_apply]
  split
  · exact ⟨larger, grows, largerValid, known, erased⟩
  · next notAlone =>
      have unchanged : (Store.newNode spec children store).1.hasChanges = false := by
        simp only [Bool.or_eq_true, not_or, Bool.not_eq_true] at notAlone
        exact notAlone.1.2
      obtain ⟨sharedValid, sharedKnown, sharedNode, sharedUnchanged, sameKey⟩ :=
        largerValid.shareNode known isNode unchanged
      refine ⟨larger, grows, sharedValid, sharedKnown, ?_⟩
      rw [Subtree.erase_eq_of_nodeKey
        (largerValid.original sharedKnown sharedUnchanged) (largerValid.original known unchanged)
        sharedNode isNode (largerValid.closed sharedKnown) (largerValid.closed known) sameKey]
      exact erased

end IncrementalGlr
