import IncrementalGlr.Tree.Store

/-!
# Subtrees without identity

The parser compares subtrees by what they hold and never by their ids.  With all ids set to zero a
subtree is a plain tree, and `Id` is a monad in which such trees are made without any sharing.
-/

namespace IncrementalGlr

instance : SubtreeMaker Id where
  leaf := Subtree.ofLeaf 0
  newLeaf := Subtree.ofLeaf 0
  node := Subtree.ofChildren 0

namespace Subtree

mutual

/-- The subtree with all ids set to zero. -/
def erase : Subtree → Subtree
  | mk data children => mk { data with id := 0 } (eraseAll children)

/-- The subtrees with all ids set to zero. -/
def eraseAll : List Subtree → List Subtree
  | [] => []
  | child :: rest => child.erase :: eraseAll rest

end

theorem eraseAll_eq_map (subtrees : List Subtree) : eraseAll subtrees = subtrees.map erase := by
  induction subtrees with
  | nil => rfl
  | cons child rest induction => simp [eraseAll, induction]

/-- Only the id of a subtree's own data is erased. -/
theorem erase_data (subtree : Subtree) : subtree.erase.data = { subtree.data with id := 0 } := by
  cases subtree
  simp [erase, data]

@[simp]
theorem erase_children (subtree : Subtree) :
    subtree.erase.children = subtree.children.map erase := by
  cases subtree
  simp [erase, children, eraseAll_eq_map]

section Fields

variable (subtree : Subtree)

@[simp]
theorem erase_symbol : subtree.erase.symbol = subtree.symbol := by
  simp [symbol, erase_data]

@[simp]
theorem erase_length : subtree.erase.length = subtree.length := by
  simp [length, erase_data]

@[simp]
theorem erase_lookahead : subtree.erase.lookahead = subtree.lookahead := by
  simp [lookahead, erase_data]

@[simp]
theorem erase_extent : subtree.erase.extent = subtree.extent := by
  simp [extent]

@[simp]
theorem erase_parseState : subtree.erase.parseState = subtree.parseState := by
  simp [parseState, erase_data]

@[simp]
theorem erase_production : subtree.erase.production = subtree.production := by
  simp [production, erase_data]

@[simp]
theorem erase_errorCount : subtree.erase.errorCount = subtree.errorCount := by
  simp [errorCount, erase_data]

@[simp]
theorem erase_dynamicPrecedence :
    subtree.erase.dynamicPrecedence = subtree.dynamicPrecedence := by
  simp [dynamicPrecedence, erase_data]

@[simp]
theorem erase_firstLeaf : subtree.erase.firstLeaf = subtree.firstLeaf := by
  simp [firstLeaf, erase_data]

@[simp]
theorem erase_isLeaf : subtree.erase.isLeaf = subtree.isLeaf := by
  simp [isLeaf, erase_data]

@[simp]
theorem erase_isExtra : subtree.erase.isExtra = subtree.isExtra := by
  simp [isExtra, erase_data]

@[simp]
theorem erase_isError : subtree.erase.isError = subtree.isError := by
  simp [isError, erase_data]

@[simp]
theorem erase_hasChanges : subtree.erase.hasChanges = subtree.hasChanges := by
  simp [hasChanges, erase_data]

@[simp]
theorem erase_isFragile : subtree.erase.isFragile = subtree.isFragile := by
  simp [isFragile, erase_data]

@[simp]
theorem erase_isEmpty : subtree.erase.isEmpty = subtree.isEmpty := by
  simp [isEmpty]

@[simp]
theorem erase_hasError : subtree.erase.hasError = subtree.hasError := by
  simp [hasError]

@[simp]
theorem erase_storesErrors : subtree.erase.storesErrors = subtree.storesErrors := by
  rw [storesErrors, storedErrors, erase_errorCount]
  rfl

end Fields

@[simp]
theorem totalLength_map_erase (subtrees : List Subtree) :
    totalLength (subtrees.map erase) = totalLength subtrees := by
  simp [totalLength, Function.comp_def]

@[simp]
theorem extentEnd_map_erase (start : Nat) (subtrees : List Subtree) :
    extentEnd start (subtrees.map erase) = extentEnd start subtrees := by
  induction subtrees generalizing start with
  | nil => rfl
  | cons child rest induction => simp [extentEnd, induction]

@[simp]
theorem findSome?_firstLeaf_map_erase (subtrees : List Subtree) :
    (subtrees.map erase).findSome? firstLeaf = subtrees.findSome? firstLeaf := by
  induction subtrees with
  | nil => rfl
  | cons child rest induction => simp [List.findSome?_cons, induction]

@[simp]
theorem erase_ofLeaf (id : Nat) (spec : LeafSpec) : (ofLeaf id spec).erase = ofLeaf 0 spec := by
  simp [ofLeaf, erase, eraseAll]

@[simp]
theorem erase_ofChildren (id : Nat) (spec : NodeSpec) (children : List Subtree) :
    (ofChildren id spec children).erase = ofChildren 0 spec (children.map erase) := by
  have changes : (children.map erase).any hasChanges = children.any hasChanges := by
    simp [Function.comp_def]
  have errors : (children.map erase).map errorCount = children.map errorCount := by
    simp [Function.comp_def]
  have precedences : (children.map erase).map dynamicPrecedence =
      children.map dynamicPrecedence := by
    simp [Function.comp_def]
  simp only [ofChildren, erase, eraseAll_eq_map, changes, errors, precedences,
    totalLength_map_erase, extentEnd_map_erase, findSome?_firstLeaf_map_erase]

end Subtree

end IncrementalGlr
