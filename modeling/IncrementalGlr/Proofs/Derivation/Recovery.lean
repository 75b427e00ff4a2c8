import IncrementalGlr.Proofs.Coverage.Recovery
import IncrementalGlr.Proofs.Derivation.Stack
import IncrementalGlr.Proofs.Moves
import IncrementalGlr.Proofs.StackContents
import Mathlib.Data.List.TakeWhile

/-!
# Recovery keeps to the path

Recovery cuts a stack off and puts only extras on what is left, each with the state that is already
at the top.  What survives both holds of the stack on which parsing goes on.  So the states still
form a path from the start state.
-/

namespace IncrementalGlr

/-! ## Stacks after a recovery -/

namespace ParseStack

/-- Whether a property of stacks and one of the subtrees on them survive that a stack is cut off and
that an extra is put on it. -/
structure KeptInRecovery (grammar : Grammar) (holds : ParseStack → Prop) (part : Subtree → Prop) :
    Prop where
  /-- The subtrees on a stack have their property. -/
  parts {stack : ParseStack} : holds stack → ∀ subtree ∈ stack.subtrees, part subtree
  /-- A stack may be cut off. -/
  drop {stack : ParseStack} (count : Nat) : holds stack → holds (stack.drop count)
  /-- An extra may be put on a stack. -/
  extra {stack : ParseStack} {subtree : Subtree} :
    holds stack → subtree.isExtra = true → part subtree → holds (⟨stack.state, subtree⟩ :: stack)
  /-- Tokens have the property. -/
  leaf (spec : LeafSpec) : part (.ofLeaf 0 spec)
  /-- An error has the property if what it covers has it. -/
  errorNode {children : List Subtree} :
    (∀ child ∈ children, part child) → part (Recovery.errorNode (m := Id) grammar children)

namespace KeptInRecovery

variable {grammar : Grammar} {holds : ParseStack → Prop} {part : Subtree → Prop}
  (kept : KeptInRecovery grammar holds part) {version : Version}

include kept

theorem pushAll {stack : ParseStack} (good : holds stack) {subtrees : List Subtree}
    (extras : ∀ subtree ∈ subtrees, subtree.isExtra = true)
    (parts : ∀ subtree ∈ subtrees, part subtree) :
    holds (stack.pushAll stack.state subtrees) := by
  induction subtrees generalizing stack with
  | nil => exact good
  | cons subtree rest induction =>
      obtain ⟨firstExtra, otherExtras⟩ := List.forall_mem_cons.1 extras
      obtain ⟨first, others⟩ := List.forall_mem_cons.1 parts
      exact induction (kept.extra good firstExtra first) otherExtras others

theorem errorLeaves (state : StateId) (tokens : List Token) :
    ∀ leaf ∈ tokens.map (Recovery.plainErrorLeaf grammar state), part leaf := by
  intro leaf member
  obtain ⟨token, -, rfl⟩ := List.mem_map.1 member
  exact kept.leaf _

/-- An error is an extra, whether it is put on the stack or takes in the error at the top. -/
theorem pushError (good : holds version.stack) {children : List Subtree}
    (parts : ∀ child ∈ children, part child) :
    holds (Version.stack (Recovery.pushError (m := Id) grammar version children)) := by
  obtain ⟨stack, position, lookahead, path⟩ := version
  cases children with
  | nil => exact good
  | cons child rest =>
      have pushed : holds (⟨ParseStack.state stack,
          Recovery.errorNode (m := Id) grammar (child :: rest)⟩ :: stack) :=
        kept.extra good rfl (kept.errorNode parts)
      cases stack with
      | nil => exact pushed
      | cons entry below =>
          unfold Recovery.pushError
          dsimp only
          rw [if_neg (by simp)]
          split
          · have top : part entry.subtree := by
              refine kept.parts good _ ?_
              rw [subtrees_cons]
              exact List.mem_append_right _ (List.mem_singleton_self _)
            exact kept.extra (kept.drop 1 good) rfl
              (kept.errorNode (List.forall_mem_cons.2 ⟨top, parts⟩))
          · exact pushed

theorem pushExtras (good : holds version.stack) (tokens : List Token) :
    holds (Version.stack (tokens.foldlM (Recovery.pushExtra (m := Id) grammar) version)) := by
  induction tokens generalizing version with
  | nil => exact good
  | cons token rest induction =>
      have pushed : holds (Version.stack (Recovery.pushExtra (m := Id) grammar version token)) :=
        kept.extra good rfl (kept.leaf _)
      exact induction pushed

/-- The stack on which parsing goes on at a later token or with fewer subtrees. -/
theorem resume (good : holds version.stack) (window : List Token) (resumption : Resume)
    (token : Token) :
    holds (Version.stack
      (Recovery.resume (m := Id) grammar version window resumption token)) := by
  have popped : ∀ subtree ∈ ParseStack.subtrees (version.stack.take resumption.popped),
      part subtree := by
    intro subtree member
    refine kept.parts good subtree ?_
    rw [← version.stack.subtrees_take_drop resumption.popped]
    exact List.mem_append_right _ member
  have surrounded := kept.pushAll (kept.drop resumption.popped good)
    (fun subtree member => List.mem_takeWhile_imp member)
    fun subtree member => popped subtree ((List.takeWhile_prefix Subtree.isExtra).subset member)
  unfold Recovery.resume
  simp only [Recovery.mapM_errorLeaf]
  generalize ((window.take resumption.skipped).reverse.dropWhile fun token : Token =>
    !token.isError && grammar.isExtra token.symbol).reverse = inside
  have content : ∀ subtree ∈
      (ParseStack.subtrees (version.stack.take resumption.popped)).dropWhile Subtree.isExtra ++
        inside.map (Recovery.plainErrorLeaf grammar
          (ParseStack.state (version.stack.drop resumption.popped))),
      part subtree :=
    List.forall_mem_append.2 ⟨fun subtree member =>
      popped subtree ((List.dropWhile_suffix _).subset member), kept.errorLeaves _ _⟩
  have wrapped := @pushError grammar holds part kept { version with stack := _ } surrounded _ content
  exact kept.pushExtras wrapped _

/-- The stack after a token has been skipped. -/
theorem skipToken (good : holds version.stack) (token : Token) :
    holds (Version.stack (Recovery.skipToken (m := Id) grammar version token)) :=
  kept.pushError good (List.forall_mem_singleton.2 (kept.leaf _))

end KeptInRecovery

end ParseStack

/-! ## Paths -/

variable {grammar : Grammar} {plain : PlainGrammar} {items : StateId → Lalr.Item → Prop}

namespace ParseStack

/-- Whether the states on a stack form a path and the subtrees on it are derived. -/
structure Derives (plain : PlainGrammar) (items : StateId → Lalr.Item → Prop)
    (stack : ParseStack) : Prop where
  /-- The path. -/
  path : stack.Spells plain items
  /-- The subtrees. -/
  derived : ∀ subtree ∈ stack.subtrees, subtree.Derived plain

variable {stack : ParseStack}

theorem derives_nil : Derives plain items [] := ⟨.nil, fun _ never => absurd never List.not_mem_nil⟩

theorem Derives.push (derives : stack.Derives plain items) {state : StateId} {subtree : Subtree}
    (path : Spells plain items (⟨state, subtree⟩ :: stack)) (derived : subtree.Derived plain) :
    Derives plain items (⟨state, subtree⟩ :: stack) := by
  refine ⟨path, fun other member => ?_⟩
  rw [subtrees_cons] at member
  rcases List.mem_append.1 member with before | top
  · exact derives.derived other before
  · exact List.mem_singleton.1 top ▸ derived

theorem Derives.extra (derives : stack.Derives plain items) {subtree : Subtree}
    (isExtra : subtree.isExtra = true) (derived : subtree.Derived plain) :
    Derives plain items (⟨stack.state, subtree⟩ :: stack) :=
  derives.push (derives.path.extra isExtra) derived

theorem Derives.drop (derives : stack.Derives plain items) (count : Nat) :
    ParseStack.Derives plain items (stack.drop count) := by
  refine ⟨derives.path.drop count, fun subtree member => derives.derived subtree ?_⟩
  rw [← stack.subtrees_take_drop count]
  exact List.mem_append_left _ member

end ParseStack

namespace Recovery

variable {version : Version}

theorem derived_flatten {subtrees : List Subtree}
    (derived : ∀ subtree ∈ subtrees, subtree.Derived plain) :
    ∀ child ∈ flatten subtrees, child.Derived plain := by
  intro child member
  obtain ⟨subtree, subtreeMember, inside⟩ := List.mem_flatMap.1 member
  split at inside
  · exact (derived subtree subtreeMember).child child inside
  · exact List.mem_singleton.1 inside ▸ derived subtree subtreeMember

theorem derived_errorNode {children : List Subtree}
    (derived : ∀ child ∈ children, child.Derived plain) :
    Subtree.Derived plain (errorNode (m := Id) grammar children) :=
  Subtree.derived_ofChildren rfl (derived_flatten derived)

/-- A path stays one when it is cut off and when extras are put on it. -/
theorem derives_kept :
    ParseStack.KeptInRecovery grammar (ParseStack.Derives plain items) (Subtree.Derived plain) where
  parts derives := derives.derived
  drop count derives := derives.drop count
  extra derives isExtra derived := derives.extra isExtra derived
  leaf spec := Subtree.derived_ofLeaf spec
  errorNode derived := derived_errorNode derived

/-- The tree of a version that goes nowhere is derived. -/
theorem giveUp_derived (derives : version.stack.Derives plain items) (window : List Token) :
    (Finished.root (giveUp (m := Id) grammar version window)).Derived plain := by
  have leaves := (@derives_kept grammar plain items).errorLeaves
  have content : ∀ subtree ∈ remains grammar version window, subtree.Derived plain :=
    List.forall_mem_append.2 ⟨derives.derived, leaves _ _⟩
  rw [giveUp_root]
  refine Subtree.derived_ofChildren rfl fun child member => ?_
  rcases List.mem_append.1 member with leading | last
  · exact content child ((List.takeWhile_prefix Subtree.isExtra).subset leading)
  · obtain rfl := List.mem_singleton.1 last
    unfold wrapped
    split
    · exact Subtree.derived_ofLeaf _
    · exact derived_errorNode fun subtree inside =>
        content subtree ((List.dropWhile_suffix _).subset inside)

end Recovery

end IncrementalGlr
