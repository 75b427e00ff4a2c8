import IncrementalGlr.Proofs.Errors.Merged
import IncrementalGlr.Proofs.Made
import IncrementalGlr.Proofs.Table.Loaded
import Mathlib.Data.List.TakeWhile

/-!
# Recovery merges errors

An error that is put on a stack takes in the error below it, so error nodes stand apart on every
stack.  Giving up leaves the extras at the start outside, and the last of them may be an error.
What is taken over from an earlier tree has no errors at all.
-/

namespace IncrementalGlr

/-- Whether the error symbol is kept apart from all symbols of a grammar. -/
structure Grammar.ErrorReserved (grammar : Grammar) : Prop where
  /-- It is not an extra. -/
  extra : grammar.isExtra .error = false
  /-- No production has it on its left. -/
  reduce {state : StateId} {symbol : Symbol} {production : ProductionId} :
    .reduce production ∈ grammar.actions state symbol → (grammar.production production).lhs ≠ .error

theorem Symbol.index_error : Symbol.error.index = 65535 := rfl

theorem Grammar.IsLoaded.isNonterminal_error {grammar : Grammar} (loaded : grammar.IsLoaded) :
    grammar.data.isNonterminal .error = false := by
  have count := loaded.sound.symbolCount
  rw [GrammarData.isNonterminal, Bool.and_eq_false_iff, decide_eq_false_iff_not,
    decide_eq_false_iff_not, Symbol.index_error]
  omega

theorem Grammar.IsLoaded.errorReserved {grammar : Grammar} (loaded : grammar.IsLoaded) :
    grammar.ErrorReserved := by
  have count := loaded.sound.symbolCount
  refine ⟨?_, fun member error => ?_⟩
  · have beyond : grammar.symbols[Symbol.error.index]? = none := by
      rw [loaded.symbols, List.getElem?_toArray, Symbol.index_error]
      exact List.getElem?_eq_none (by omega)
    rw [isExtra, symbolInfo?, beyond]
    rfl
  · have nonterminal := loaded.sound.productions _ (List.mem_of_getElem? (loaded.reduce_listed member))
    rw [error, loaded.isNonterminal_error] at nonterminal
    cases nonterminal

/-- No state has an action on the error symbol. -/
theorem Grammar.actions_error (grammar : Grammar) (state : StateId) :
    grammar.actions state .error = [] := by
  have small := grammar.data.terminalCount.toNat_lt
  rw [actions, if_pos]
  rw [terminalCount, Symbol.index_error]
  omega

namespace Subtree

/-- Whether subtrees may stand on a stack one after the other. -/
structure Row (subtrees : List Subtree) : Prop where
  /-- They are merged. -/
  merged : ∀ subtree ∈ subtrees, subtree.Merged
  /-- Tokens among them are no errors. -/
  tokens : ∀ subtree ∈ subtrees, subtree.isError = true → subtree.isLeaf = false
  /-- Error nodes among them stand apart. -/
  apart : Apart subtrees

variable {subtree : Subtree} {subtrees front back : List Subtree}

theorem row_nil : Row [] :=
  ⟨List.forall_mem_nil _, List.forall_mem_nil _, .nil⟩

theorem Row.part {part : List Subtree} (row : Row subtrees) (inside : part <:+: subtrees) :
    Row part :=
  ⟨fun subtree member => row.merged subtree (inside.subset member),
    fun subtree member => row.tokens subtree (inside.subset member), row.apart.infix inside⟩

theorem Row.append (before : Row front) (behind : Row back)
    (meet : ∀ last ∈ front.getLast?, ∀ first ∈ back.head?,
      ¬ (last.IsErrorNode ∧ first.IsErrorNode)) : Row (front ++ back) :=
  ⟨fun subtree member => (List.mem_append.1 member).elim (before.merged subtree)
      (behind.merged subtree),
    fun subtree member => (List.mem_append.1 member).elim (before.tokens subtree)
      (behind.tokens subtree),
    List.isChain_append.2 ⟨before.apart, behind.apart, meet⟩⟩

theorem row_singleton (merged : subtree.Merged)
    (tokens : subtree.isError = true → subtree.isLeaf = false) : Row [subtree] :=
  ⟨List.forall_mem_singleton.2 merged, List.forall_mem_singleton.2 tokens, .singleton _⟩

/-- Whatever is no error may be put on a stack. -/
theorem Row.concat (row : Row subtrees) (merged : subtree.Merged)
    (correct : subtree.isError = false) : Row (subtrees ++ [subtree]) := by
  refine row.append (row_singleton merged fun error => absurd error (by simp [correct])) ?_
  rintro last - first ⟨⟩ both
  exact not_isErrorNode_of_isError_eq_false correct both.2

end Subtree

/-- Whether a lookahead is a token or a part of an earlier tree without errors. -/
def Lookahead.Correct : Lookahead → Prop
  | .token _ _ => True
  | .reused part => part.Merged ∧ part.isError = false

/-- Whether error nodes stand apart on the stack of a version. -/
structure Version.KeepsApart (version : Version) : Prop where
  /-- The subtrees on the stack. -/
  stack : Subtree.Row version.stack.subtrees
  /-- What comes next. -/
  lookahead : ∀ lookahead ∈ version.lookahead, lookahead.Correct

/-- Whether an earlier tree offers only parts in which errors are merged. -/
def ReuseCursor.Merged (cursor : ReuseCursor) : Prop :=
  ∀ node ∈ cursor.pending, node.subtree.RootMerged

namespace ReuseCursor

variable {cursor : ReuseCursor}

theorem Merged.later {other : ReuseCursor} (merged : cursor.Merged) (after : cursor.Later other) :
    other.Merged :=
  Each.later merged (fun own child member => (own.under child member).root) after

/-- What is taken over from an earlier tree has no errors. -/
theorem Merged.correct (merged : cursor.Merged) {position : Nat} {subtree : Subtree}
    (found : cursor.candidate? position = some subtree) (usable : subtree.isReusable = true) :
    Lookahead.Correct (.reused subtree) := by
  have part : subtree.RootMerged := Each.candidate merged found
  refine part.merged ?_
  simp only [Subtree.isReusable, Bool.and_eq_true, Bool.not_eq_true'] at usable
  exact usable.1.1.1.2

end ReuseCursor

namespace Recovery

variable {grammar : Grammar} {version : Version} {children : List Subtree}

theorem merged_errorLeaves (state : StateId) (tokens : List Token) :
    ∀ leaf ∈ tokens.map (plainErrorLeaf grammar state), leaf.Merged :=
  List.forall_mem_map.2 fun _ _ => Subtree.merged_ofLeaf _

theorem flatten_merged (merged : ∀ child ∈ children, child.Merged) :
    ∀ part ∈ flatten children, part.Merged ∧ ¬ part.IsErrorNode := by
  intro part member
  obtain ⟨child, childMember, inside⟩ := List.mem_flatMap.1 member
  have childMerged := merged child childMember
  split at inside
  · next error =>
      rw [Bool.and_eq_true, Bool.not_eq_true'] at error
      exact ⟨childMerged.under part inside, childMerged.here.flat error part inside⟩
  · next error =>
      obtain rfl := List.mem_singleton.1 inside
      rw [Bool.and_eq_true, Bool.not_eq_true'] at error
      exact ⟨childMerged, error⟩

/-- Error nodes do not nest. -/
theorem merged_errorNode (merged : ∀ child ∈ children, child.Merged) :
    (errorNode (m := Id) grammar children).Merged := by
  have parts := flatten_merged merged
  exact .mk (Subtree.sealed_of_none (fun part member => (parts part member).2) (fun _ => rfl)
    (Subtree.counted_ofChildren _ _)) fun part member => (parts part member).1

/-- An error takes in the one below it. -/
theorem pushError_row (row : Subtree.Row version.stack.subtrees)
    (merged : ∀ child ∈ children, child.Merged) :
    Subtree.Row (ParseStack.subtrees (Version.stack (pushError (m := Id) grammar version children)))
    := by
  obtain ⟨stack, position, lookahead, path⟩ := version
  have error := fun (inside : List Subtree) (each : ∀ child ∈ inside, child.Merged) =>
    Subtree.row_singleton (@merged_errorNode grammar _ each) fun _ => rfl
  cases children with
  | nil => exact row
  | cons child rest =>
      cases stack with
      | nil => exact error _ merged
      | cons entry below =>
          simp only [ParseStack.subtrees_cons] at row
          unfold pushError
          dsimp only
          rw [if_neg (by simp)]
          split
          · next top =>
              -- The error below stands apart from what is under it, and so does the one above both.
              have taken := row.merged _ (List.mem_append_right _ (List.mem_singleton_self _))
              have node : entry.subtree.IsErrorNode := ⟨top,
                row.tokens _ (List.mem_append_right _ (List.mem_singleton_self _)) top⟩
              refine (ParseStack.subtrees_cons below _).symm ▸
                (row.part (List.prefix_append ..).isInfix).append
                  (error _ (List.forall_mem_cons.2 ⟨taken, merged⟩)) ?_
              rintro last member first - both
              exact (List.isChain_append.1 row.apart).2.2 last member _ rfl ⟨both.1, node⟩
          · next top =>
              refine (ParseStack.subtrees_cons _ _).symm ▸ Subtree.Row.append ?_ (error _ merged) ?_
              · rw [ParseStack.subtrees_cons]
                exact row
              · rintro last member first - both
                rw [ParseStack.subtrees_cons, List.getLast?_concat] at member
                cases member
                exact top both.1.1

/-- Extras that are put on a stack are no errors. -/
theorem pushExtras_row (reserved : grammar.ErrorReserved)
    (row : Subtree.Row version.stack.subtrees) {tokens : List Token}
    (extras : ∀ token ∈ tokens, grammar.isExtra token.symbol = true) :
    Subtree.Row (ParseStack.subtrees
      (Version.stack (tokens.foldlM (pushExtra (m := Id) grammar) version))) := by
  induction tokens generalizing version with
  | nil => exact row
  | cons token rest induction =>
      obtain ⟨first, others⟩ := List.forall_mem_cons.1 extras
      have correct : token.symbol ≠ .error := fun error => by
        rw [error, reserved.extra] at first
        cases first
      have pushed : Subtree.Row (ParseStack.subtrees
          (Version.stack (pushExtra (m := Id) grammar version token))) :=
        (ParseStack.subtrees_cons _ _).symm ▸
          row.concat (Subtree.merged_ofLeaf _) (decide_eq_false correct)
      exact induction pushed others

theorem resume_row (reserved : grammar.ErrorReserved) (row : Subtree.Row version.stack.subtrees)
    (window : List Token) (resumption : Resume) (token : Token) :
    Subtree.Row (ParseStack.subtrees
      (Version.stack (resume (m := Id) grammar version window resumption token))) := by
  have parts := version.stack.subtrees_take_drop resumption.popped
  unfold resume
  simp only [mapM_errorLeaf]
  refine @pushExtras_row grammar (pushError (m := Id) grammar { version with stack := _ } _)
    reserved (pushError_row ?_ fun subtree member => ?_) _ fun extra member => ?_
  · -- The extras that stay outside stand where they stood.
    rw [← parts, ← List.takeWhile_append_dropWhile (p := Subtree.isExtra)
      (l := ParseStack.subtrees (version.stack.take resumption.popped)), ← List.append_assoc] at row
    simp only [ParseStack.subtrees_pushAll]
    exact row.part (List.prefix_append ..).isInfix
  · rcases List.mem_append.1 member with content | leaf
    · rw [← parts] at row
      exact row.merged subtree
        (List.mem_append_right _ ((List.dropWhile_suffix _).subset content))
    · exact merged_errorLeaves _ _ subtree leaf
  · have isExtra := List.mem_takeWhile_imp (List.mem_reverse.1 member)
    simp only [Bool.and_eq_true] at isExtra
    exact isExtra.2

/-- Giving up leaves at most the last of the extras at the start next to an error. -/
theorem giveUp_merged (row : Subtree.Row version.stack.subtrees) (window : List Token) :
    (Finished.root (giveUp (m := Id) grammar version window)).RootMerged := by
  have merged : ∀ subtree ∈ remains grammar version window, subtree.Merged :=
    List.forall_mem_append.2 ⟨row.merged, merged_errorLeaves _ _⟩
  have apart : Subtree.Apart (remains grammar version window) := by
    refine List.isChain_append.2 ⟨row.apart, Subtree.apart_of_none ?_, ?_⟩
    · exact List.forall_mem_map.2 fun _ _ => Subtree.not_isErrorNode_of_isLeaf rfl
    · rintro last - first member both
      obtain ⟨token, -, rfl⟩ := List.mem_map.1 (List.mem_of_mem_head? member)
      exact Subtree.not_isErrorNode_of_isLeaf rfl both.2
  have leading := apart.infix (List.takeWhile_prefix Subtree.isExtra).isInfix
  have leadingMerged : ∀ subtree ∈ (remains grammar version window).takeWhile Subtree.isExtra,
      subtree.Merged := fun subtree member =>
    merged subtree ((List.takeWhile_prefix _).subset member)
  rw [giveUp_root, wrapped]
  split
  · refine Subtree.rootMerged_ofChildren _ (.inl (List.isChain_append.2 ⟨leading, .singleton _, ?_⟩))
      (List.forall_mem_append.2 ⟨leadingMerged, List.forall_mem_singleton.2 (Subtree.merged_ofLeaf _)⟩)
    rintro last - first ⟨⟩ both
    exact Subtree.not_isErrorNode_of_isLeaf rfl both.2
  · refine Subtree.rootMerged_ofChildren _ (.inr ⟨List.forall_mem_append.2 ⟨fun extra member =>
      List.mem_takeWhile_imp member, List.forall_mem_singleton.2 rfl⟩, _, _, rfl, leading,
      .singleton _⟩) (List.forall_mem_append.2 ⟨leadingMerged, List.forall_mem_singleton.2
        (merged_errorNode fun child member => merged child ((List.dropWhile_suffix _).subset member))⟩)

end Recovery

end IncrementalGlr
