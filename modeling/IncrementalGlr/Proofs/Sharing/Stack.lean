import IncrementalGlr.Parse.Reuse
import IncrementalGlr.Parse.Run
import IncrementalGlr.Proofs.Sharing.Mirror

/-!
# Runs without identity

Erasing the ids of all subtrees in a run changes nothing that the parser looks at.
-/

namespace IncrementalGlr

open Erasable

namespace StackEntry

instance : Erasable StackEntry where
  erase entry := ⟨entry.state, entry.subtree.erase⟩
  Known memory entry := memory.Knows entry.subtree
  mono known extends_ := known.mono extends_

theorem erase_eq (entry : StackEntry) : erase entry = ⟨entry.state, entry.subtree.erase⟩ := rfl

@[simp]
theorem erase_state (entry : StackEntry) : (erase entry).state = entry.state := rfl

@[simp]
theorem erase_subtree (entry : StackEntry) : (erase entry).subtree = entry.subtree.erase := rfl

@[simp]
theorem known_iff {memory : Memory} {entry : StackEntry} :
    Known memory entry ↔ memory.Knows entry.subtree := Iff.rfl

end StackEntry

namespace ParseStack

variable {memory : Memory} (stack : ParseStack)

@[simp]
theorem state_erase : state (erase stack) = stack.state := by
  cases stack <;> rfl

@[simp]
theorem states_erase : states (erase stack) = stack.states := by
  simp [states, erase_list, Function.comp_def]

@[simp]
theorem subtrees_erase : subtrees (erase stack) = erase stack.subtrees := by
  simp [subtrees, erase_list, Function.comp_def]

@[simp]
theorem errorCount_erase : errorCount (erase stack) = stack.errorCount := by
  simp [errorCount, erase_list, Function.comp_def]

@[simp]
theorem dynamicPrecedence_erase :
    dynamicPrecedence (erase stack) = stack.dynamicPrecedence := by
  simp [dynamicPrecedence, erase_list, Function.comp_def]

theorem subtrees_known {stack : ParseStack} (known : Known memory stack) :
    Known memory stack.subtrees := by
  intro subtree member
  simp only [subtrees, List.mem_reverse, List.mem_map] at member
  obtain ⟨entry, entryMember, rfl⟩ := member
  exact known entry entryMember

theorem pushAll_erase (state : StateId) (subtrees : List Subtree) :
    pushAll (erase stack) state (erase subtrees) =
      erase (stack.pushAll state subtrees) := by
  induction subtrees generalizing stack with
  | nil => rfl
  | cons subtree rest induction => exact induction (⟨state, subtree⟩ :: stack)

theorem pushAll_known {stack : ParseStack} {state : StateId} {subtrees : List Subtree}
    (known : Known memory stack) (subtreesKnown : Known memory subtrees) :
    Known memory (stack.pushAll state subtrees) := by
  induction subtrees generalizing stack with
  | nil => exact known
  | cons subtree rest induction =>
      rw [known_cons] at subtreesKnown
      exact induction (known_cons.2 ⟨subtreesKnown.1, known⟩) subtreesKnown.2

theorem takeFrom_erase (children trailing : List Subtree) (count : Nat) :
    takeFrom (erase children) (erase trailing) count (erase stack) =
      erase (takeFrom children trailing count stack) := by
  induction stack generalizing children trailing count with
  | nil => cases count <;> rfl
  | cons entry below induction =>
      cases count with
      | zero => rfl
      | succ count =>
          have empty : List.isEmpty (erase children) = children.isEmpty := by
            cases children <;> rfl
          simp only [erase_cons, takeFrom, StackEntry.erase_subtree,
            Subtree.erase_isExtra, empty]
          split
          · exact induction (entry.subtree :: children) trailing count
          · split
            · exact induction children (entry.subtree :: trailing) (count + 1)
            · exact induction (entry.subtree :: children) trailing (count + 1)

theorem takeChildren_erase (count : Nat) :
    takeChildren count (erase stack) = erase (stack.takeChildren count) :=
  takeFrom_erase stack [] [] count

theorem takeFrom_known {stack : ParseStack} {children trailing : List Subtree} {count : Nat}
    (known : Known memory stack) (childrenKnown : Known memory children)
    (trailingKnown : Known memory trailing) :
    Known memory (takeFrom children trailing count stack) := by
  induction stack generalizing children trailing count with
  | nil =>
      cases count with
      | zero => exact known_some.2 ⟨childrenKnown, trailingKnown, known⟩
      | succ count => exact known_none
  | cons entry below induction =>
      cases count with
      | zero => exact known_some.2 ⟨childrenKnown, trailingKnown, known⟩
      | succ count =>
          obtain ⟨entryKnown, belowKnown⟩ := known_cons.1 known
          have longer : Known memory (entry.subtree :: children) :=
            known_cons.2 ⟨entryKnown, childrenKnown⟩
          have longerTrailing : Known memory (entry.subtree :: trailing) :=
            known_cons.2 ⟨entryKnown, trailingKnown⟩
          simp only [takeFrom]
          split
          · exact induction belowKnown longer trailingKnown
          · split
            · exact induction belowKnown childrenKnown longerTrailing
            · exact induction belowKnown longer trailingKnown

theorem takeChildren_known {stack : ParseStack} (known : Known memory stack) (count : Nat) :
    Known memory (stack.takeChildren count) :=
  takeFrom_known known known_nil known_nil

end ParseStack

namespace Lookahead

instance : Erasable Lookahead where
  erase
    | token found lexState => token found lexState
    | reused subtree => reused subtree.erase
  Known
    | _, token _ _ => True
    | memory, reused subtree => memory.Knows subtree
  mono {_ _ value} known extends_ := by
    cases value with
    | token found lexState => exact known
    | reused subtree => exact Memory.Knows.mono known extends_

variable {memory : Memory} (lookahead : Lookahead)

@[simp]
theorem erase_token (found : Token) (lexState : LexStateId) :
    erase (token found lexState) = token found lexState := rfl

@[simp]
theorem erase_reused (subtree : Subtree) :
    erase (reused subtree) = reused subtree.erase := rfl

@[simp]
theorem known_token (found : Token) (lexState : LexStateId) :
    Known memory (token found lexState) := trivial

@[simp]
theorem known_reused {subtree : Subtree} :
    Known memory (reused subtree) ↔ memory.Knows subtree := Iff.rfl

@[simp]
theorem symbol_erase : symbol (erase lookahead) = lookahead.symbol := by
  cases lookahead <;> simp [symbol]

@[simp]
theorem extent_erase : extent (erase lookahead) = lookahead.extent := by
  cases lookahead <;> simp [extent]

@[simp]
theorem isError_erase : isError (erase lookahead) = lookahead.isError := by
  cases lookahead <;> simp [isError]

end Lookahead

namespace Version

instance : Erasable Version where
  erase version :=
    { version with stack := erase version.stack, lookahead := erase version.lookahead }
  Known memory version := Known memory version.stack ∧ Known memory version.lookahead
  mono known extends_ := ⟨Erasable.mono known.1 extends_, Erasable.mono known.2 extends_⟩

variable {memory : Memory} (version : Version)

theorem erase_eq :
    erase version =
      ⟨erase version.stack, version.position, erase version.lookahead,
        version.path⟩ := rfl

theorem known_iff {version : Version} :
    Known memory version ↔ Known memory version.stack ∧ Known memory version.lookahead := Iff.rfl

@[simp]
theorem erase_stack : (erase version).stack = erase version.stack := rfl

@[simp]
theorem erase_position : (erase version).position = version.position := rfl

@[simp]
theorem erase_lookahead : (erase version).lookahead = erase version.lookahead :=
  rfl

@[simp]
theorem erase_path : (erase version).path = version.path := rfl

@[simp]
theorem state_erase : state (erase version) = version.state := by
  simp [state]

@[simp]
theorem rank_erase : rank (erase version) = version.rank := by
  simp [rank]

@[simp]
theorem agrees_erase (other : Version) :
    agrees (erase version) (erase other) = version.agrees other := by
  simp [agrees]

theorem push_erase (state : StateId) (subtree : Subtree) :
    push (erase version) state subtree.erase =
      erase (version.push state subtree) := rfl

theorem push_known {version : Version} {state : StateId} {subtree : Subtree}
    (known : Known memory version) (subtreeKnown : memory.Knows subtree) :
    Known memory (version.push state subtree) :=
  ⟨known_cons.2 ⟨subtreeKnown, known.1⟩, known.2⟩

end Version

namespace Finished

instance : Erasable Finished where
  erase finished := ⟨finished.root.erase, finished.path⟩
  Known memory finished := memory.Knows finished.root
  mono known extends_ := known.mono extends_

variable {memory : Memory} (finished : Finished)

theorem erase_eq : erase finished = ⟨finished.root.erase, finished.path⟩ := rfl

@[simp]
theorem known_iff {finished : Finished} : Known memory finished ↔ memory.Knows finished.root :=
  Iff.rfl

@[simp]
theorem erase_root : (erase finished).root = finished.root.erase := rfl

@[simp]
theorem rank_erase : rank (erase finished) = finished.rank := by
  simp [rank, erase_eq]

end Finished

namespace Node

instance : Erasable Node where
  erase node := ⟨node.subtree.erase, node.start⟩
  Known memory node := memory.Knows node.subtree
  mono known extends_ := known.mono extends_

end Node

namespace ReuseCursor

instance : Erasable ReuseCursor where
  erase cursor := ⟨erase cursor.pending⟩
  Known memory cursor := Known memory cursor.pending
  mono known extends_ := fun held member => Erasable.mono (known held member) extends_

end ReuseCursor

namespace ParseRun

instance : Erasable ParseRun where
  erase run :=
    { run with
      reuse := erase run.reuse
      versions := erase run.versions
      finished := erase run.finished }
  Known memory run :=
    Known memory run.reuse ∧ Known memory run.versions ∧ Known memory run.finished
  mono known extends_ :=
    ⟨Erasable.mono known.1 extends_, Erasable.mono known.2.1 extends_,
      Erasable.mono known.2.2 extends_⟩

variable {memory : Memory} (run : ParseRun)

theorem known_iff {run : ParseRun} :
    Known memory run ↔
      Known memory run.reuse ∧ Known memory run.versions ∧ Known memory run.finished := Iff.rfl

theorem erase_eq :
    erase run =
      ⟨erase run.reuse, erase run.versions, erase run.finished,
        run.stats, run.lastRecovery⟩ := rfl

@[simp]
theorem erase_reuse : (erase run).reuse = erase run.reuse := rfl

@[simp]
theorem erase_versions : (erase run).versions = erase run.versions := rfl

@[simp]
theorem erase_finished : (erase run).finished = erase run.finished := rfl

@[simp]
theorem erase_stats : (erase run).stats = run.stats := rfl

@[simp]
theorem erase_lastRecovery : (erase run).lastRecovery = run.lastRecovery := rfl

end ParseRun

end IncrementalGlr
