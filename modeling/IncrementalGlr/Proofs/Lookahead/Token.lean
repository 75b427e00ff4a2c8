import IncrementalGlr.Proofs.Coverage.Session
import IncrementalGlr.Proofs.Lookahead.Scan
import IncrementalGlr.Proofs.Outcome
import IncrementalGlr.Proofs.TokenRange

/-!
# What decides a token

A token says by its range and its lookahead how far the text has been looked at to find it.  Where
the same bytes stand as far as that, the same token is found, in whichever text and at whichever
offset.
-/

namespace IncrementalGlr

namespace Candidate

variable {move : Candidate → Candidate}

/-- The best of several matches is the same one if all are moved without a change in which of two is
better. -/
theorem best?_map {candidates : List Candidate}
    (alike : ∀ left ∈ candidates, ∀ right ∈ candidates,
      (move left).beats (move right) = left.beats right) :
    best? (candidates.map move) = (best? candidates).map move := by
  have folded : ∀ (rest : List Candidate) (best : Option Candidate), rest ⊆ candidates →
      (∀ candidate ∈ best, candidate ∈ candidates) →
      (rest.map move).foldl improve (best.map move) = (rest.foldl improve best).map move := by
    intro rest
    induction rest with
    | nil => exact fun best _ _ => rfl
    | cons candidate rest induction =>
        intro best listed known
        obtain ⟨member, later⟩ := List.cons_subset.1 listed
        have improved : improve (best.map move) (move candidate) =
            (improve best candidate).map move := by
          cases best with
          | none => rfl
          | some current =>
              simp only [improve, Option.map_some, alike _ member _ (known current rfl)]
              split <;> rfl
        rw [List.map_cons, List.foldl_cons, List.foldl_cons, improved]
        refine induction _ later fun other same => ?_
        cases best with
        | none => exact Option.some.inj same ▸ member
        | some current =>
            simp only [improve] at same
            split at same
            · exact Option.some.inj same ▸ member
            · exact Option.some.inj same ▸ known current rfl
  exact folded candidates none (List.Subset.refl candidates) (fun _ none => by cases none)

/-- A match moved along with the start of the scan. -/
def moved (start otherStart : Nat) (candidate : Candidate) : Candidate :=
  { candidate with stop := candidate.stop - start + otherStart }

theorem beats_moved {start otherStart : Nat} {left right : Candidate} (leftAfter : start ≤ left.stop)
    (rightAfter : start ≤ right.stop) :
    (left.moved start otherStart).beats (right.moved start otherStart) = left.beats right := by
  have same : left.stop - start + otherStart = right.stop - start + otherStart ↔
      left.stop = right.stop := by omega
  have less : right.stop - start + otherStart < left.stop - start + otherStart ↔
      right.stop < left.stop := by omega
  by_cases equal : left.stop = right.stop
  · rw [beats, beats, if_neg (not_not.2 equal)]
    exact if_neg (not_not.2 (same.2 equal))
  · rw [beats, beats, if_pos equal]
    exact (if_pos (mt same.1 equal)).trans (decide_eq_decide.2 less)

end Candidate

namespace Lexer

variable {lexer : Lexer} {left right : Text} {start otherStart offset other : Nat}

/-- Whether no lexical rule of a grammar looks behind the place where it is tried. -/
def LooksAhead (grammar : Grammar) : Prop :=
  ∀ pattern ∈ grammar.lexicon.patterns, pattern.looksBehind = false

theorem isBoundary_congr (same : left.byte? offset = right.byte? other)
    (inside : offset < left.size) : left.isBoundary offset = right.isBoundary other := by
  obtain ⟨byte, here⟩ := Text.lt_size_iff.1 inside
  unfold Text.isBoundary
  rw [← same, here]

section Recovery

variable {text : Text} {examined budget : Nat}

theorem recoverFrom_of_past (past : text.size ≤ offset) :
    lexer.recoverFrom text offset examined budget = (text.size, examined) := by
  cases budget with
  | zero => rfl
  | succ budget => rw [recoverFrom, if_pos past]

theorem recoverFrom_of_inside (before : offset < text.size)
    (inside : text.isBoundary offset = false) :
    lexer.recoverFrom text offset examined (budget + 1) =
      lexer.recoverFrom text (offset + 1) examined budget := by
  rw [recoverFrom, if_neg (Nat.not_le.2 before), inside]
  rfl

theorem recoverFrom_of_unmatched (before : offset < text.size)
    (boundary : text.isBoundary offset = true)
    (unmatched : (lexer.grammar.lexicon.scan text offset).matched = []) :
    lexer.recoverFrom text offset examined (budget + 1) =
      lexer.recoverFrom text (offset + 1)
        (max examined (lexer.grammar.lexicon.scan text offset).examined) budget := by
  rw [recoverFrom, if_neg (Nat.not_le.2 before), boundary]
  simp [unmatched]

theorem recoverFrom_of_matched (before : offset < text.size)
    (boundary : text.isBoundary offset = true)
    (matched : (lexer.grammar.lexicon.scan text offset).matched ≠ []) :
    lexer.recoverFrom text offset examined (budget + 1) =
      (offset, max examined (lexer.grammar.lexicon.scan text offset).examined) := by
  rw [recoverFrom, if_neg (Nat.not_le.2 before), boundary]
  simp [matched]

/-- Recovery only looks further. -/
theorem le_examined_recoverFrom (lexer : Lexer) (text : Text) (offset examined budget : Nat) :
    examined ≤ (lexer.recoverFrom text offset examined budget).2 := by
  induction budget generalizing offset examined with
  | zero => exact Nat.le_refl examined
  | succ budget induction =>
      rcases Nat.lt_or_ge offset text.size with before | past
      · cases boundary : text.isBoundary offset with
        | false =>
            rw [recoverFrom_of_inside before boundary]
            exact induction _ _
        | true =>
            by_cases matched : (lexer.grammar.lexicon.scan text offset).matched = []
            · rw [recoverFrom_of_unmatched before boundary matched]
              exact (Nat.le_max_left _ _).trans (induction _ _)
            · rw [recoverFrom_of_matched before boundary matched]
              exact Nat.le_max_left _ _
      · rw [recoverFrom_of_past past]

/-- Recovery looks as far as every scan that it tries. -/
theorem le_examined_of_scan (before : offset < text.size)
    (boundary : text.isBoundary offset = true) :
    (lexer.grammar.lexicon.scan text offset).examined ≤
      (lexer.recoverFrom text offset examined (budget + 1)).2 := by
  by_cases matched : (lexer.grammar.lexicon.scan text offset).matched = []
  · rw [recoverFrom_of_unmatched before boundary matched]
    exact (Nat.le_max_right _ _).trans (le_examined_recoverFrom ..)
  · rw [recoverFrom_of_matched before boundary matched]
    exact Nat.le_max_right _ _

end Recovery

theorem scan_matched_eq (ahead : LooksAhead lexer.grammar) (inside : offset ≤ left.size)
    (agree : left.Agree offset right other
      ((lexer.grammar.lexicon.scan left offset).examined - offset)) :
    (lexer.grammar.lexicon.scan right other).matched =
      (lexer.grammar.lexicon.scan left offset).matched.map (Scan.moved offset other) :=
  Scan.run_matched_eq ahead inside agree

/-- What recovery from an error has looked at, from an offset on. -/
def recoveryExtent (lexer : Lexer) (text : Text) (offset examined budget : Nat) : Nat :=
  max (lexer.recoverFrom text offset examined budget).2
    ((lexer.recoverFrom text offset examined budget).1 + 1) - offset

/-- At the end of a text there is nothing left to recover. -/
theorem recoverFrom_eq_of_past {examined otherExamined budget otherBudget : Nat}
    (inside : offset ≤ left.size) (past : left.size ≤ offset)
    (agree : left.Agree offset right other (lexer.recoveryExtent left offset examined budget))
    (otherInside : other ≤ right.size) :
    (lexer.recoverFrom right other otherExamined otherBudget).1 =
      (lexer.recoverFrom left offset examined budget).1 - offset + other := by
  unfold recoveryExtent at agree
  rw [recoverFrom_of_past past] at agree
  rw [recoverFrom_of_past past]
  have ended := agree.first (by omega)
  rw [Text.byte?_eq_none_iff.2 past, eq_comm, Text.byte?_eq_none_iff] at ended
  rw [recoverFrom_of_past ended]
  omega

/-- Recovery from an error depends on nothing but what it has looked at. -/
theorem recoverFrom_eq (ahead : LooksAhead lexer.grammar)
    {examined otherExamined budget otherBudget : Nat}
    (inside : offset ≤ left.size) (enough : left.size ≤ offset + budget)
    (agree : left.Agree offset right other (lexer.recoveryExtent left offset examined budget))
    (otherInside : other ≤ right.size) (otherEnough : right.size ≤ other + otherBudget) :
    (lexer.recoverFrom right other otherExamined otherBudget).1 =
      (lexer.recoverFrom left offset examined budget).1 - offset + other := by
  induction budget generalizing offset other examined otherExamined otherBudget with
  | zero => exact recoverFrom_eq_of_past inside enough agree otherInside
  | succ budget induction =>
      rcases inside.eq_or_lt with atEnd | before
      · exact recoverFrom_eq_of_past inside atEnd.ge agree otherInside
      · have bounds := @recoverFrom_bounds lexer left offset examined (budget + 1) inside
        unfold recoveryExtent at agree
        have same := agree.first (by omega)
        have boundary := isBoundary_congr same before
        have otherBefore : other < right.size := by
          obtain ⟨byte, here⟩ := Text.lt_size_iff.1 before
          exact Text.lt_size_iff.2 ⟨byte, same.symm.trans here⟩
        obtain ⟨otherBudget, rfl⟩ := Nat.exists_eq_add_one_of_ne_zero
          (show otherBudget ≠ 0 by omega)
        have later : ∀ {further otherFurther : Nat},
            lexer.recoverFrom left offset examined (budget + 1) =
              lexer.recoverFrom left (offset + 1) further budget →
            lexer.recoverFrom right other otherExamined (otherBudget + 1) =
              lexer.recoverFrom right (other + 1) otherFurther otherBudget →
            (lexer.recoverFrom right other otherExamined (otherBudget + 1)).1 =
              (lexer.recoverFrom left offset examined (budget + 1)).1 - offset + other := by
          intro further otherFurther here there
          have inner : offset + 1 ≤ left.size := before
          have beyond := @recoverFrom_bounds lexer left (offset + 1) further budget inner
          rw [here] at agree ⊢
          rw [there, induction inner (by omega) agree.next otherBefore (by omega)]
          omega
        cases onBoundary : left.isBoundary offset with
        | false =>
            exact later (recoverFrom_of_inside before onBoundary)
              (recoverFrom_of_inside otherBefore (boundary ▸ onBoundary))
        | true =>
            have scanned : (lexer.grammar.lexicon.scan right other).matched =
                (lexer.grammar.lexicon.scan left offset).matched.map (Scan.moved offset other) := by
              have looked := @le_examined_of_scan lexer offset left examined budget before onBoundary
              exact scan_matched_eq ahead inside (agree.take (by omega))
            by_cases matched : (lexer.grammar.lexicon.scan left offset).matched = []
            · exact later (recoverFrom_of_unmatched before onBoundary matched)
                (recoverFrom_of_unmatched otherBefore (boundary ▸ onBoundary)
                  (by rw [scanned, matched]; rfl))
            · rw [recoverFrom_of_matched before onBoundary matched,
                recoverFrom_of_matched otherBefore (boundary ▸ onBoundary)
                  (by rwa [scanned, ne_eq, List.map_eq_nil_iff]), Nat.sub_self, Nat.zero_add]

/-- The best match, preferably one of the given terminals. -/
def bestMatch? (lexer : Lexer) (valid : SymbolSet) (matched : List (Nat × Nat)) :
    Option Candidate :=
  (Candidate.best? ((matched.map lexer.candidate).filter fun c => valid.contains c.symbol)).or
    (Candidate.best? (matched.map lexer.candidate))

theorem bestMatch?_mem {valid : SymbolSet} {matched : List (Nat × Nat)} {best : Candidate}
    (found : lexer.bestMatch? valid matched = some best) :
    ∃ entry ∈ matched, lexer.candidate entry = best := by
  refine List.mem_map.1 ?_
  rcases Option.or_eq_some_iff.1 found with preferred | ⟨-, any⟩
  · exact List.filter_sublist.subset (best?_mem preferred)
  · exact best?_mem any

theorem bestMatch?_moved (valid : SymbolSet) {matched : List (Nat × Nat)}
    (after : ∀ entry ∈ matched, offset ≤ entry.2) :
    lexer.bestMatch? valid (matched.map (Scan.moved offset other)) =
      (lexer.bestMatch? valid matched).map (Candidate.moved offset other) := by
  have stops : ∀ candidate ∈ matched.map lexer.candidate, offset ≤ candidate.stop := by
    intro candidate member
    obtain ⟨entry, listed, rfl⟩ := List.mem_map.1 member
    exact after entry listed
  have candidates : (matched.map (Scan.moved offset other)).map lexer.candidate =
      (matched.map lexer.candidate).map (Candidate.moved offset other) := by
    rw [List.map_map, List.map_map]
    rfl
  unfold bestMatch?
  rw [candidates, List.filter_map]
  generalize matched.map lexer.candidate = all at stops
  rw [Candidate.best?_map, Candidate.best?_map]
  · exact Option.map_or.symm
  · exact fun left leftMember right rightMember =>
      Candidate.beats_moved (stops left leftMember) (stops right rightMember)
  · exact fun left leftMember right rightMember =>
      Candidate.beats_moved (stops left (List.filter_sublist.subset leftMember))
        (stops right (List.filter_sublist.subset rightMember))

end Lexer

/-- Whether a token is another one moved from an offset to another. -/
structure Token.MovedFrom (token : Token) (offset : Nat) (image : Token) (other : Nat) : Prop where
  /-- The symbols are the same. -/
  symbol : image.symbol = token.symbol
  /-- Both are errors or none is. -/
  isError : image.isError = token.isError
  /-- The starts are equally far from the offsets. -/
  start : image.range.start + offset = token.range.start + other
  /-- The ends are equally far from the offsets. -/
  stop : image.range.stop + offset = token.range.stop + other

namespace Lexer

variable {lexer : Lexer} {left right : Text} {offset other : Nat}

/-- An unrecognised text has been looked at as far as the scan at its start, and it is not empty. -/
theorem le_errorToken (examined : Nat) (before : offset < left.size)
    (boundary : left.isBoundary offset = true) :
    let token := lexer.errorToken left offset examined
    examined ≤ token.range.stop + token.lookahead ∧ offset < token.range.stop := by
  have further := le_examined_recoverFrom lexer left (offset + 1) examined (left.size - offset)
  have inner : offset + 1 ≤ left.size := before
  have bounds :=
    @recoverFrom_bounds lexer left (offset + 1) examined (left.size - offset) inner
  unfold errorToken
  rw [if_pos boundary]
  dsimp only
  omega

theorem errorToken_moved (ahead : LooksAhead lexer.grammar) (examined otherExamined : Nat)
    (before : offset < left.size) (otherBefore : other < right.size)
    (boundary : left.isBoundary offset = true) (otherBoundary : right.isBoundary other = true)
    (agree : left.Agree offset right other
      ((lexer.errorToken left offset examined).range.stop +
        (lexer.errorToken left offset examined).lookahead - offset)) :
    (lexer.errorToken left offset examined).MovedFrom offset
      (lexer.errorToken right other otherExamined) other := by
  unfold errorToken at agree ⊢
  rw [if_pos boundary] at agree ⊢
  rw [if_pos otherBoundary]
  dsimp only at agree ⊢
  have inner : offset + 1 ≤ left.size := before
  have bounds :=
    @recoverFrom_bounds lexer left (offset + 1) examined (left.size - offset) inner
  have looked : left.Agree (offset + 1) right (other + 1)
      (lexer.recoveryExtent left (offset + 1) examined (left.size - offset)) :=
    agree.next.take (by unfold recoveryExtent; omega)
  have enough : left.size ≤ offset + 1 + (left.size - offset) := by omega
  have otherEnough : right.size ≤ other + 1 + (right.size - other) := by omega
  refine ⟨rfl, rfl, Nat.add_comm other offset, ?_⟩
  dsimp only
  rw [recoverFrom_eq ahead inner enough looked otherBefore otherEnough]
  omega

/-- The token of a match. -/
def matchToken (offset examined : Nat) (best : Candidate) : Token :=
  ⟨best.symbol, ⟨offset, best.stop⟩, examined - best.stop, false⟩

/-- The token of the lexical rules is that of the best match or an error. -/
theorem lexicalToken_eq (lexer : Lexer) (text : Text) (offset : Nat) (valid : SymbolSet) :
    let scan := lexer.grammar.lexicon.scan text offset
    lexer.lexicalToken text offset valid =
      ((lexer.bestMatch? valid scan.matched).map (matchToken offset scan.examined)).getD
        (lexer.errorToken text offset scan.examined) := by
  unfold lexicalToken bestMatch?
  dsimp only
  generalize Option.or _ _ = best
  cases best <;> rfl

theorem lt_stop_lexicalToken (valid : SymbolSet) (before : offset < left.size)
    (boundary : left.isBoundary offset = true) :
    offset < (lexer.lexicalToken left offset valid).range.stop := by
  rw [lexicalToken_eq]
  cases found : lexer.bestMatch? valid (lexer.grammar.lexicon.scan left offset).matched with
  | some best =>
      obtain ⟨entry, member, rfl⟩ := bestMatch?_mem found
      exact (Scan.run_matched before.le member).1
  | none => exact (le_errorToken _ before boundary).2

theorem lexicalToken_moved (ahead : LooksAhead lexer.grammar) (valid : SymbolSet)
    (before : offset < left.size) (otherBefore : other < right.size)
    (boundary : left.isBoundary offset = true) (otherBoundary : right.isBoundary other = true)
    (agree : left.Agree offset right other
      ((lexer.lexicalToken left offset valid).range.stop +
        (lexer.lexicalToken left offset valid).lookahead - offset)) :
    (lexer.lexicalToken left offset valid).MovedFrom offset
      (lexer.lexicalToken right other valid) other := by
  have matchedEq : left.Agree offset right other
        ((lexer.grammar.lexicon.scan left offset).examined - offset) →
      lexer.bestMatch? valid (lexer.grammar.lexicon.scan right other).matched =
        (lexer.bestMatch? valid (lexer.grammar.lexicon.scan left offset).matched).map
          (Candidate.moved offset other) := by
    intro looked
    rw [scan_matched_eq ahead before.le looked]
    exact bestMatch?_moved valid fun entry member => (Scan.run_matched before.le member).1.le
  rw [lexicalToken_eq] at agree ⊢
  rw [lexicalToken_eq]
  cases found : lexer.bestMatch? valid (lexer.grammar.lexicon.scan left offset).matched with
  | some best =>
      obtain ⟨⟨rule, stop⟩, member, rfl⟩ := bestMatch?_mem found
      have after : offset < stop := (Scan.run_matched before.le member).1
      have looked : stop ≤ (lexer.grammar.lexicon.scan left offset).examined :=
        Scan.le_examined_of_mem_run member
      rw [found] at agree
      change left.Agree offset right other
        (stop + ((lexer.grammar.lexicon.scan left offset).examined - stop) - offset) at agree
      rw [matchedEq (agree.take (by omega)), found]
      refine ⟨rfl, rfl, Nat.add_comm other offset, ?_⟩
      change stop - offset + other + offset = stop + other
      omega
  | none =>
      rw [found] at agree
      obtain ⟨looked, after⟩ := @le_errorToken lexer left offset
        (lexer.grammar.lexicon.scan left offset).examined before boundary
      dsimp only [Option.map_none, Option.getD_none] at agree ⊢
      rw [matchedEq (agree.take (by omega)), found]
      exact errorToken_moved ahead _ _ before otherBefore boundary otherBoundary agree

/-- A token is decided by the bytes up to the end of its lookahead: if no lexical rule of the grammar
looks behind and no external scanner is asked, then in every text, at every offset from which on the
same bytes stand as far as that, the same token is found. -/
theorem nextInState_moved {lexer : Lexer} (internal : lexer.external = none)
    (ahead : LooksAhead lexer.grammar) {left right : Text} {offset other : Nat}
    (before : offset < left.size) (boundary : left.isBoundary offset = true)
    (otherBoundary : right.isBoundary other = true) (lexState : LexStateId)
    (agree : left.Agree offset right other
      ((lexer.nextInState left offset lexState).range.stop +
        (lexer.nextInState left offset lexState).lookahead - offset)) :
    (lexer.nextInState left offset lexState).MovedFrom offset
      (lexer.nextInState right other lexState) other := by
  have lexical : ∀ {text : Text} {offset : Nat}, offset < text.size →
      lexer.nextInState text offset lexState =
        lexer.lexicalToken text offset (lexer.grammar.validSymbols lexState) := by
    intro text offset before
    unfold nextInState tokenAt
    rw [if_neg (Nat.not_le.2 before), internal]
    rfl
  rw [lexical before] at agree ⊢
  have nonempty := @lt_stop_lexicalToken lexer left offset (lexer.grammar.validSymbols lexState)
    before boundary
  obtain ⟨byte, here⟩ := Text.lt_size_iff.1 before
  have otherBefore := Text.lt_size_iff.2 ⟨byte, (agree.first (by omega)).symm.trans here⟩
  rw [lexical otherBefore]
  exact lexicalToken_moved ahead _ before otherBefore boundary otherBoundary agree

end Lexer

/-- What no rule matches is the same error in the middle of a text as at the start of another one, if
the next two bytes, the first of which is matched again, are the same. -/
theorem nextInState_moved_bracketed :
    ∃ compiled, Description.bracketed.compile = .ok compiled ∧
      let lexer : Lexer := ⟨compiled.grammar, none⟩
      let token := lexer.nextInState (.ofString "w ?!(w)") 2 .errorMode
      let image := lexer.nextInState (.ofString "?!(w w") 0 .errorMode
      token = ⟨.error, ⟨2, 4⟩, 2, true⟩ ∧ token.MovedFrom 2 image 0 ∧
        image.isError = true ∧ image.range.stop = 2 := by
  have computed : (Description.bracketed.compile.toOption.any fun compiled =>
      let token := Lexer.nextInState ⟨compiled.grammar, none⟩ (.ofString "w ?!(w)") 2 .errorMode
      (compiled.grammar.lexicon.patterns.all fun pattern => !pattern.looksBehind) &&
        token = ⟨.error, ⟨2, 4⟩, 2, true⟩) = true := by
    decide +kernel
  obtain ⟨compiled, made, facts⟩ := Except.exists_of_any computed
  simp only [Bool.and_eq_true, decide_eq_true_eq, List.all_eq_true, Bool.not_eq_true'] at facts
  obtain ⟨ahead, error⟩ := facts
  have agree : Text.Agree (.ofString "w ?!(w)") 2 (.ofString "?!(w w") 0 4 := by
    unfold Text.Agree
    decide
  refine ⟨compiled, made, ?_⟩
  intro lexer token image
  have same : token = ⟨.error, ⟨2, 4⟩, 2, true⟩ := error
  have moved : token.MovedFrom 2 image 0 :=
    @Lexer.nextInState_moved lexer rfl ahead _ _ 2 0 (by decide) (by decide) (by decide) .errorMode
      (by rw [error]; exact agree)
  refine ⟨same, moved, ?_, ?_⟩
  · rw [moved.isError, same]
  · have stop := moved.stop
    rw [same] at stop
    exact Nat.add_right_cancel stop

end IncrementalGlr
