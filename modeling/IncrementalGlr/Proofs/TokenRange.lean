import IncrementalGlr.Token.Lexer
import Mathlib.Order.Nat

/-!
# Where tokens stand

A token found before the end of a text starts where it was looked for, is not empty and ends inside
the text.  Only at the end of the text is the end of the input found.
-/

namespace IncrementalGlr

namespace Thread

/-- The rule that a thread may match. -/
def rule : Thread → Nat
  | between rule _ => rule
  | inside rule _ _ _ => rule

theorem completed_rule {place : Place} {threads : List Thread} {found : Nat}
    (member : found ∈ completed place threads) : ∃ thread ∈ threads, thread.rule = found := by
  simp only [completed, List.mem_eraseDups, List.mem_filterMap] at member
  obtain ⟨thread, threadMember, same⟩ := member
  refine ⟨thread, threadMember, ?_⟩
  cases thread with
  | between rule rest =>
      simp only [completed?] at same
      split at same
      · exact Option.some.inj same
      · cases same
  | inside rule char set rest => cases same

theorem afterByte_rule {rule : Nat} {char : Option PartialChar} {set : CharSet} {rest : Pattern}
    {next : Thread} (after : afterByte rule char set rest = some next) : next.rule = rule := by
  unfold afterByte at after
  split at after
  · cases after
  · split at after
    · cases after
    · split at after
      · rw [← Option.some.inj after]
        rfl
      · rw [← Option.some.inj after]
        rfl

theorem readAll_rule {place : Place} {byte : UInt8} {threads : List Thread} {next : Thread}
    (member : next ∈ readAll place byte threads) :
    ∃ thread ∈ threads, thread.rule = next.rule := by
  simp only [readAll, List.mem_eraseDups, List.mem_flatMap] at member
  obtain ⟨thread, threadMember, inside⟩ := member
  refine ⟨thread, threadMember, ?_⟩
  cases thread with
  | between rule rest =>
      simp only [read, List.mem_filterMap] at inside
      obtain ⟨head, -, after⟩ := inside
      exact (afterByte_rule after).symm
  | inside rule char set rest =>
      simp only [read, Option.mem_toList] at inside
      exact (afterByte_rule inside).symm

end Thread

namespace Scan

/-- Every match ends after the start and inside the text, and belongs to a rule that was tried. -/
theorem runFrom_matched {text : Text} {start offset remaining : Nat} {threads : List Thread}
    {found : Nat × Nat} (member : found ∈ (runFrom text start offset threads remaining).matched) :
    start < found.2 ∧ found.2 ≤ offset + remaining ∧
      ∃ thread ∈ threads, thread.rule = found.1 := by
  have here : ∀ {offset : Nat} {place : Place} {threads : List Thread} {found : Nat × Nat},
      found ∈ (if start < offset then (Thread.completed place threads).map (·, offset) else []) →
      start < offset ∧ found.2 = offset ∧ ∃ thread ∈ threads, thread.rule = found.1 := by
    intro offset place threads found member
    split at member
    · next after =>
        obtain ⟨rule, ruleMember, rfl⟩ := List.mem_map.1 member
        exact ⟨after, rfl, Thread.completed_rule ruleMember⟩
    · exact absurd member List.not_mem_nil
  induction remaining generalizing offset threads with
  | zero =>
      obtain ⟨after, stop, tried⟩ := here member
      exact ⟨stop ▸ after, stop.le, tried⟩
  | succ remaining induction =>
      rw [runFrom] at member
      dsimp only at member
      split at member
      · obtain ⟨after, stop, tried⟩ := here member
        exact ⟨stop ▸ after, by omega, tried⟩
      · rcases List.mem_append.1 member with reported | later
        · obtain ⟨after, stop, tried⟩ := here reported
          exact ⟨stop ▸ after, by omega, tried⟩
        · obtain ⟨after, stop, thread, threadMember, same⟩ := induction later
          obtain ⟨original, originalMember, sameRule⟩ := Thread.readAll_rule threadMember
          exact ⟨after, by omega, original, originalMember, sameRule.trans same⟩

theorem run_matched {patterns : List Pattern} {text : Text} {offset : Nat}
    (inside : offset ≤ text.size) {found : Nat × Nat}
    (member : found ∈ (run patterns text offset).matched) :
    offset < found.2 ∧ found.2 ≤ text.size ∧ found.1 < patterns.length := by
  unfold run at member
  split at member
  · exact absurd member List.not_mem_nil
  · obtain ⟨after, stop, thread, threadMember, same⟩ := runFrom_matched member
    refine ⟨after, by omega, ?_⟩
    simp only [startThreads, List.mem_map] at threadMember
    obtain ⟨⟨pattern, rule⟩, entry, rfl⟩ := threadMember
    rw [← same]
    have bound : rule < 0 + patterns.length := (List.mem_zipIdx entry).2.1
    rwa [Nat.zero_add] at bound

end Scan

/-- Whether the tokens of a scanner lie inside the text. -/
def ExternalScanner.StaysInside (scanner : ExternalScanner) : Prop :=
  ∀ text offset valid token, offset < text.size → scanner text offset valid = some token →
    offset + token.length ≤ text.size

/-- Whether a token stands at an offset of a text and is the end of the input only at the end of the
text. -/
structure Token.StandsAt (text : Text) (offset : Nat) (token : Token) : Prop where
  /-- It starts at the offset. -/
  start : token.range.start = offset
  /-- It ends inside the text. -/
  inside : token.range.stop ≤ text.size
  /-- It is not empty unless it is the end of the input. -/
  nonempty : offset < text.size → offset < token.range.stop
  /-- It is the end of the input at the end of the text. -/
  atEnd : offset = text.size → token.symbol = .endOfInput ∧ token.range.stop = text.size
  /-- It is the end of the input only there. -/
  onlyAtEnd : token.symbol = .endOfInput → offset = text.size

theorem Token.StandsAt.length_eq {text : Text} {offset : Nat} {token : Token}
    (stands : token.StandsAt text offset) (bound : offset ≤ text.size) :
    offset + token.length = token.range.stop := by
  have ordered : offset ≤ token.range.stop := by
    rcases bound.lt_or_eq with before | same
    · exact (stands.nonempty before).le
    · rw [(stands.atEnd same).2]
      exact bound
  rw [Token.length, Span.length, stands.start]
  omega

/-- A token is not empty unless it is the end of the input. -/
theorem Token.StandsAt.length_pos {text : Text} {offset : Nat} {token : Token}
    (stands : token.StandsAt text offset) (bound : offset ≤ text.size)
    (notEnd : token.symbol ≠ .endOfInput) : 0 < token.length := by
  have inside : offset < text.size :=
    bound.lt_of_ne fun same => notEnd (stands.atEnd same).1
  have after := stands.nonempty inside
  have length := stands.length_eq bound
  omega

namespace Lexer

variable {lexer : Lexer} {text : Text} {offset : Nat}

/-- Whether the lexical rules of a grammar never stand for the end of the input. -/
structure EndFree (grammar : Grammar) : Prop where
  /-- No rule recognises the end of the input. -/
  rules : ∀ rule ∈ grammar.lexRules, rule.symbol ≠ .endOfInput
  /-- Every pattern belongs to a rule. -/
  patterns : grammar.lexicon.patterns.length = grammar.lexRules.size
  /-- No lexical state looks for the end of the input. -/
  valid : ∀ lexState, (grammar.validSymbols lexState).contains .endOfInput = false

theorem recoverFrom_bounds (examined budget : Nat) (inside : offset ≤ text.size) :
    offset ≤ (lexer.recoverFrom text offset examined budget).1 ∧
      (lexer.recoverFrom text offset examined budget).1 ≤ text.size := by
  induction budget generalizing offset examined with
  | zero => exact ⟨inside, le_rfl⟩
  | succ budget induction =>
      rw [recoverFrom]
      split
      · exact ⟨inside, le_rfl⟩
      · next before =>
          have next : offset + 1 ≤ text.size := by omega
          split
          · exact ⟨(Nat.le_succ offset).trans (induction _ next).1, (induction _ next).2⟩
          · dsimp only
            split
            · exact ⟨(Nat.le_succ offset).trans (induction _ next).1, (induction _ next).2⟩
            · exact ⟨le_rfl, inside⟩

theorem errorToken_standsAt (examined : Nat) (before : offset < text.size) :
    (lexer.errorToken text offset examined).StandsAt text offset := by
  have notEnd : Symbol.error ≠ .endOfInput := by decide
  unfold errorToken
  by_cases boundary : text.isBoundary offset = true
  · have bounds : offset + 1 ≤ (lexer.recoverFrom text (offset + 1) examined _).1 ∧
        (lexer.recoverFrom text (offset + 1) examined _).1 ≤ text.size :=
      recoverFrom_bounds examined (text.size - offset) before
    rw [if_pos boundary]
    exact ⟨rfl, bounds.2, fun _ => bounds.1, fun same => absurd same before.ne,
      fun same => absurd same notEnd⟩
  · rw [if_neg boundary]
    exact ⟨rfl, le_rfl, fun _ => before, fun same => absurd same before.ne,
      fun same => absurd same notEnd⟩

theorem best?_mem {candidates : List Candidate} {best : Candidate}
    (found : Candidate.best? candidates = some best) : best ∈ candidates := by
  have folded : ∀ (candidates : List Candidate) (start : Option Candidate),
      candidates.foldl Candidate.improve start = some best →
      start = some best ∨ best ∈ candidates := by
    intro candidates
    induction candidates with
    | nil => exact fun start same => .inl same
    | cons candidate rest induction =>
        intro start same
        rcases induction _ same with improved | later
        · cases start with
          | none => exact .inr (List.mem_cons.2 (.inl (Option.some.inj improved).symm))
          | some current =>
              simp only [Candidate.improve] at improved
              split at improved
              · exact .inr (List.mem_cons.2 (.inl (Option.some.inj improved).symm))
              · exact .inl improved
        · exact .inr (List.mem_cons_of_mem candidate later)
  rcases folded candidates none found with impossible | member
  · cases impossible
  · exact member

theorem lexicalToken_standsAt (rules : ∀ rule ∈ lexer.grammar.lexRules, rule.symbol ≠ .endOfInput)
    (patterns : lexer.grammar.lexicon.patterns.length = lexer.grammar.lexRules.size)
    (before : offset < text.size) (valid : SymbolSet) :
    (lexer.lexicalToken text offset valid).StandsAt text offset := by
  unfold lexicalToken
  dsimp only
  split
  · next best found =>
      have member : best ∈
          (lexer.grammar.lexicon.scan text offset).matched.map lexer.candidate := by
        rcases Option.or_eq_some_iff.1 found with valid | ⟨-, other⟩
        · exact List.filter_sublist.subset (best?_mem valid)
        · exact best?_mem other
      obtain ⟨⟨rule, stop⟩, matched, rfl⟩ := List.mem_map.1 member
      obtain ⟨after, inside, tried⟩ := Scan.run_matched before.le matched
      rw [patterns] at tried
      have notEnd : (lexer.candidate (rule, stop)).symbol ≠ .endOfInput := by
        simp only [candidate, Array.getElem?_eq_getElem tried, Option.getD_some]
        exact rules _ (Array.getElem_mem tried)
      exact ⟨rfl, inside, fun _ => after, fun same => absurd same before.ne,
        fun same => absurd same notEnd⟩
  · exact errorToken_standsAt _ before

theorem externalToken?_standsAt {valid : SymbolSet} (reserved : valid.contains .endOfInput = false)
    {external : Option ExternalScanner}
    (inside : ∀ scanner ∈ external, ExternalScanner.StaysInside scanner)
    (before : offset < text.size) {token : Token}
    (found : externalToken? text offset valid external = some token) :
    token.StandsAt text offset := by
  unfold externalToken? at found
  cases external with
  | none => cases found
  | some scanner =>
      cases scanned : scanner text offset valid with
      | none => simp [scanned] at found
      | some result =>
          simp only [scanned, Option.bind_eq_bind, Option.bind_some, Bool.and_eq_true,
            decide_eq_true_eq, Option.ite_none_right_eq_some, Option.some.injEq] at found
          obtain ⟨⟨allowed, positive⟩, rfl⟩ := found
          have notEnd : result.symbol ≠ .endOfInput := by
            intro same
            rw [same, reserved] at allowed
            cases allowed
          exact ⟨rfl, inside scanner rfl text offset valid result before scanned,
            fun _ => Nat.lt_add_of_pos_right positive, fun same => absurd same before.ne,
            fun same => absurd same notEnd⟩

/-- The token at an offset of a text stands there if all tokens of the scanner do. -/
theorem tokenAt_standsAt (rules : ∀ rule ∈ lexer.grammar.lexRules, rule.symbol ≠ .endOfInput)
    (patterns : lexer.grammar.lexicon.patterns.length = lexer.grammar.lexRules.size)
    {valid : SymbolSet} {external : Option ExternalScanner}
    (scanned : offset < text.size → ∀ token ∈ externalToken? text offset valid external,
      token.StandsAt text offset)
    (bound : offset ≤ text.size) :
    (lexer.tokenAt text offset valid external).StandsAt text offset := by
  unfold tokenAt
  split
  · next past =>
      have same : offset = text.size := le_antisymm bound past
      exact ⟨same.symm, le_rfl, fun before => absurd same before.ne, fun _ => ⟨rfl, rfl⟩,
        fun _ => same⟩
  · next before =>
      rw [not_le] at before
      cases found : externalToken? text offset valid external with
      | none => exact lexicalToken_standsAt rules patterns before valid
      | some token => exact scanned before token found

/-- The token at an offset of a text stands there. -/
theorem nextInState_standsAt (endFree : EndFree lexer.grammar)
    (inside : ∀ scanner ∈ lexer.external, ExternalScanner.StaysInside scanner)
    (bound : offset ≤ text.size) (lexState : LexStateId) :
    (lexer.nextInState text offset lexState).StandsAt text offset := by
  refine tokenAt_standsAt endFree.rules endFree.patterns (fun before token found => ?_) bound
  refine externalToken?_standsAt (endFree.valid lexState) (fun scanner member => ?_) before found
  exact inside scanner (Option.mem_filter_iff.1 member).1

end Lexer

end IncrementalGlr
