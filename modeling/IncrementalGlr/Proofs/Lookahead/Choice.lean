import IncrementalGlr.Proofs.Lookahead.Token
import Mathlib.Data.Prod.Lex

/-!
# The choice of a token

Matches are compared by their ends, then by precedence, then a fixed text is greater than a pattern,
then an earlier rule than a later one.  No two matches of a scan are equal in all of these, so there
is one greatest match, and it is found in whichever order a scan reports them.  Where nothing
matches, the first place after it is looked for where something does.
-/

namespace IncrementalGlr

namespace Candidate

/-- What matches are compared by; a better match is greater. -/
def key (candidate : Candidate) : ℕ ×ₗ ℤ ×ₗ Bool ×ₗ ℕᵒᵈ :=
  toLex (candidate.stop, toLex (candidate.precedence.toInt,
    toLex (candidate.literal, OrderDual.toDual candidate.rule)))

theorem beats_iff {left right : Candidate} : left.beats right = true ↔ right.key < left.key := by
  simp only [key, Prod.Lex.toLex_lt_toLex, OrderDual.toDual_lt_toDual]
  unfold beats
  split
  · next different => simp [Ne.symm different]
  · next stops =>
      rw [not_not] at stops
      split
      · next different =>
          have apart : right.precedence.toInt ≠ left.precedence.toInt :=
            fun same => different (Int16.toInt_inj.1 same).symm
          simp [stops, apart, Int16.lt_iff_toInt_lt]
      · next precedences =>
          rw [not_not] at precedences
          cases leftLiteral : left.literal <;> cases rightLiteral : right.literal <;>
            simp [stops, precedences]

theorem not_beats_iff {left right : Candidate} :
    left.beats right = false ↔ left.key ≤ right.key := by
  rw [← Bool.not_eq_true, beats_iff, not_lt]

variable {candidates : List Candidate} {best : Candidate}

/-- The better of two matches is one of them and at least as great as either. -/
theorem improve_some (current candidate : Candidate) :
    ∃ better, improve (some current) candidate = some better ∧
      (better = current ∨ better = candidate) ∧
        current.key ≤ better.key ∧ candidate.key ≤ better.key := by
  unfold improve
  dsimp only
  split
  · next beats => exact ⟨candidate, rfl, .inr rfl, (beats_iff.1 beats).le, le_rfl⟩
  · next loses =>
      exact ⟨current, rfl, .inl rfl, le_rfl, not_beats_iff.1 (Bool.not_eq_true _ ▸ loses)⟩

/-- Among matches there is a best one, which is as great as any. -/
theorem exists_best (nonempty : candidates ≠ []) : ∃ best, best? candidates = some best ∧
    best ∈ candidates ∧ ∀ candidate ∈ candidates, candidate.key ≤ best.key := by
  have folded : ∀ (rest : List Candidate) (first : Candidate), ∃ best,
      rest.foldl improve (some first) = some best ∧ best ∈ first :: rest ∧
        ∀ candidate ∈ first :: rest, candidate.key ≤ best.key := by
    intro rest
    induction rest with
    | nil => exact fun first => ⟨first, rfl, List.mem_cons_self, List.forall_mem_singleton.2 le_rfl⟩
    | cons next rest induction =>
        intro first
        obtain ⟨better, improved, either, atFirst, atNext⟩ := improve_some first next
        obtain ⟨best, found, member, greatest⟩ := induction better
        obtain ⟨atBetter, atRest⟩ := List.forall_mem_cons.1 greatest
        refine ⟨best, by rw [List.foldl_cons, improved, found], ?_,
          List.forall_mem_cons.2 ⟨atFirst.trans atBetter,
            List.forall_mem_cons.2 ⟨atNext.trans atBetter, atRest⟩⟩⟩
        rcases List.mem_cons.1 member with rfl | later
        · rcases either with rfl | rfl
          · exact List.mem_cons_self
          · exact List.mem_cons_of_mem _ List.mem_cons_self
        · exact List.mem_cons_of_mem _ (List.mem_cons_of_mem _ later)
  obtain ⟨first, rest, rfl⟩ := List.exists_cons_of_ne_nil nonempty
  exact folded rest first

/-- If no two matches have equal keys, the best one is the greatest. -/
theorem best?_eq_some_iff
    (distinct : ∀ left ∈ candidates, ∀ right ∈ candidates, left.key = right.key → left = right) :
    best? candidates = some best ↔
      best ∈ candidates ∧ ∀ candidate ∈ candidates, candidate.key ≤ best.key := by
  have greatest : ∀ other, best? candidates = some other →
      other ∈ candidates ∧ ∀ candidate ∈ candidates, candidate.key ≤ other.key := by
    intro other found
    have nonempty : candidates ≠ [] := fun none => by
      rw [none] at found
      cases found
    obtain ⟨best, same, holds⟩ := exists_best nonempty
    cases found.symm.trans same
    exact holds
  refine ⟨greatest best, fun ⟨member, greatestBest⟩ => ?_⟩
  obtain ⟨other, found, otherMember, greatestOther⟩ := exists_best (List.ne_nil_of_mem member)
  rw [found, distinct other otherMember best member
    (le_antisymm (greatestBest other otherMember) (greatestOther best member))]

theorem best?_perm {others : List Candidate} (same : others.Perm candidates)
    (distinct : ∀ left ∈ candidates, ∀ right ∈ candidates, left.key = right.key → left = right) :
    best? others = best? candidates := by
  refine Option.ext fun best => ?_
  rw [best?_eq_some_iff distinct, best?_eq_some_iff]
  · simp only [same.mem_iff]
  · simpa only [same.mem_iff] using distinct

end Candidate

namespace Lexer

variable {lexer : Lexer} {text : Text} {offset : Nat} {valid : SymbolSet}
  {matched : List (Nat × Nat)}

/-- Matches with equal keys are the same. -/
theorem candidate_injective {left right : Nat × Nat}
    (same : (lexer.candidate left).key = (lexer.candidate right).key) : left = right := by
  simp only [Candidate.key, candidate, EmbeddingLike.apply_eq_iff_eq, Prod.mk.injEq] at same
  exact Prod.ext same.2.2.2 same.1

/-- Whether a match is the greatest of those whose symbols are allowed. -/
structure IsBest (lexer : Lexer) (allowed : Symbol → Bool) (matched : List (Nat × Nat))
    (best : Nat × Nat) : Prop where
  /-- It is a match. -/
  member : best ∈ matched
  /-- Its symbol is allowed. -/
  symbol : allowed (lexer.candidate best).symbol = true
  /-- It is as great as all others. -/
  greatest : ∀ other ∈ matched, allowed (lexer.candidate other).symbol = true →
    (lexer.candidate other).key ≤ (lexer.candidate best).key

theorem IsBest.unique {allowed : Symbol → Bool} {best other : Nat × Nat}
    (isBest : lexer.IsBest allowed matched best) (otherBest : lexer.IsBest allowed matched other) :
    other = best :=
  candidate_injective (le_antisymm (isBest.greatest other otherBest.member otherBest.symbol)
    (otherBest.greatest best isBest.member isBest.symbol))

theorem eq_of_mem_candidates : ∀ left ∈ matched.map lexer.candidate,
    ∀ right ∈ matched.map lexer.candidate, left.key = right.key → left = right := by
  simp only [List.mem_map]
  rintro _ ⟨left, -, rfl⟩ _ ⟨right, -, rfl⟩ same
  rw [candidate_injective same]

/-- If some match is allowed, the best one of those is found. -/
theorem exists_isBest {allowed : Symbol → Bool} {found : Nat × Nat} (member : found ∈ matched)
    (symbol : allowed (lexer.candidate found).symbol = true) :
    ∃ best, lexer.IsBest allowed matched best ∧
      Candidate.best? ((matched.map lexer.candidate).filter fun c => allowed c.symbol) =
        some (lexer.candidate best) := by
  have listed : lexer.candidate found ∈
      (matched.map lexer.candidate).filter fun c => allowed c.symbol :=
    List.mem_filter.2 ⟨List.mem_map_of_mem member, symbol⟩
  obtain ⟨best, same, bestMember, greatest⟩ := Candidate.exists_best (List.ne_nil_of_mem listed)
  obtain ⟨inside, bestSymbol⟩ := List.mem_filter.1 bestMember
  obtain ⟨place, placeMember, rfl⟩ := List.mem_map.1 inside
  refine ⟨place, ⟨placeMember, bestSymbol, fun other otherMember otherSymbol => ?_⟩, same⟩
  exact greatest _ (List.mem_filter.2 ⟨List.mem_map_of_mem otherMember, otherSymbol⟩)

/-! ## One pass over a report -/

/-- The best valid match and the best match so far, after one more. -/
def improveBoth (lexer : Lexer) (valid : SymbolSet) (best : Option Candidate × Option Candidate)
    (found : Nat × Nat) : Option Candidate × Option Candidate :=
  let candidate := lexer.candidate found
  (if valid.contains candidate.symbol then Candidate.improve best.1 candidate else best.1,
    Candidate.improve best.2 candidate)

/-- The best match, preferably a valid one, found in one pass. -/
def choose? (lexer : Lexer) (valid : SymbolSet) (matched : List (Nat × Nat)) : Option Candidate :=
  let best := matched.foldl (lexer.improveBoth valid) (none, none)
  best.1.or best.2

theorem foldl_improveBoth (matched : List (Nat × Nat))
    (best : Option Candidate × Option Candidate) :
    matched.foldl (lexer.improveBoth valid) best =
      (((matched.map lexer.candidate).filter fun c => valid.contains c.symbol).foldl
        Candidate.improve best.1,
        (matched.map lexer.candidate).foldl Candidate.improve best.2) := by
  induction matched generalizing best with
  | nil => rfl
  | cons found rest induction =>
      rw [List.foldl_cons, induction, List.map_cons, List.foldl_cons, List.filter_cons]
      unfold improveBoth
      dsimp only
      split <;> rfl

theorem choose?_eq (matched : List (Nat × Nat)) :
    lexer.choose? valid matched = lexer.bestMatch? valid matched := by
  unfold choose?
  rw [foldl_improveBoth]
  rfl

/-- The best valid match is chosen if there is one. -/
theorem choose?_of_valid {found : Nat × Nat} (member : found ∈ matched)
    (symbol : valid.contains (lexer.candidate found).symbol = true) :
    ∃ best, lexer.IsBest valid.contains matched best ∧
      lexer.choose? valid matched = some (lexer.candidate best) := by
  obtain ⟨best, isBest, same⟩ := exists_isBest member symbol
  exact ⟨best, isBest, by rw [choose?_eq, bestMatch?, same, Option.some_or]⟩

/-- Otherwise the best match is chosen if there is one. -/
theorem choose?_of_invalid {found : Nat × Nat} (member : found ∈ matched)
    (invalid : ∀ found ∈ matched, valid.contains (lexer.candidate found).symbol = false) :
    ∃ best, lexer.IsBest (fun _ => true) matched best ∧
      lexer.choose? valid matched = some (lexer.candidate best) := by
  obtain ⟨best, isBest, same⟩ := @exists_isBest lexer matched (fun _ => true) found member rfl
  have none : (matched.map lexer.candidate).filter (fun c => valid.contains c.symbol) = [] := by
    refine List.filter_eq_nil_iff.2 fun candidate inside => ?_
    obtain ⟨place, placeMember, rfl⟩ := List.mem_map.1 inside
    exact Bool.eq_false_iff.1 (invalid place placeMember)
  rw [List.filter_true] at same
  exact ⟨best, isBest, by rw [choose?_eq, bestMatch?, none, same]; rfl⟩

/-- The choice does not depend on the order of the report. -/
theorem choose?_perm {reported : List (Nat × Nat)} (same : reported.Perm matched) :
    lexer.choose? valid reported = lexer.choose? valid matched := by
  have candidates := same.map lexer.candidate
  rw [choose?_eq, choose?_eq, bestMatch?, bestMatch?,
    Candidate.best?_perm candidates eq_of_mem_candidates,
    Candidate.best?_perm (candidates.filter _) fun left leftInside right rightInside =>
      eq_of_mem_candidates left (List.mem_of_mem_filter leftInside) right
        (List.mem_of_mem_filter rightInside)]

/-! ## Any scan

The token is what it is for every scan that reports the matches, as is the place where parsing goes
on after an error.
-/

section Scans

variable {scan : Nat → Scan} {examined budget : Nat}

/-- The first character boundary from an offset on where a scan finds a match, or the end of the
text, together with the end of the bytes looked at.  At most `budget` offsets are tried. -/
def recoverWith (scan : Nat → Scan) (text : Text) (offset examined : Nat) : Nat → Nat × Nat
  | 0 => (text.size, examined)
  | budget + 1 =>
    if text.size ≤ offset then (text.size, examined)
    else if !text.isBoundary offset then recoverWith scan text (offset + 1) examined budget
    else if (scan offset).matched.isEmpty then
      recoverWith scan text (offset + 1) (max examined (scan offset).examined) budget
    else (offset, max examined (scan offset).examined)

/-- The token at a character boundary, as a scan reports the matches there and further on. -/
def tokenWith (lexer : Lexer) (scan : Nat → Scan) (text : Text) (offset : Nat) (valid : SymbolSet) :
    Token :=
  match lexer.choose? valid (scan offset).matched with
  | some best => matchToken offset (scan offset).examined best
  | none =>
    let (stop, examined) :=
      recoverWith scan text (offset + 1) (scan offset).examined (text.size - offset)
    ⟨.error, ⟨offset, stop⟩, max examined (stop + 1) - stop, true⟩

/-- Whether parsing can go on at a place: it is the first character boundary from an offset on where
a scan finds a match, or the end of the text if there is none. -/
structure Resumes (scan : Nat → Scan) (text : Text) (offset stop : Nat) : Prop where
  /-- It is not before the offset. -/
  after : offset ≤ stop
  /-- It is inside the text. -/
  inside : stop ≤ text.size
  /-- Something matches there unless it is the end of the text. -/
  matches_or : stop = text.size ∨ text.isBoundary stop = true ∧ (scan stop).matched ≠ []
  /-- Nothing matches before it. -/
  first : ∀ place, offset ≤ place → place < stop → text.isBoundary place = true →
    (scan place).matched = []

theorem Resumes.step {stop : Nat} (later : Resumes scan text (offset + 1) stop)
    (none : text.isBoundary offset = true → (scan offset).matched = []) :
    Resumes scan text offset stop := by
  obtain ⟨after, inside, reason, first⟩ := later
  refine ⟨(Nat.le_succ offset).trans after, inside, reason, fun place from_ before boundary => ?_⟩
  rcases from_.eq_or_lt with rfl | beyond
  · exact none boundary
  · exact first place beyond before boundary

theorem Resumes.atEnd (bound : offset ≤ text.size) (past : text.size ≤ offset) :
    Resumes scan text offset text.size :=
  ⟨bound, le_rfl, .inl rfl, fun _ after before _ =>
    absurd (past.trans after) (Nat.not_le.2 before)⟩

theorem recoverWith_resumes (bound : offset ≤ text.size) (enough : text.size ≤ offset + budget) :
    Resumes scan text offset (recoverWith scan text offset examined budget).1 := by
  induction budget generalizing offset examined with
  | zero => exact .atEnd bound enough
  | succ budget induction =>
      rw [recoverWith]
      split
      · next past => exact .atEnd bound past
      · next before =>
          have next : offset + 1 ≤ text.size := Nat.lt_of_not_le before
          have enough : text.size ≤ offset + 1 + budget := by omega
          split
          · next inner =>
              rw [Bool.not_eq_true'] at inner
              exact (induction next enough).step fun boundary => by simp [inner] at boundary
          · next boundary =>
              split
              · next unmatched =>
                  exact (induction next enough).step fun _ => List.isEmpty_iff.1 unmatched
              · next matched =>
                  refine ⟨le_rfl, bound, .inr ⟨by simpa using boundary, ?_⟩,
                    fun place after before _ => absurd before (Nat.not_lt.2 after)⟩
                  exact fun none => matched (List.isEmpty_iff.2 none)

/-- Recovery does what it does with the scan of the lexical rules. -/
theorem recoverWith_scan (lexer : Lexer) (text : Text) (offset examined budget : Nat) :
    recoverWith (lexer.grammar.lexicon.scan text) text offset examined budget =
      lexer.recoverFrom text offset examined budget := by
  induction budget generalizing offset examined with
  | zero => rfl
  | succ budget induction =>
      rw [recoverWith, recoverFrom, induction, induction]

/-- A token found without an external scanner is what it is with the scan of the lexical rules. -/
theorem next_eq_tokenWith (internal : lexer.external = none) (before : offset < text.size)
    (boundary : text.isBoundary offset = true) :
    lexer.next text offset valid =
      lexer.tokenWith (lexer.grammar.lexicon.scan text) text offset valid := by
  unfold next tokenAt
  rw [if_neg (Nat.not_le.2 before), internal]
  change lexer.lexicalToken text offset valid = _
  rw [lexicalToken_eq, ← choose?_eq]
  unfold tokenWith
  cases lexer.choose? valid (lexer.grammar.lexicon.scan text offset).matched with
  | some best => rfl
  | none =>
      change lexer.errorToken text offset _ = _
      rw [errorToken, if_pos boundary, recoverWith_scan]

/-- Scans that look equally far and report the same matches in any order give the same token. -/
theorem tokenWith_congr {report : Nat → Scan} (looked : ∀ place,
      (report place).examined = (scan place).examined)
    (same : ∀ place, (report place).matched.Perm (scan place).matched) :
    lexer.tokenWith report text offset valid = lexer.tokenWith scan text offset valid := by
  have recovered : ∀ offset examined budget,
      recoverWith report text offset examined budget =
        recoverWith scan text offset examined budget := by
    intro offset examined budget
    induction budget generalizing offset examined with
    | zero => rfl
    | succ budget induction =>
        have empty : (report offset).matched.isEmpty = (scan offset).matched.isEmpty := by
          rw [Bool.eq_iff_iff, List.isEmpty_iff_length_eq_zero, List.isEmpty_iff_length_eq_zero,
            (same offset).length_eq]
        rw [recoverWith, recoverWith, induction, induction, looked, empty]
  unfold tokenWith
  rw [choose?_perm (same offset), looked, recovered]

end Scans

/-- At a character boundary before the end of a text, without an external scanner: no match is
empty.  If some match has a valid symbol, there is one greatest match of those, and it is the token.
Otherwise, if there are matches, there is one greatest of all, and it is the token.  Otherwise the
token is an error up to the first later place where parsing can go on.  Every scan that looks
equally far and reports the same matches in any order gives the same token. -/
theorem next_chooses {lexer : Lexer} (internal : lexer.external = none) {text : Text} {offset : Nat}
    (before : offset < text.size) (boundary : text.isBoundary offset = true) (valid : SymbolSet) :
    let scan := lexer.grammar.lexicon.scan text
    let matched := (scan offset).matched
    let token := lexer.next text offset valid
    (∀ found ∈ matched, offset < found.2 ∧ found.2 ≤ text.size) ∧
    ((∃ found ∈ matched, valid.contains (lexer.candidate found).symbol = true) →
      (∃! best, lexer.IsBest valid.contains matched best) ∧
        ∀ best, lexer.IsBest valid.contains matched best →
          token = matchToken offset (scan offset).examined (lexer.candidate best)) ∧
    (matched ≠ [] → (∀ found ∈ matched, valid.contains (lexer.candidate found).symbol = false) →
      (∃! best, lexer.IsBest (fun _ => true) matched best) ∧
        ∀ best, lexer.IsBest (fun _ => true) matched best →
          token = matchToken offset (scan offset).examined (lexer.candidate best)) ∧
    (matched = [] → token.symbol = .error ∧ token.isError = true ∧ token.range.start = offset ∧
      Resumes scan text (offset + 1) token.range.stop) ∧
    ∀ report : Nat → Scan, (∀ place, (report place).examined = (scan place).examined) →
      (∀ place, (report place).matched.Perm (scan place).matched) →
      lexer.tokenWith report text offset valid = token := by
  intro scan matched token
  have same : token = lexer.tokenWith scan text offset valid :=
    next_eq_tokenWith internal before boundary
  have chosen : ∀ {allowed : Symbol → Bool} {best : Nat × Nat}, lexer.IsBest allowed matched best →
      lexer.choose? valid matched = some (lexer.candidate best) →
      (∃! best, lexer.IsBest allowed matched best) ∧
        ∀ best, lexer.IsBest allowed matched best →
          token = matchToken offset (scan offset).examined (lexer.candidate best) := by
    intro allowed best isBest choice
    refine ⟨⟨best, isBest, fun other otherBest => isBest.unique otherBest⟩,
      fun other otherBest => ?_⟩
    rw [same, tokenWith, choice, isBest.unique otherBest]
  refine ⟨fun found member => ?nonempty, ?preferred, ?any, ?error,
    fun report looked reported => ?order⟩
  case nonempty =>
    obtain ⟨after, inside, -⟩ := Scan.run_matched before.le member
    exact ⟨after, inside⟩
  case preferred =>
    rintro ⟨found, member, symbol⟩
    obtain ⟨best, isBest, choice⟩ := choose?_of_valid member symbol
    exact chosen isBest choice
  case any =>
    intro nonempty invalid
    obtain ⟨found, member⟩ := List.exists_mem_of_ne_nil matched nonempty
    obtain ⟨best, isBest, choice⟩ := choose?_of_invalid member invalid
    exact chosen isBest choice
  case error =>
    intro none
    have error : token = _ := same
    rw [tokenWith, show (scan offset).matched = [] from none] at error
    rw [error]
    exact ⟨rfl, rfl, rfl, recoverWith_resumes before (by omega)⟩
  case order => rw [same, tokenWith_congr looked reported]

end Lexer

/-- Names and a keyword that is also a name. -/
def Description.keyword : Description :=
  ⟨"keyword", [("start", .choice [.symbol "name", .string "if"]), ("name", .pattern "[a-z]+" none)],
    [], [], []⟩

/-- At the keyword both rules match, and the name is the token if only names are valid.  What follows
is an error up to the next name. -/
theorem next_chooses_keyword :
    ∃ compiled, Description.keyword.compile = .ok compiled ∧
      let lexer : Lexer := ⟨compiled.grammar, none⟩
      let text := Text.ofString "if?!x"
      let names := SymbolSet.singleton ⟨1⟩
      let scan := lexer.grammar.lexicon.scan text
      (scan 0).matched = [(0, 1), (0, 2), (1, 2)] ∧
        (lexer.next text 0 names).symbol = ⟨1⟩ ∧ (lexer.next text 0 names).range = ⟨0, 2⟩ ∧
        (∃! best, lexer.IsBest names.contains (scan 0).matched best) ∧
        lexer.tokenWith (fun place =>
            { scan place with matched := (scan place).matched.reverse }) text 0 names =
          lexer.next text 0 names ∧
        (lexer.next text 2 names).range = ⟨2, 4⟩ ∧
        Lexer.Resumes scan text 3 (lexer.next text 2 names).range.stop := by
  have computed : (Description.keyword.compile.toOption.any fun compiled =>
      let lexer : Lexer := ⟨compiled.grammar, none⟩
      let text := Text.ofString "if?!x"
      let names := SymbolSet.singleton ⟨1⟩
      let token := lexer.next text 0 names
      (lexer.grammar.lexicon.scan text 0).matched = [(0, 1), (0, 2), (1, 2)] ∧
        (lexer.grammar.lexicon.scan text 2).matched = [] ∧
        names.contains (lexer.candidate (0, 2)).symbol = true ∧
        token.symbol = ⟨1⟩ ∧ token.range = ⟨0, 2⟩ ∧ (lexer.next text 2 names).range = ⟨2, 4⟩) =
      true := by
    decide +kernel
  obtain ⟨compiled, made, facts⟩ := Except.exists_of_any computed
  simp only [decide_eq_true_eq] at facts
  obtain ⟨matched, unmatched, valid, symbol, range, skipped⟩ := facts
  refine ⟨compiled, made, ?_⟩
  intro lexer text names scan
  obtain ⟨-, preferred, -, -, anyOrder⟩ :=
    @Lexer.next_chooses lexer rfl text 0 (by decide) (by decide) names
  obtain ⟨-, -, -, error, -⟩ :=
    @Lexer.next_chooses lexer rfl text 2 (by decide) (by decide) names
  have listed : (0, 2) ∈ (scan 0).matched :=
    matched ▸ List.mem_cons_of_mem _ List.mem_cons_self
  exact ⟨matched, symbol, range, (preferred ⟨(0, 2), listed, valid⟩).1,
    anyOrder _ (fun _ => rfl) (fun place => List.reverse_perm _), skipped,
    (error unmatched).2.2.2⟩

end IncrementalGlr
