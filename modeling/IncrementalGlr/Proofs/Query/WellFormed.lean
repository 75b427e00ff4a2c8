import IncrementalGlr.Proofs.Query.Reading
import IncrementalGlr.Proofs.Tokens

/-!
# Well-formed queries

A text is refused with an error inside it, or it is compiled to a query whose patterns are finite
trees with known captures and whose predicates test captures of their own pattern.
-/

namespace IncrementalGlr

/-- The captures whose texts a predicate tests. -/
def Predicate.captures : Predicate → List Nat
  | equal capture (.capture other) _ => [capture, other]
  | equal capture (.text _) _ => [capture]
  | found capture _ _ => [capture]

/-- Whether tokens write a pattern, with names that belong to the numbers of captures. -/
structure CompiledPattern.IsWritten (captureNames : List String) (pattern : CompiledPattern)
    (tokens : List QueryToken) : Prop where
  /-- The pattern begins where the tokens begin. -/
  start : tokens.head?.map QueryToken.start = some pattern.start
  /-- Every capture that is tested stands after a step. -/
  written : ∃ names, WritesPattern (tokens.map QueryToken.kind) names ∧
    ∀ predicate ∈ pattern.predicates, ∀ number ∈ predicate.captures,
      ∃ name ∈ names, captureNames[number]? = some name

/-- Whether a query for trees of a grammar is in order, and is what tokens write. -/
structure CompiledQuery.WellFormed (grammar : Grammar) (tokens : List QueryToken)
    (query : CompiledQuery) : Prop where
  /-- A step is made of steps before it, and each is used once, by a step or by a pattern. -/
  forest : FlatStep.Forest query.steps (query.patterns.flatMap CompiledPattern.steps)
  /-- So each step is a tree made of the trees of the steps that it refers to. -/
  trees : ∀ (index : Nat) step, query.steps[index]? = some step →
    (FlatStep.trees query.steps)[index]? = some (step.tree (FlatStep.trees query.steps))
  /-- Every pattern has a step. -/
  steps : ∀ pattern ∈ query.patterns, pattern.steps ≠ []
  /-- The captures have distinct names. -/
  names : query.captureNames.Nodup
  /-- Every step records nodes under known captures. -/
  captures : ∀ (index : Nat) step, query.steps[index]? = some step →
    ∀ number ∈ step.captures, number < query.captureNames.length
  /-- Every predicate tests known captures. -/
  predicates : ∀ pattern ∈ query.patterns, ∀ predicate ∈ pattern.predicates,
    ∀ number ∈ predicate.captures, number < query.captureNames.length
  /-- Every step asks for nodes that a tree can show. -/
  tests : ∀ (index : Nat) step, query.steps[index]? = some step →
    ∀ test ∈ step.test?, test.Fits grammar
  /-- Every pattern begins after the one before it. -/
  starts : (query.patterns.map CompiledPattern.start).Pairwise (· < ·)
  /-- The tokens write the patterns, one after the other, and every capture that a predicate tests
  after a step of the same pattern. -/
  written : ∃ stretches, tokens = stretches.flatten ∧
    List.Forall₂ (CompiledPattern.IsWritten query.captureNames) query.patterns stretches

/-! ## Tokens -/

namespace QueryToken

theorem indexed_starts (offset : Nat) (chars : List Char) :
    ((indexed offset chars).map Prod.fst).Pairwise (· < ·) ∧
      ∀ start ∈ (indexed offset chars).map Prod.fst,
        offset ≤ start ∧ start < offset + (String.ofList chars).utf8ByteSize := by
  induction chars generalizing offset with
  | nil => exact ⟨.nil, nofun⟩
  | cons c rest induction =>
      have width := c.utf8Size_pos
      obtain ⟨increasing, bounds⟩ := induction (offset + c.utf8Size)
      rw [indexed, List.map_cons, List.pairwise_cons, List.forall_mem_cons, String.ofList_cons,
        String.utf8ByteSize_append, String.utf8ByteSize_singleton]
      refine ⟨⟨fun start member => ?_, increasing⟩, ⟨Nat.le_refl _, ?_⟩, fun start member => ?_⟩
      · have := (bounds start member).1
        dsimp only
        omega
      · dsimp only
        omega
      · have := bounds start member
        omega

/-- Whether tokens begin at characters in their order, and what is no token at one of them. -/
def AreFrom (chars : List (Nat × Char)) : Except QueryError (List QueryToken) → Prop :=
  Except.Meets (fun tokens => (tokens.map QueryToken.start).Sublist (chars.map Prod.fst))
    (fun error => error.offset ∈ chars.map Prod.fst)

theorem AreFrom.suffix {part chars : List (Nat × Char)}
    {outcome : Except QueryError (List QueryToken)} (later : part <:+ chars)
    (made : AreFrom part outcome) : AreFrom chars outcome :=
  have offsets := (List.IsSuffix.sublist later).map Prod.fst
  Except.Meets.imp made (fun _ found => found.trans offsets) fun _ member => offsets.subset member

theorem areFrom_ofChars (chars : List (Nat × Char)) : AreFrom chars (ofChars chars) := by
  fun_induction ofChars chars with
  | case1 => exact List.Sublist.slnil
  | case2 start c rest _ induction => exact induction.suffix (List.suffix_cons _ rest)
  | case3 start c rest _ _ induction =>
      exact induction.suffix ((List.dropWhile_suffix _).trans (List.suffix_cons _ rest))
  | case4 start c rest _ _ fault _ => exact List.mem_cons_self
  | case5 start c rest _ _ read _ induction =>
      have later : AreFrom rest (ofChars read.after) := induction.suffix read.isSuffix
      have narrow := later.imp (fun _ => id) fun error => List.mem_cons_of_mem start
      exact narrow.bind fun tokens found => found.cons_cons start

/-- The tokens of a text begin inside it, one after the other. -/
theorem ofString_meets (source : String) :
    Except.Meets
      (fun tokens => (tokens.map QueryToken.start).Pairwise (· < ·) ∧
        QueryReader.Within source.utf8ByteSize tokens)
      (fun error => error.offset ≤ source.utf8ByteSize) (ofString source) := by
  obtain ⟨increasing, bounds⟩ := indexed_starts 0 source.toList
  rw [String.ofList_toList, Nat.zero_add] at bounds
  refine (areFrom_ofChars (indexed 0 source.toList)).imp (fun tokens found => ?_)
    fun error member => Nat.le_of_lt (bounds _ member).2
  refine ⟨increasing.sublist found, fun token member => ?_⟩
  exact Nat.le_of_lt (bounds _ (found.subset (List.mem_map_of_mem member))).2

end QueryToken

/-! ## Predicates -/

namespace QueryDraft

variable {draft : QueryDraft} {stop : Nat}

/-- Whether a predicate tests captures of the pattern being read only. -/
def Allows (draft : QueryDraft) (predicate : Predicate) : Prop :=
  ∀ number ∈ predicate.captures, number ∈ draft.patternCaptures

theorem patternCapture_meets {name : String} {start : Nat} (inside : start ≤ stop) :
    Except.Meets (· ∈ draft.patternCaptures) (fun error => error.offset ≤ stop)
      (draft.patternCapture name start) := by
  unfold patternCapture
  split
  · split
    · next number _ known => exact List.contains_iff_mem.1 known
    · exact inside
  · exact inside

theorem search_meets {written : WrittenPredicate} {capture : Nat} {negated : Bool}
    {second : QueryToken} (known : capture ∈ draft.patternCaptures)
    (inside : written.start ≤ stop) :
    Except.Meets draft.Allows (fun error => error.offset ≤ stop)
      (search written capture negated second) := by
  unfold search
  split
  · split
    · exact List.forall_mem_singleton.2 known
    · exact inside
  · exact inside

theorem equality_meets {capture : Nat} {negated : Bool} {second : QueryToken}
    (known : capture ∈ draft.patternCaptures) (inside : second.start ≤ stop) :
    Except.Meets draft.Allows (fun error => error.offset ≤ stop)
      (draft.equality capture negated second) := by
  unfold equality
  split
  · refine (patternCapture_meets inside).bind fun other knownOther => ?_
    exact List.forall_mem_cons.2 ⟨known, List.forall_mem_singleton.2 knownOther⟩
  · exact List.forall_mem_singleton.2 known
  · exact inside

theorem meaning_meets {written : WrittenPredicate} (inside : written.start ≤ stop)
    (arguments : ∀ argument ∈ written.arguments, argument.start ≤ stop) :
    Except.Meets draft.Allows (fun error => error.offset ≤ stop) (draft.meaning written) := by
  unfold meaning
  split
  · exact inside
  · split
    · next first second same =>
        rw [same] at arguments
        obtain ⟨here, there⟩ := List.forall_mem_cons.1 arguments
        split
        · refine (patternCapture_meets here).bind fun capture known => ?_
          split
          · exact search_meets known inside
          · exact equality_meets known (there second List.mem_cons_self)
        · exact inside
    · exact inside

end QueryDraft

/-! ## Patterns -/

theorem WritesAtom.ne_nil {kinds : List QueryTokenKind} {names : List String}
    (written : WritesAtom kinds names) : kinds ≠ [] := by
  cases written <;> exact List.cons_ne_nil _ _

theorem WritesPattern.ne_nil {kinds : List QueryTokenKind} {names : List String}
    (written : WritesPattern kinds names) : kinds ≠ [] := by
  obtain ⟨step, -⟩ := written
  exact List.append_ne_nil_of_left_ne_nil step.ne_nil _

namespace CompiledPattern

variable {captureNames more : List String}

theorem IsWritten.mono {pattern : CompiledPattern} {tokens : List QueryToken}
    (written : pattern.IsWritten captureNames tokens) (longer : captureNames <+: more) :
    pattern.IsWritten more tokens := by
  obtain ⟨start, names, kinds, tested⟩ := written
  refine ⟨start, names, kinds, fun predicate member number among => ?_⟩
  obtain ⟨name, known, found⟩ := tested predicate member number among
  exact ⟨name, known, getElem?_of_prefix longer found⟩

/-- Patterns begin where their tokens begin, and so in the order of these. -/
theorem starts_sublist {patterns : List CompiledPattern} {stretches : List (List QueryToken)}
    (written : List.Forall₂ (IsWritten captureNames) patterns stretches) :
    (patterns.map start).Sublist (stretches.flatten.map QueryToken.start) := by
  induction written with
  | nil => exact List.Sublist.slnil
  | @cons pattern stretch patterns stretches here _ induction =>
      have begins := here.start
      cases stretch with
      | nil => cases begins
      | cons token rest =>
          rw [List.flatten_cons, List.cons_append, List.map_cons, List.map_cons, List.map_append,
            ← Option.some.inj begins]
          exact (induction.trans (List.sublist_append_right _ _)).cons_cons token.start

theorem tested_lt {patterns : List CompiledPattern} {stretches : List (List QueryToken)}
    (written : List.Forall₂ (IsWritten captureNames) patterns stretches) :
    ∀ pattern ∈ patterns, ∀ predicate ∈ pattern.predicates, ∀ number ∈ predicate.captures,
      number < captureNames.length := by
  induction written with
  | nil => exact nofun
  | cons here _ induction =>
      refine List.forall_mem_cons.2 ⟨fun predicate member number among => ?_, induction⟩
      obtain ⟨-, names, -, tested⟩ := here
      obtain ⟨name, -, found⟩ := tested predicate member number among
      exact (List.getElem?_eq_some_iff.1 found).1

end CompiledPattern

namespace QueryReader

variable {grammar : Grammar} {stop : Nat} {tokens : List QueryToken} {draft : QueryDraft}
  {roots : List Nat}

/-- Whether an outcome is the steps of a pattern, of which there is one at least, written as a
single step or as siblings, or an error inside the text. -/
def UnderstandsRoots (grammar : Grammar) (stop : Nat) (tokens : List QueryToken)
    (draft : QueryDraft) (roots : List Nat) {limit : Nat} :
    Except QueryError (QueryPart limit (List Nat)) → Prop :=
  Except.Meets
    (fun part => Reads WritesAtom tokens draft part.rest part.draft ∧
      part.draft.Sound grammar stop (part.value ++ roots) ∧ part.value ≠ [])
    (fun error => error.offset ≤ stop)

theorem single_meets (loaded : grammar.IsLoaded) (inside : Within stop tokens)
    (sound : draft.Sound grammar stop roots) :
    UnderstandsRoots grammar stop tokens draft roots (single grammar stop tokens draft) := by
  refine Except.Meets.bind (atom_meets loaded tokens draft roots inside sound) ?_
  rintro ⟨step, rest, after, fewer⟩ ⟨reads, kept⟩
  exact ⟨reads, kept, List.cons_ne_nil step []⟩

theorem siblings_meets (loaded : grammar.IsLoaded) {start : Nat}
    (inside : Within stop (⟨.openParen, start⟩ :: tokens))
    (sound : draft.Sound grammar stop roots) :
    UnderstandsRoots grammar stop (⟨.openParen, start⟩ :: tokens) draft roots
      (siblings grammar stop start tokens draft) := by
  obtain ⟨before, behind⟩ := within_cons.1 inside
  refine Except.Meets.bind (items_meets loaded tokens draft roots behind sound) ?_
  rintro ⟨items, others, after, fewer⟩ ⟨reads, kept⟩
  refine (close_meets (reads.within behind)).bind ?_
  rintro ⟨last, closed⟩ ⟨ending, same⟩
  dsimp only
  split
  · exact before
  · next present =>
      exact ⟨reads.enclosed [_] same .group, kept, fun none => present (List.isEmpty_iff.2 none)⟩

theorem roots_meets (loaded : grammar.IsLoaded) (inside : Within stop tokens)
    (sound : draft.Sound grammar stop roots) :
    UnderstandsRoots grammar stop tokens draft roots
      (QueryReader.roots grammar stop tokens draft) := by
  unfold QueryReader.roots
  split
  · split
    · exact siblings_meets loaded inside sound
    · exact single_meets loaded inside sound
  · exact single_meets loaded inside sound

theorem pattern_meets (loaded : grammar.IsLoaded) (inside : Within stop tokens)
    (sound : draft.Sound grammar stop roots) :
    Except.Meets
      (fun part => ∃ stretch, tokens = stretch ++ part.rest ∧
        part.value.IsWritten part.draft.captureNames stretch ∧ part.value.steps ≠ [] ∧
        draft.captureNames <+: part.draft.captureNames ∧
        part.draft.Sound grammar stop (part.value.steps ++ roots))
      (fun error => error.offset ≤ stop) (pattern grammar stop tokens draft) := by
  unfold pattern
  refine (roots_meets loaded inside sound.fresh).bind ?_
  rintro ⟨steps, rest, between, before⟩ ⟨reads, kept, present⟩
  dsimp only at reads kept ⊢
  split
  · exact (reads.within inside).offset_le
  · obtain ⟨-, readsOwn, recorded⟩ := captures_reads (steps.headD 0) before kept
    generalize captures (steps.headD 0) rest before between = captured at readsOwn recorded ⊢
    obtain ⟨_, last, after, fewer⟩ := captured
    obtain ⟨stretch, names, same, written, goesOn⟩ := reads.append readsOwn WritesPattern.intro
    refine (Except.meets_mapM fun predicate member => QueryDraft.meaning_meets
      (recorded.predicates predicate member).1 (recorded.predicates predicate member).2).bind
        fun predicates allowed => ?_
    refine ⟨stretch, same, ⟨?_, names, written, fun predicate member number among => ?_⟩, present,
      goesOn.captureNames, recorded⟩
    · cases stretch with
      | nil => exact absurd rfl written.ne_nil
      | cons token others =>
          have begins : offset stop tokens = token.start := same ▸ rfl
          exact congrArg some begins.symm
    · exact (goesOn.patternCaptures number (allowed predicate member number among)).resolve_left
        List.not_mem_nil

/-- The tokens of a text write its patterns, one after the other. -/
theorem patterns_meets (loaded : grammar.IsLoaded) (inside : Within stop tokens)
    (sound : draft.Sound grammar stop roots) :
    Except.Meets
      (fun (patterns, after) => ∃ stretches, tokens = stretches.flatten ∧
        List.Forall₂ (CompiledPattern.IsWritten after.captureNames) patterns stretches ∧
        (∀ pattern ∈ patterns, pattern.steps ≠ []) ∧
        draft.captureNames <+: after.captureNames ∧
        after.Sound grammar stop (patterns.flatMap CompiledPattern.steps ++ roots))
      (fun error => error.offset ≤ stop) (patterns grammar stop tokens draft) := by
  fun_induction patterns grammar stop tokens draft generalizing roots with
  | case1 tokens draft none =>
      exact ⟨[], List.isEmpty_iff.1 none, .nil, nofun, List.prefix_rfl, sound⟩
  | case2 tokens draft _ induction =>
      refine (pattern_meets loaded inside sound).bind ?_
      rintro ⟨first, rest, between, fewer⟩ ⟨stretch, whole, written, present, longer, kept⟩
      have behind : Within stop rest := fun token member =>
        inside token (whole ▸ List.mem_append_right stretch member)
      refine (induction rest between fewer behind kept).bind ?_
      rintro ⟨others, after⟩ ⟨stretches, same, writtenOthers, presentOthers, further, keptOthers⟩
      refine ⟨stretch :: stretches, whole.trans (congrArg _ same),
        .cons (written.mono further) writtenOthers,
        List.forall_mem_cons.2 ⟨present, presentOthers⟩, longer.trans further, ?_⟩
      rw [List.flatMap_cons, List.append_assoc]
      exact keptOthers.perm (List.perm_append_comm_assoc _ _ _)

end QueryReader

/-! ## Queries -/

theorem CompiledQuery.ofString_meets {grammar : Grammar} (loaded : grammar.IsLoaded)
    (source : String) :
    Except.Meets
      (fun query => ∃ tokens, QueryToken.ofString source = .ok tokens ∧
        query.WellFormed grammar tokens)
      (fun error => error.offset ≤ source.utf8ByteSize) (ofString grammar source) := by
  have meets := QueryToken.ofString_meets source
  unfold ofString
  cases read : QueryToken.ofString source with
  | error error =>
      rw [read] at meets
      exact meets
  | ok tokens =>
      rw [read] at meets
      obtain ⟨increasing, inside⟩ := meets
      refine (QueryReader.patterns_meets loaded inside QueryDraft.sound_empty).bind ?_
      rintro ⟨patterns, draft⟩ ⟨stretches, whole, written, present, -, sound⟩
      rw [List.append_nil] at sound
      exact ⟨tokens, rfl, {
        forest := sound.forest
        trees := fun _ _ => FlatStep.trees_eq sound.forest.earlier
        steps := present
        names := sound.names
        captures := sound.captures
        predicates := CompiledPattern.tested_lt written
        tests := sound.tests
        starts := increasing.sublist (whole ▸ CompiledPattern.starts_sublist written)
        written := ⟨stretches, whole, written⟩ }⟩

/-- A text is compiled to a query that is in order, or refused with an error inside it. -/
theorem Query.compile_wellFormed {data : GrammarData} {checksum : UInt32} {grammar : Grammar}
    (made : Grammar.withChecksum data checksum = .ok grammar) (source : String) :
    (∃ tokens query, QueryToken.ofString source = .ok tokens ∧
      CompiledQuery.ofString grammar source = .ok query ∧ query.WellFormed grammar tokens ∧
      compile grammar source = .ok (query.toQuery grammar.checksum)) ∨
    ∃ error, CompiledQuery.ofString grammar source = .error error ∧
      compile grammar source = .error error ∧ error.offset ≤ source.utf8ByteSize := by
  have meets := CompiledQuery.ofString_meets (Grammar.isLoaded_of_withChecksum made).2 source
  unfold compile
  cases outcome : CompiledQuery.ofString grammar source with
  | ok query =>
      rw [outcome] at meets
      obtain ⟨tokens, read, wellFormed⟩ := meets
      exact .inl ⟨tokens, query, read, rfl, wellFormed, rfl⟩
  | error error =>
      rw [outcome] at meets
      exact .inr ⟨error, rfl, rfl, meets⟩

/-- A repetition with a capture inside a node, and an alternation with the same capture. -/
theorem Query.compile_wellFormed_letters : ∃ grammar, Grammar.ofData .letters = .ok grammar ∧
    ∃ tokens query, CompiledQuery.ofString grammar
        "(text (word)* @w (#eq? @w \"b\")) @all [(_) _] @w" = .ok query ∧
      query.WellFormed grammar tokens ∧ query.captureNames = ["w", "all"] ∧
      query.patterns.map CompiledPattern.steps = [[2], [5]] ∧
      query.patterns.map CompiledPattern.start = [0, 37] := by
  have computed : ((Grammar.ofData .letters).toOption.any fun grammar =>
      (CompiledQuery.ofString grammar
        "(text (word)* @w (#eq? @w \"b\")) @all [(_) _] @w").toOption.any fun query =>
          query.captureNames = ["w", "all"] ∧
            query.patterns.map CompiledPattern.steps = [[2], [5]] ∧
            query.patterns.map CompiledPattern.start = [0, 37]) = true := by
    decide +kernel
  obtain ⟨grammar, loaded, compiles⟩ := Except.exists_of_any computed
  obtain ⟨query, compiled, shape⟩ := Except.exists_of_any compiles
  refine ⟨grammar, loaded, ?_⟩
  rcases compile_wellFormed loaded "(text (word)* @w (#eq? @w \"b\")) @all [(_) _] @w" with
    ⟨tokens, other, -, same, wellFormed, -⟩ | ⟨error, refused, -⟩
  · cases compiled.symm.trans same
    exact ⟨tokens, query, compiled, wellFormed, of_decide_eq_true shape⟩
  · cases compiled.symm.trans refused

end IncrementalGlr
