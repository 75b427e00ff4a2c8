import IncrementalGlr.Parse.Parser
import IncrementalGlr.Proofs.Coverage.Recovery

/-!
# Parses cover their texts

Every move of a version keeps what its stack spans equal to what it has passed.  So an accepted tree
is as long as the text, and so is the tree of a parse that is cut short.
-/

namespace IncrementalGlr

/-- The symbol of a lookahead inside a text is the end of the input only at the end of the text. -/
theorem Lookahead.Fits.atEnd {text : Text} {position : Nat} {lookahead : Lookahead}
    (fits : lookahead.Fits text position) (ended : lookahead.symbol = .endOfInput) :
    position = text.size := by
  cases lookahead with
  | token found lexState => exact Token.StandsAt.onlyAtEnd fits ended
  | reused subtree =>
      obtain ⟨⟨-, endFree⟩, -⟩ := fits
      simp only [symbol] at ended
      split at ended
      · exact absurd ended endFree.symbol
      · cases first : subtree.firstLeaf with
        | none =>
            rw [first] at ended
            exact absurd ended endFree.symbol
        | some leaf =>
            rw [first] at ended
            exact absurd ended (endFree.first leaf first)

theorem Version.Covers.forget {text : Text} {version : Version} (covers : version.Covers text) :
    Version.Covers text { version with lookahead := none } :=
  ⟨covers.stack, covers.bound, fun _ none => by cases none⟩

namespace ParseRun

variable {job : ParseJob} {version : Version} {lookahead : Lookahead}

/-- What a version looks at lies inside the text. -/
theorem looksAt_fits (inside : job.StaysInside) {reuse : Option ReuseCursor}
    (offered : ∀ cursor ∈ reuse, cursor.Fits job.text) (covers : version.Covers job.text)
    (looks : version.LooksAt job reuse lookahead) :
    lookahead.Fits job.text version.position := by
  cases looks with
  | pending found => exact covers.lookahead lookahead found
  | token unknown =>
      exact inside.findsTokens _ covers.bound _
  | part unknown reusing found usable =>
      exact ((offered _ reusing).later (.seek _ _ .refl)).candidate found

/-- The leaf of a lookahead takes the room of the lookahead. -/
theorem leafOf_whole (grammar : Grammar) (state : StateId) (extra : Bool) {text : Text}
    {position : Nat} (bound : position ≤ text.size) (fits : lookahead.Fits text position)
    (notEnd : lookahead.symbol ≠ .endOfInput) :
    (leafOf (m := Id) grammar state extra lookahead).IsWhole ∧
      position + (leafOf (m := Id) grammar state extra lookahead).length ≤ text.size := by
  cases lookahead with
  | token found lexState =>
      refine ⟨Subtree.isWhole_ofLeaf notEnd, ?_⟩
      have stands : found.StandsAt text position := fits
      exact (stands.length_eq bound).trans_le stands.inside
  | reused subtree => exact fits

theorem pushLeaf_covers (grammar : Grammar) (next : StateId) (extra : Bool) {text : Text}
    (covers : version.Covers text) (fits : lookahead.Fits text version.position)
    (notEnd : lookahead.symbol ≠ .endOfInput) :
    Version.Covers text (pushLeaf (m := Id) grammar version lookahead next extra) := by
  obtain ⟨whole, bound⟩ := leafOf_whole grammar version.state extra covers.bound fits notEnd
  exact ⟨covers.stack.push next whole, bound, fun _ none => by cases none⟩

theorem reduce_covers {grammar : Grammar} {text : Text} (covers : version.Covers text)
    {production : ProductionId} {fragile : Bool} {reduced : Version}
    (left : (grammar.production production).lhs ≠ .endOfInput)
    (result : reduce (m := Id) grammar version production fragile = some reduced) :
    reduced.Covers text := by
  unfold reduce at result
  dsimp only at result
  split at result
  · cases result
  · next children trailing below taken =>
      split at result
      · cases result
      · next next goto =>
          obtain rfl := Option.some.inj result
          have parts := ParseStack.takeChildren_subtrees taken
          obtain ⟨total, whole⟩ := covers.stack
          rw [← parts] at total whole
          rw [Subtree.totalLength_append, Subtree.totalLength_append] at total
          have belowSpans : below.Spans (Subtree.totalLength below.subtrees) :=
            ⟨rfl, fun subtree member =>
              whole subtree (List.mem_append_left _ (List.mem_append_left _ member))⟩
          have childrenWhole : ∀ child ∈ children, child.IsWhole := fun child member =>
            whole child (List.mem_append_left _ (List.mem_append_right _ member))
          have trailingWhole : ∀ extra ∈ trailing, extra.IsWhole := fun extra member =>
            whole extra (List.mem_append_right _ member)
          have pushed := fun (spec : NodeSpec) (symbol : spec.symbol ≠ .endOfInput) =>
            (belowSpans.push next (@Subtree.isWhole_ofChildren 0 spec symbol children
              childrenWhole)).pushAll next trailingWhole
          simp only [Subtree.length_ofChildren, total] at pushed
          exact ⟨pushed _ left, covers.bound, covers.lookahead⟩

/-- The tree of an accepted version is as long as its stack. -/
theorem foldRoot_whole {grammar : Grammar} (start : grammar.startSymbol ≠ .endOfInput)
    {subtrees : List Subtree} (whole : ∀ subtree ∈ subtrees, subtree.IsWhole) :
    (foldRoot (m := Id) grammar subtrees).IsWhole ∧
      (foldRoot (m := Id) grammar subtrees).length = Subtree.totalLength subtrees := by
  unfold foldRoot
  split
  · next root only =>
      have parts := ParseStack.split_of_filter only
      have member : root ∈ subtrees := (List.mem_filter.1 (only ▸ List.mem_singleton_self root)).1
      split
      · next single =>
          have alone : subtrees = [root] := by
            obtain ⟨first, rfl⟩ := List.length_eq_one_iff.1 (beq_iff_eq.1 single)
            rw [List.mem_singleton.1 member]
          rw [alone]
          exact ⟨whole root member, rfl⟩
      · split
        · exact ⟨Subtree.isWhole_ofChildren start whole, rfl⟩
        · next isNode =>
            have filled := (whole root member).1.filled (Bool.not_eq_true _ ▸ isNode)
            refine ⟨Subtree.isWhole_ofChildren (whole root member).2.symbol ?_, ?_⟩
            · intro child childMember
              rcases List.mem_append.1 childMember with before | after
              · rcases List.mem_append.1 before with before | inside
                · exact whole child ((List.takeWhile_prefix _).subset before)
                · exact (whole root member).child child inside
              · exact whole child
                  ((List.dropWhile_suffix _).subset (List.mem_of_mem_tail after))
            · have total := congrArg Subtree.totalLength parts
              rw [Subtree.totalLength_append, Subtree.totalLength_cons, filled] at total
              change Subtree.totalLength (_ ++ _ ++ _) = _
              rw [Subtree.totalLength_append, Subtree.totalLength_append, total, Nat.add_assoc]
  · exact ⟨Subtree.isWhole_ofChildren start whole, rfl⟩

theorem skipToken_covers (inside : job.StaysInside) (covers : version.Covers job.text)
    {token : Token} (first : (Recovery.window job version.position).head? = some token)
    (further : ((Recovery.window job version.position).getLast?).any Token.isEnd = false) :
    Version.Covers job.text (Recovery.skipToken (m := Id) job.grammar version token) := by
  obtain ⟨stop, side⟩ := Recovery.window_sideBySide inside.findsTokens covers.bound
  obtain ⟨stands, notEnd⟩ := side.head first further
  have leaf := List.forall_mem_singleton.2
    (@Recovery.isWhole_errorLeaf job.grammar version.state token notEnd)
  have pushed := @Recovery.pushError_spans job.grammar _ _ covers.stack _ leaf
  have length : version.position + Subtree.totalLength
      [Recovery.plainErrorLeaf job.grammar version.state token] = token.range.stop :=
    stands.length_eq covers.bound
  rw [length] at pushed
  exact ⟨pushed, stands.inside, fun _ none => by cases none⟩

theorem resume_covers (inside : job.StaysInside) (covers : version.Covers job.text)
    {resumption : Resume} {token : Token}
    (found : (Recovery.window job version.position)[resumption.skipped]? = some token) :
    Version.Covers job.text (Recovery.resume (m := Id) job.grammar version
      (Recovery.window job version.position) resumption token) := by
  obtain ⟨stop, side⟩ := Recovery.window_sideBySide inside.findsTokens covers.bound
  obtain ⟨stands, bound, sum, notEnd⟩ := side.before found
  have spans := @Recovery.resume_spans job.grammar _ _ covers.stack _ resumption token notEnd
  rw [sum] at spans
  refine ⟨spans, bound, fun lookahead known => ?_⟩
  cases known
  exact stands

theorem move_covers (inside : job.StaysInside) (covers : version.Covers job.text)
    (unknown : version.lookahead = none) (fits : lookahead.Fits job.text version.position)
    {moved : Version} (moves : version.Moves job lookahead moved) : moved.Covers job.text := by
  have looking : Version.Covers job.text { version with lookahead := some lookahead } := by
    refine ⟨covers.stack, covers.bound, fun known isKnown => ?_⟩
    cases isKnown
    exact fits
  cases moves with
  | shift action =>
      refine pushLeaf_covers _ _ _ covers fits fun ended => ?_
      rw [ended] at action
      exact inside.reserved.shift action
  | reduce action result => exact reduce_covers looking (inside.reserved.reduce action) result
  | extra noAction isExtra notEnd => exact pushLeaf_covers _ _ _ covers fits notEnd
  | adopt reused state goto =>
      subst reused
      refine ⟨covers.stack.push _ fits.1, fits.2, fun known isKnown => ?_⟩
      rw [show (Version.push version _ _).lookahead = none from unknown] at isKnown
      cases isKnown
  | reject reused => exact covers
  | resume noAction found at_ => exact resume_covers inside looking at_
  | skip noAction first further => exact skipToken_covers inside looking first further

theorem end_covers (inside : job.StaysInside) (covers : version.Covers job.text)
    (fits : lookahead.Fits job.text version.position) {root : Subtree}
    (ends : version.EndsIn job lookahead root) :
    root.IsWhole ∧ root.length = job.text.size := by
  obtain ⟨total, whole⟩ := covers.stack
  cases ends with
  | accept action =>
      obtain ⟨rootWhole, rootLength⟩ := foldRoot_whole inside.reserved.start whole
      exact ⟨rootWhole, rootLength.trans
        (total.trans (fits.atEnd (inside.reserved.accept action)))⟩
  | giveUp noAction ended =>
      obtain ⟨stop, side⟩ := Recovery.window_sideBySide inside.findsTokens covers.bound
      obtain ⟨rootWhole, rootLength⟩ := @Recovery.giveUp_whole job.grammar
        { version with lookahead := some lookahead } _ covers.stack inside.reserved.start
        (Recovery.window job version.position)
      exact ⟨rootWhole, rootLength.trans (side.total ended)⟩

/-- All moves keep stacks and positions in step, and all accepted trees are as long as the text. -/
theorem covers_preserved (inside : job.StaysInside) :
    Preserved job (Version.Covers job.text)
      (fun root => root.IsWhole ∧ root.length = job.text.size) (ReuseCursor.Fits job.text) where
  alike covers alike := by
    rw [Version.AlikeTo] at alike
    rw [alike]
    exact ⟨covers.stack, covers.bound, covers.lookahead⟩
  start := ⟨ParseStack.spans_nil, Nat.zero_le _, fun _ none => by cases none⟩
  move offered covers looks moves := by
    have fits := looksAt_fits inside offered covers looks
    exact move_covers inside covers.forget rfl fits moves
  finish offered covers looks ends := by
    have fits := looksAt_fits inside offered covers looks
    exact end_covers inside covers.forget fits ends
  later fits after := fits.later after

/-- Whatever a parse is left with, its tree is as long as the text. -/
theorem result_whole (inside : job.StaysInside) {run : ParseRun}
    (keeps : run.Keeps (Version.Covers job.text)
      (fun root => root.IsWhole ∧ root.length = job.text.size) (ReuseCursor.Fits job.text)) :
    (run.result (m := Id) job).IsWhole ∧
      (run.result (m := Id) job).length = job.text.size := by
  unfold result
  split
  · next best found => exact keeps.finished best (Rank.best?_mem found)
  · have best : Version.Covers job.text ((Rank.best? Version.rank run.versions).getD .start) := by
      cases found : Rank.best? Version.rank run.versions with
      | none => exact (covers_preserved inside).start
      | some version => exact keeps.versions version (Rank.best?_mem found)
    generalize (Rank.best? Version.rank run.versions).getD .start = best at best
    obtain ⟨⟨total, whole⟩, bound, -⟩ := best
    have rooted : ∀ errors : List Subtree, (∀ error ∈ errors, error.IsWhole) →
        Subtree.totalLength errors = job.text.size - best.position →
        Subtree.IsWhole (rootNode (m := Id) job.grammar (best.stack.subtrees ++ errors)) ∧
          Subtree.length (rootNode (m := Id) job.grammar (best.stack.subtrees ++ errors)) =
            job.text.size := by
      intro errors errorsWhole length
      constructor
      · exact Subtree.isWhole_ofChildren inside.reserved.start fun child member =>
          (List.mem_append.1 member).elim (whole child) (errorsWhole child)
      · change Subtree.totalLength (_ ++ errors) = _
        rw [Subtree.totalLength_append, total, length]
        omega
    dsimp only
    split
    · next none => exact rooted [] (fun _ none => absurd none List.not_mem_nil) none.symm
    · have notEnd : Symbol.error ≠ .endOfInput := by decide
      refine rooted [.ofLeaf 0 (.ofGrammar job.grammar .error (job.text.size - best.position) 0)]
        (List.forall_mem_singleton.2 (Subtree.isWhole_ofLeaf notEnd)) ?_
      rw [Subtree.totalLength_cons, Subtree.totalLength_nil]
      rfl

end ParseRun

/-- The tree of a parse is whole and as long as the text. -/
theorem Parser.runJob_whole {job : ParseJob} (inside : job.StaysInside) (options : ParseOptions)
    {reuse : Option ReuseCursor} (offered : ∀ cursor ∈ reuse, cursor.Fits job.text) :
    (runJob (m := Id) job options reuse).1.IsWhole ∧
      (runJob (m := Id) job options reuse).1.length = job.text.size := by
  have preserved := ParseRun.covers_preserved inside
  exact ParseRun.result_whole inside (preserved.runFor offered _ _ _)

end IncrementalGlr
