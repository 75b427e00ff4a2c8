import IncrementalGlr.Proofs.Coverage.Recovery
import IncrementalGlr.Proofs.Derivation.Recovery
import IncrementalGlr.Proofs.Reparsing.Replay

/-!
# Stacks over a text

The subtrees on a stack stand side by side from the start of the text on, and those without errors
are grown where they stand.  Recovery keeps it so: what it takes from the stack and the tokens that
it skips become an error over the same part of the text.
-/

namespace IncrementalGlr

namespace Subtree

variable {lexer : Lexer} {plain : PlainGrammar} {text : Text} {start : Nat} {subtree : Subtree}
  {subtrees : List Subtree}

theorem Built.filled (built : subtree.Built) (isNode : subtree.isLeaf = false) :
    subtree.length = totalLength subtree.children := by
  cases built with
  | token => cases isNode
  | node => rfl

theorem AllSound.flatten (sound : AllSound lexer plain text start subtrees) :
    AllSound lexer plain text start (Recovery.flatten subtrees) ∧
      totalLength (Recovery.flatten subtrees) = totalLength subtrees := by
  induction subtrees generalizing start with
  | nil => exact ⟨nofun, rfl⟩
  | cons child rest induction =>
      obtain ⟨first, others⟩ := allSound_cons.1 sound
      obtain ⟨restSound, restTotal⟩ := induction others
      have here : AllSound lexer plain text start
            (if child.isError && !child.isLeaf then child.children else [child]) ∧
          totalLength (if child.isError && !child.isLeaf then child.children else [child]) =
            child.length := by
        split
        · next isNode =>
            simp only [Bool.and_eq_true, Bool.not_eq_true'] at isNode
            exact ⟨first.under, (first.built.filled isNode.2).symm⟩
        · exact ⟨allSound_singleton.2 first, rfl⟩
      rw [Recovery.flatten, List.flatMap_cons, allSound_append, totalLength_append, here.2,
        totalLength_cons, ← Recovery.flatten, restTotal]
      exact ⟨⟨here.1, restSound⟩, rfl⟩

theorem AllSound.built (sound : AllSound lexer plain text start subtrees) :
    ∀ subtree ∈ subtrees, subtree.Built := by
  intro subtree member
  obtain ⟨index, found⟩ := List.getElem?_of_mem member
  exact (sound ⟨subtree, _⟩ (mem_placed.2 ⟨index, found, rfl⟩)).built

/-- An error is sound wherever what it covers is. -/
theorem AllSound.errorNode (sound : AllSound lexer plain text start subtrees) (grammar : Grammar) :
    Sound lexer plain text start (Recovery.errorNode (m := Id) grammar subtrees) ∧
      Subtree.length (Recovery.errorNode (m := Id) grammar subtrees) = totalLength subtrees := by
  obtain ⟨flat, total⟩ := sound.flatten
  refine ⟨.mk (.node _ _ flat.built) (fun clean => absurd clean ?_) flat, total⟩
  change (decide (Symbol.error = .error)).toNat + _ ≠ 0
  simp

end Subtree

namespace ParseStack

variable {lexer : Lexer} {plain : PlainGrammar} {text : Text} {length : Nat} {stack : ParseStack}

/-- Whether the subtrees on a stack are sound, one after the other from the start of a text on, and
together of a length. -/
structure Stands (lexer : Lexer) (plain : PlainGrammar) (text : Text) (length : Nat)
    (stack : ParseStack) : Prop where
  /-- Their length. -/
  total : Subtree.totalLength stack.subtrees = length
  /-- They are sound there. -/
  parts : Subtree.AllSound lexer plain text 0 stack.subtrees

theorem stands_nil : Stands lexer plain text 0 [] := ⟨rfl, nofun⟩

theorem Stands.pushAll (stands : stack.Stands lexer plain text length) (state : StateId)
    {subtrees : List Subtree} (sound : Subtree.AllSound lexer plain text length subtrees) :
    (stack.pushAll state subtrees).Stands lexer plain text
      (length + Subtree.totalLength subtrees) := by
  constructor
  · rw [subtrees_pushAll, Subtree.totalLength_append, stands.total]
  · rw [subtrees_pushAll, Subtree.allSound_append, Nat.zero_add, stands.total]
    exact ⟨stands.parts, sound⟩

theorem Stands.push (stands : stack.Stands lexer plain text length) (state : StateId)
    {subtree : Subtree} (sound : subtree.Sound lexer plain text length) :
    Stands lexer plain text (length + subtree.length) (⟨state, subtree⟩ :: stack) :=
  stands.pushAll state (Subtree.allSound_singleton.2 sound)

/-- The part of a stack under what stands on top of it. -/
theorem Stands.below (stands : stack.Stands lexer plain text length) {under : ParseStack}
    {above : List Subtree} (parts : under.subtrees ++ above = stack.subtrees) :
    under.Stands lexer plain text (Subtree.totalLength under.subtrees) ∧
      Subtree.AllSound lexer plain text (Subtree.totalLength under.subtrees) above ∧
      Subtree.totalLength under.subtrees + Subtree.totalLength above = length := by
  obtain ⟨total, sound⟩ := stands
  rw [← parts, Subtree.totalLength_append] at total
  rw [← parts, Subtree.allSound_append, Nat.zero_add] at sound
  exact ⟨⟨rfl, sound.1⟩, sound.2, total⟩

/-- A sound node takes the place of what was taken from a stack, under the extras on it. -/
theorem Stands.fold (stands : stack.Stands lexer plain text length) {below : ParseStack}
    {taken extras : List Subtree} (parts : below.subtrees ++ taken ++ extras = stack.subtrees)
    {node : Subtree} (filled : node.length = Subtree.totalLength taken)
    (sound : node.Sound lexer plain text (Subtree.totalLength below.subtrees)) (next : StateId) :
    Stands lexer plain text length
      (ParseStack.pushAll (⟨next, node⟩ :: below) next extras) := by
  obtain ⟨under, above, sum⟩ := stands.below ((List.append_assoc _ _ _).symm.trans parts)
  rw [Subtree.allSound_append] at above
  have pushed := under.push next sound
  rw [filled] at pushed
  have whole := pushed.pushAll next above.2
  rwa [Nat.add_assoc, ← Subtree.totalLength_append, sum] at whole

end ParseStack

namespace Recovery

variable {grammar : Grammar} {lexer : Lexer} {plain : PlainGrammar} {text : Text} {length : Nat}
  {version : Version}

/-- Subtrees that become an error stand on the stack as it. -/
theorem pushError_stands (stands : version.stack.Stands lexer plain text length)
    {children : List Subtree} (sound : Subtree.AllSound lexer plain text length children) :
    ParseStack.Stands lexer plain text (length + Subtree.totalLength children)
      (Version.stack (pushError (m := Id) grammar version children)) := by
  obtain ⟨stack, position, lookahead, path⟩ := version
  cases children with
  | nil => exact stands
  | cons child rest =>
      obtain ⟨error, total⟩ := sound.errorNode grammar
      have pushed := stands.push (ParseStack.state stack) error
      rw [total] at pushed
      cases stack with
      | nil => exact pushed
      | cons entry below =>
          unfold pushError
          dsimp only
          rw [if_neg (by simp)]
          split
          · obtain ⟨under, top, sum⟩ := stands.below (@ParseStack.subtrees_cons below entry).symm
            have single : Subtree.totalLength [entry.subtree] = entry.subtree.length := rfl
            rw [single] at sum
            have joined := Subtree.allSound_cons.2
              ⟨Subtree.allSound_singleton.1 top, by rw [sum]; exact sound⟩
            obtain ⟨larger, largerTotal⟩ := joined.errorNode grammar
            have replaced := under.push (ParseStack.state below) larger
            rw [largerTotal, Subtree.totalLength_cons, ← Nat.add_assoc, sum] at replaced
            exact replaced
          · exact pushed

end Recovery

/-! ## Tokens that are skipped -/

namespace Lexer

variable {lexer : Lexer} {text : Text} {offset stop : Nat}

/-- Whether tokens are those of a text from an offset on up to another one, and none of them is the
end of the input. -/
inductive Reads (lexer : Lexer) (text : Text) : Nat → List Token → Nat → Prop
  /-- There are none. -/
  | nil {offset : Nat} : Reads lexer text offset [] offset
  /-- There is one at the offset. -/
  | cons {offset stop : Nat} {rest : List Token}
      (notEnd : (lexer.plainToken text offset).symbol ≠ .endOfInput)
      (later : Reads lexer text (offset + (lexer.plainToken text offset).length) rest stop) :
    Reads lexer text offset (lexer.plainToken text offset :: rest) stop

theorem Reads.append {left right : List Token}
    (reads : Reads lexer text offset (left ++ right) stop) :
    ∃ middle, Reads lexer text offset left middle ∧ Reads lexer text middle right stop := by
  induction left generalizing offset with
  | nil => exact ⟨offset, .nil, reads⟩
  | cons token rest induction =>
      rw [List.cons_append] at reads
      cases reads with
      | cons notEnd later =>
          obtain ⟨middle, first, second⟩ := induction later
          exact ⟨middle, .cons notEnd first, second⟩

theorem Reads.sum {tokens : List Token} (reads : Reads lexer text offset tokens stop) :
    offset + (tokens.map Token.length).sum = stop := by
  induction reads with
  | nil => rfl
  | cons notEnd later induction => rw [List.map_cons, List.sum_cons, ← Nat.add_assoc, induction]

end Lexer

section Steady

variable {job : ParseJob} {plain : PlainGrammar} (steady : job.Steady)
  (terminals : ∀ symbol, plain.isTerminal symbol = job.lexer.grammar.data.isTerminal symbol)

include steady

theorem Lexer.Reads.boundary {tokens : List Token} {offset stop : Nat}
    (reads : job.lexer.Reads job.text offset tokens stop)
    (boundary : job.text.isBoundary offset = true) : job.text.isBoundary stop = true := by
  induction reads with
  | nil => exact boundary
  | cons notEnd later induction =>
      exact induction (boundary_plainToken steady.internal steady.filled.toIsLoaded
        steady.wellFormed boundary notEnd)

omit steady in
theorem Recovery.tokensFrom_succ (job : ParseJob) (limit offset count : Nat) :
    let token := job.lexer.plainToken job.text offset
    tokensFrom job limit offset (count + 1) =
      if token.isEnd || token.range.isEmpty || limit ≤ token.range.stop then [token]
      else token :: tokensFrom job limit token.range.stop count := rfl

/-- The tokens before one that is looked at after an error are all read. -/
theorem Recovery.reads_window {position count : Nat}
    (boundary : job.text.isBoundary position = true) {token : Token}
    (found : (window job position)[count]? = some token) :
    token = job.lexer.plainToken job.text token.range.start ∧
      job.text.isBoundary token.range.start = true ∧
      job.lexer.Reads job.text position ((window job position).take count) token.range.start := by
  unfold window at found ⊢
  generalize position + maxBytes = limit at found ⊢
  generalize maxTokens = budget at found ⊢
  induction budget generalizing position count with
  | zero => cases found
  | succ budget induction =>
      have bound := Text.le_size_of_isBoundary boundary
      have loaded := steady.filled.toIsLoaded
      have stands : (job.lexer.plainToken job.text position).StandsAt job.text position :=
        Lexer.standsAt_of_internal loaded steady.internal bound .errorMode
      rw [tokensFrom_succ] at found ⊢
      cases count with
      | zero =>
          obtain rfl : job.lexer.plainToken job.text position = token := by
            split at found <;> exact Option.some.inj found
          rw [stands.start]
          exact ⟨rfl, boundary, .nil⟩
      | succ count =>
          split at found
          · cases found
          · next further =>
              rw [if_neg further, List.take_succ_cons]
              have notEnd : (job.lexer.plainToken job.text position).symbol ≠ .endOfInput := by
                intro ended
                simp [Token.isEnd, ended] at further
              have next := Lexer.boundary_plainToken steady.internal loaded steady.wellFormed
                boundary notEnd
              rw [← stands.length_eq bound] at found ⊢
              obtain ⟨same, start, reads⟩ := induction next found
              exact ⟨same, start, .cons notEnd reads⟩

/-- So are all tokens that are looked through, up to the end of the input. -/
theorem Recovery.exists_reads_window {position : Nat}
    (boundary : job.text.isBoundary position = true) :
    ∃ stop, job.lexer.Reads job.text position
      ((window job position).filter fun token => !token.isEnd) stop := by
  unfold window
  generalize position + maxBytes = limit
  generalize maxTokens = budget
  induction budget generalizing position with
  | zero => exact ⟨position, .nil⟩
  | succ budget induction =>
      rw [tokensFrom_succ]
      cases ended : (job.lexer.plainToken job.text position).isEnd with
      | true =>
          rw [if_pos (by simp), List.filter_singleton, ended]
          exact ⟨position, .nil⟩
      | false =>
          have notEnd : (job.lexer.plainToken job.text position).symbol ≠ .endOfInput := by
            intro same
            simp [Token.isEnd, same] at ended
          have loaded := steady.filled.toIsLoaded
          have bound := Text.le_size_of_isBoundary boundary
          have stands : (job.lexer.plainToken job.text position).StandsAt job.text position :=
            Lexer.standsAt_of_internal loaded steady.internal bound .errorMode
          split
          · rw [List.filter_singleton, ended]
            exact ⟨_, .cons notEnd .nil⟩
          · have next := Lexer.boundary_plainToken steady.internal loaded steady.wellFormed
              boundary notEnd
            obtain ⟨stop, reads⟩ := induction next
            rw [stands.length_eq bound] at reads
            rw [List.filter_cons, ended]
            exact ⟨stop, .cons notEnd (by rwa [stands.length_eq bound])⟩

include terminals

/-- A token that is no error is grown where it is found. -/
theorem Subtree.grown_token {offset : Nat} (boundary : job.text.isBoundary offset = true)
    (good : (job.lexer.plainToken job.text offset).isError = false)
    (notEnd : (job.lexer.plainToken job.text offset).symbol ≠ .endOfInput) {spec : LeafSpec}
    (symbol : spec.symbol = (job.lexer.plainToken job.text offset).symbol)
    (length : spec.length = (job.lexer.plainToken job.text offset).length)
    (lookahead : spec.lookahead = (job.lexer.plainToken job.text offset).lookahead)
    (extra : spec.extra = job.lexer.grammar.isExtra spec.symbol) :
    Grown job.lexer plain job.text offset (.ofLeaf 0 spec) := by
  have loaded := steady.filled.toIsLoaded
  have decides := Lexer.decides_plainToken steady.internal loaded steady.ahead boundary
  dsimp only at decides
  rw [← symbol, ← length, ← lookahead] at decides
  refine .token decides ?_ (symbol ▸ notEnd) extra
  rw [symbol, terminals]
  rcases Lexer.plainToken_terminal steady.internal loaded job.text offset with
    ⟨-, terminal⟩ | ⟨bad, -⟩
  · exact terminal
  · exact absurd (good.symm.trans bad) Bool.false_ne_true

/-- Tokens inside an error are sound. -/
theorem Recovery.allSound_errorLeaves {tokens : List Token} {length stop : Nat}
    (boundary : job.text.isBoundary length = true)
    (reads : job.lexer.Reads job.text length tokens stop) (state : StateId) :
    Subtree.AllSound job.lexer plain job.text length
      (tokens.map (plainErrorLeaf job.lexer.grammar state)) := by
  induction reads with
  | nil => exact nofun
  | @cons offset stop rest notEnd later induction =>
      have next := Lexer.boundary_plainToken steady.internal steady.filled.toIsLoaded
        steady.wellFormed boundary notEnd
      refine Subtree.allSound_cons.2 ⟨.mk (.token _ _) (fun clean => ?_) nofun, induction next⟩
      have symbol : (Recovery.plainErrorLeaf job.lexer.grammar state
          (job.lexer.plainToken job.text offset)).symbol ≠ .error := fun same => by
        change (decide (_ = Symbol.error)).toNat = 0 at clean
        rw [decide_eq_true (by exact same)] at clean
        cases clean
      change (if (job.lexer.plainToken job.text offset).isError = true then Symbol.error
        else (job.lexer.plainToken job.text offset).symbol) ≠ .error at symbol
      have good : (job.lexer.plainToken job.text offset).isError = false := by
        by_contra bad
        rw [if_pos ((Bool.not_eq_false _).mp bad)] at symbol
        exact symbol rfl
      rw [good, if_neg Bool.false_ne_true] at symbol
      unfold Recovery.plainErrorLeaf Recovery.errorLeaf
      rw [good, if_neg Bool.false_ne_true]
      exact Subtree.grown_token steady terminals boundary good notEnd rfl rfl rfl
        (Bool.and_eq_right_iff_imp.2 fun _ => decide_eq_true symbol)

/-- Extras after an error stand on the stack. -/
theorem Recovery.pushExtras_stands {version : Version} {length stop : Nat} {tokens : List Token}
    (stands : version.stack.Stands job.lexer plain job.text length)
    (boundary : job.text.isBoundary length = true)
    (reads : job.lexer.Reads job.text length tokens stop)
    (extras : ∀ token ∈ tokens,
      (!token.isError && job.lexer.grammar.isExtra token.symbol) = true) :
    ParseStack.Stands job.lexer plain job.text stop
      (Version.stack (tokens.foldlM (pushExtra (m := Id) job.lexer.grammar) version)) := by
  induction reads generalizing version with
  | nil => exact stands
  | @cons offset stop rest notEnd later induction =>
      obtain ⟨first, others⟩ := List.forall_mem_cons.1 extras
      simp only [Bool.and_eq_true, Bool.not_eq_true'] at first
      have grown := @Subtree.grown_token job plain steady terminals offset boundary first.1 notEnd
        { LeafSpec.ofGrammar job.lexer.grammar _ _ _ with
          parseState := version.state, lexState := .errorMode, extra := true } rfl rfl rfl
        first.2.symm
      have pushed := stands.push version.state grown.sound
      have next := Lexer.boundary_plainToken steady.internal steady.filled.toIsLoaded
        steady.wellFormed boundary notEnd
      exact @induction (pushExtra (m := Id) job.lexer.grammar version _) pushed next others

/-- The stack of a version that goes on at a token stands in front of it. -/
theorem Recovery.resume_stands {version : Version} {resumption : Resume} {token : Token}
    (stands : version.stack.Stands job.lexer plain job.text version.position)
    (boundary : job.text.isBoundary version.position = true)
    (found : (window job version.position)[resumption.skipped]? = some token) :
    ParseStack.Stands job.lexer plain job.text token.range.start
      (Version.stack (resume (m := Id) job.lexer.grammar version (window job version.position)
        resumption token)) := by
  obtain ⟨-, -, reads⟩ := reads_window steady boundary found
  obtain ⟨under, popped, sum⟩ :=
    stands.below (version.stack.subtrees_take_drop resumption.popped)
  generalize token.range.start = stop at reads ⊢
  unfold resume
  simp only [mapM_errorLeaf]
  generalize (window job version.position).take resumption.skipped = skipped at reads ⊢
  generalize ParseStack.subtrees (version.stack.take resumption.popped) = taken at popped sum ⊢
  generalize (version.stack.drop resumption.popped : ParseStack) = below at under popped sum ⊢
  -- the extras that come last stay outside the error
  have tokens := congrArg List.reverse (@List.takeWhile_append_dropWhile _ (fun token : Token =>
    !token.isError && job.lexer.grammar.isExtra token.symbol) skipped.reverse)
  rw [List.reverse_append, List.reverse_reverse] at tokens
  have extras : ∀ token ∈ (skipped.reverse.takeWhile fun token : Token =>
      !token.isError && job.lexer.grammar.isExtra token.symbol).reverse,
      (!token.isError && job.lexer.grammar.isExtra token.symbol) = true :=
    fun token member => @List.mem_takeWhile_imp _ (fun token : Token =>
      !token.isError && job.lexer.grammar.isExtra token.symbol) _ _ (List.mem_reverse.1 member)
  generalize (skipped.reverse.takeWhile fun token : Token =>
    !token.isError && job.lexer.grammar.isExtra token.symbol).reverse = after at tokens extras ⊢
  generalize (skipped.reverse.dropWhile fun token : Token =>
    !token.isError && job.lexer.grammar.isExtra token.symbol).reverse = inside at tokens ⊢
  rw [← tokens] at reads
  obtain ⟨middle, first, second⟩ := reads.append
  -- so do the extras that come first among what is taken
  have split := @List.takeWhile_append_dropWhile _ Subtree.isExtra taken
  generalize taken.takeWhile Subtree.isExtra = leading at split ⊢
  generalize taken.dropWhile Subtree.isExtra = content at split ⊢
  rw [← split, Subtree.allSound_append] at popped
  rw [← split, Subtree.totalLength_append, ← Nat.add_assoc] at sum
  have surrounded := under.pushAll (ParseStack.state below) popped.1
  have leaves := allSound_errorLeaves steady terminals boundary first (ParseStack.state below)
  rw [← sum] at leaves
  have sound := Subtree.allSound_append.2 ⟨popped.2, leaves⟩
  have wrapped := @pushError_stands job.lexer.grammar _ _ _ _ { version with stack := _ } surrounded
    _ sound
  rw [Subtree.totalLength_append, totalLength_errorLeaves, ← Nat.add_assoc, sum, first.sum]
    at wrapped
  exact pushExtras_stands steady terminals wrapped (first.boundary steady boundary) second extras

end Steady

end IncrementalGlr
