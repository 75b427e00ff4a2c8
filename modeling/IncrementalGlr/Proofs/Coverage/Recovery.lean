import IncrementalGlr.Proofs.Moves
import IncrementalGlr.Proofs.StackContents
import IncrementalGlr.Proofs.Tiling
import IncrementalGlr.Proofs.TokenRange
import Mathlib.Algebra.GroupWithZero.Nat

/-!
# Recovery keeps the text

Recovery loses nothing: what it takes from a stack and the tokens that it skips become an error of
the same length.
-/

namespace IncrementalGlr

/-!
## Stacks that span a text

The subtrees on the stack of a version together are as long as the text that the version has passed,
and what comes next for it lies inside the text.
-/

namespace Subtree

/-- Whether a subtree is tiled and has no end of the input in it. -/
def IsWhole (subtree : Subtree) : Prop := subtree.Tiled ∧ subtree.EndFree

theorem isWhole_ofLeaf {id : Nat} {spec : LeafSpec} (token : spec.symbol ≠ .endOfInput) :
    (ofLeaf id spec).IsWhole :=
  ⟨tiled_ofLeaf spec, endFree_ofLeaf token⟩

theorem isWhole_ofChildren {id : Nat} {spec : NodeSpec} (symbol : spec.symbol ≠ .endOfInput)
    {children : List Subtree} (whole : ∀ child ∈ children, child.IsWhole) :
    (ofChildren id spec children).IsWhole :=
  ⟨tiled_ofChildren spec fun child member => (whole child member).1,
    endFree_ofChildren symbol fun child member => (whole child member).2⟩

theorem IsWhole.child {subtree : Subtree} (whole : subtree.IsWhole) :
    ∀ child ∈ subtree.children, child.IsWhole :=
  fun child member => ⟨whole.1.child child member, whole.2.child child member⟩

@[simp]
theorem length_ofLeaf (id : Nat) (spec : LeafSpec) : (ofLeaf id spec).length = spec.length := rfl

@[simp]
theorem length_ofChildren (id : Nat) (spec : NodeSpec) (children : List Subtree) :
    (ofChildren id spec children).length = totalLength children := rfl

end Subtree

namespace ParseStack

/-- Whether the subtrees on a stack are whole and together of a length. -/
structure Spans (length : Nat) (stack : ParseStack) : Prop where
  /-- Their length. -/
  total : Subtree.totalLength stack.subtrees = length
  /-- They are whole. -/
  whole : ∀ subtree ∈ stack.subtrees, subtree.IsWhole

variable {length : Nat} {stack : ParseStack}

theorem spans_nil : Spans 0 [] := ⟨rfl, fun _ none => absurd none List.not_mem_nil⟩

theorem Spans.pushAll (spans : stack.Spans length) (state : StateId) {subtrees : List Subtree}
    (whole : ∀ subtree ∈ subtrees, subtree.IsWhole) :
    (stack.pushAll state subtrees).Spans (length + Subtree.totalLength subtrees) := by
  constructor
  · rw [subtrees_pushAll, Subtree.totalLength_append, spans.total]
  · intro subtree member
    rw [subtrees_pushAll, List.mem_append] at member
    exact member.elim (spans.whole subtree) (whole subtree)

theorem Spans.push (spans : stack.Spans length) (state : StateId) {subtree : Subtree}
    (whole : subtree.IsWhole) :
    Spans (length + subtree.length) (⟨state, subtree⟩ :: stack) := by
  have pushed := spans.pushAll state (List.forall_mem_singleton.2 whole)
  rwa [Subtree.totalLength_cons, Subtree.totalLength_nil, Nat.add_zero] at pushed

end ParseStack

/-- Whether a lookahead at a position is a token or a part of an earlier tree inside the text. -/
def Lookahead.Fits (text : Text) (position : Nat) : Lookahead → Prop
  | .token found _ => found.StandsAt text position
  | .reused subtree => subtree.IsWhole ∧ position + subtree.length ≤ text.size

/-- Whether a version has exactly the text up to its position on its stack. -/
structure Version.Covers (text : Text) (version : Version) : Prop where
  /-- The subtrees on the stack reach up to the position. -/
  stack : version.stack.Spans version.position
  /-- The position lies inside the text. -/
  bound : version.position ≤ text.size
  /-- What comes next lies inside the text. -/
  lookahead : ∀ lookahead ∈ version.lookahead, lookahead.Fits text version.position

/-- Whether all parts of an earlier tree lie inside a text. -/
def ReuseCursor.Fits (text : Text) (cursor : ReuseCursor) : Prop :=
  ∀ node ∈ cursor.pending,
    node.subtree.IsWhole ∧ node.start + node.subtree.length ≤ text.size

/-- Whether the end of the input is kept apart from all other symbols of a grammar. -/
structure Grammar.EndReserved (grammar : Grammar) : Prop where
  /-- The lexical rules never stand for it. -/
  lexer : Lexer.EndFree grammar
  /-- It is not the start symbol. -/
  start : grammar.startSymbol ≠ .endOfInput
  /-- It is never shifted. -/
  shift {state next : StateId} : .shift next ∉ grammar.actions state .endOfInput
  /-- No production has it on its left. -/
  reduce {state : StateId} {symbol : Symbol} {production : ProductionId} :
    .reduce production ∈ grammar.actions state symbol →
      (grammar.production production).lhs ≠ .endOfInput
  /-- Only on it a text is accepted. -/
  accept {state : StateId} {symbol : Symbol} :
    .accept ∈ grammar.actions state symbol → symbol = .endOfInput

namespace ReuseCursor

variable {text : Text}

theorem placed_fits {start : Nat} {subtrees : List Subtree}
    (whole : ∀ subtree ∈ subtrees, subtree.IsWhole)
    (inside : start + Subtree.totalLength subtrees ≤ text.size) :
    ∀ node ∈ Subtree.placed start subtrees,
      node.subtree.IsWhole ∧ node.start + node.subtree.length ≤ text.size := by
  induction subtrees generalizing start with
  | nil => exact fun _ none => absurd none List.not_mem_nil
  | cons child rest induction =>
      rw [Subtree.totalLength_cons] at inside
      intro node member
      rcases List.mem_cons.1 member with rfl | later
      · exact ⟨whole child List.mem_cons_self, by dsimp only; omega⟩
      · exact induction (fun other otherMember => whole other (List.mem_cons_of_mem child otherMember))
          (by omega) node later

theorem Fits.later {cursor later : ReuseCursor} (fits : cursor.Fits text)
    (after : cursor.Later later) : later.Fits text := by
  have inherited : Inherited fun node =>
      node.subtree.IsWhole ∧ node.start + node.subtree.length ≤ text.size := by
    rintro node ⟨whole, inside⟩
    have room := whole.1.totalLength_children_le
    exact placed_fits whole.child (by omega)
  exact inherited.later fits after

theorem Fits.candidate {cursor : ReuseCursor} (fits : cursor.Fits text) {position : Nat}
    {subtree : Subtree} (found : cursor.candidate? position = some subtree) :
    Lookahead.Fits text position (.reused subtree) := by
  obtain ⟨_ | ⟨node, rest⟩⟩ := cursor
  · cases found
  · simp only [candidate?] at found
    split at found
    · next here =>
        obtain rfl := Option.some.inj found
        obtain ⟨whole, inside⟩ := fits node List.mem_cons_self
        rw [beq_iff_eq] at here
        exact ⟨whole, here ▸ inside⟩
    · cases found

end ReuseCursor

/-! ## What recovery does with a stack -/

/-- The children of error nodes take as much room as the error nodes themselves. -/
theorem Recovery.totalLength_flatten {subtrees : List Subtree}
    (whole : ∀ subtree ∈ subtrees, subtree.IsWhole) :
    Subtree.totalLength (flatten subtrees) = Subtree.totalLength subtrees := by
  induction subtrees with
  | nil => rfl
  | cons subtree rest induction =>
      have restWhole := fun other member => whole other (List.mem_cons_of_mem subtree member)
      have first : Subtree.totalLength
          (if subtree.isError && !subtree.isLeaf then subtree.children else [subtree]) =
            subtree.length := by
        split
        · next node =>
            simp only [Bool.and_eq_true, Bool.not_eq_eq_eq_not, Bool.not_true] at node
            exact ((whole subtree List.mem_cons_self).1.filled node.2).symm
        · simp [Subtree.totalLength]
      rw [flatten, List.flatMap_cons, Subtree.totalLength_append, first, ← flatten,
        induction restWhole, Subtree.totalLength_cons]

theorem Recovery.isWhole_flatten {subtrees : List Subtree}
    (whole : ∀ subtree ∈ subtrees, subtree.IsWhole) :
    ∀ child ∈ flatten subtrees, child.IsWhole := by
  intro child member
  obtain ⟨subtree, subtreeMember, inside⟩ := List.mem_flatMap.1 member
  split at inside
  · exact (whole subtree subtreeMember).child child inside
  · obtain rfl := List.mem_singleton.1 inside
    exact whole child subtreeMember

/-- Whether tokens stand side by side in a text from an offset on, the end of the input only last.
The tokens end at `stop`. -/
inductive Token.SideBySide (text : Text) : Nat → List Token → Nat → Prop
  /-- There are no tokens. -/
  | nil (offset : Nat) : SideBySide text offset [] offset
  /-- The end of the input is the last token. -/
  | ended {offset : Nat} {token : Token} (stands : token.StandsAt text offset)
    (isEnd : token.symbol = .endOfInput) : SideBySide text offset [token] text.size
  /-- A token is followed by others. -/
  | cons {offset stop : Nat} {token : Token} {rest : List Token}
    (stands : token.StandsAt text offset) (bound : offset ≤ text.size)
    (notEnd : token.symbol ≠ .endOfInput) (others : SideBySide text token.range.stop rest stop) :
    SideBySide text offset (token :: rest) stop

/-- Whether the lexer of a job finds tokens inside the text only. -/
structure ParseJob.StaysInside (job : ParseJob) : Prop where
  /-- The end of the input is reserved. -/
  reserved : job.grammar.EndReserved
  /-- The tokens of the scanner lie inside texts. -/
  external : ∀ scanner ∈ job.lexer.external, ExternalScanner.StaysInside scanner

/-- Whether what the lexer of a job finds at an offset of the text stands there, whatever it looks
for. -/
def ParseJob.FindsTokens (job : ParseJob) : Prop :=
  ∀ offset ≤ job.text.size, ∀ lexState,
    (job.lexer.nextInState job.text offset lexState).StandsAt job.text offset

theorem ParseJob.StaysInside.findsTokens {job : ParseJob} (inside : job.StaysInside) :
    job.FindsTokens :=
  fun _ bound => Lexer.nextInState_standsAt inside.reserved.lexer inside.external bound

namespace Token

variable {text : Text} {offset stop : Nat} {tokens : List Token}

/-- The tokens before one of several side by side fill the text up to it. -/
theorem SideBySide.before (side : SideBySide text offset tokens stop) {count : Nat}
    {token : Token} (found : tokens[count]? = some token) :
    token.StandsAt text token.range.start ∧ token.range.start ≤ text.size ∧
      offset + ((tokens.take count).map Token.length).sum = token.range.start ∧
      ∀ earlier ∈ tokens.take count, earlier.symbol ≠ .endOfInput := by
  induction side generalizing count with
  | nil => simp at found
  | @ended offset first stands isEnd =>
      cases count with
      | zero =>
          obtain rfl := Option.some.inj found
          rw [stands.start]
          exact ⟨stands, (stands.onlyAtEnd isEnd).le, rfl, fun _ none => absurd none List.not_mem_nil⟩
      | succ count => simp at found
  | @cons offset stop first rest stands bound notEnd others induction =>
      cases count with
      | zero =>
          obtain rfl := Option.some.inj found
          rw [stands.start]
          exact ⟨stands, bound, rfl, fun _ none => absurd none List.not_mem_nil⟩
      | succ count =>
          obtain ⟨tokenStands, tokenBound, sum, before⟩ := induction found
          refine ⟨tokenStands, tokenBound, ?_, fun earlier member => ?_⟩
          · rw [List.take_succ_cons, List.map_cons, List.sum_cons, ← Nat.add_assoc,
              stands.length_eq bound, sum]
          · rcases List.mem_cons.1 member with rfl | later
            · exact notEnd
            · exact before earlier later

/-- The first of several tokens side by side that do not reach the end of the input. -/
theorem SideBySide.head (side : SideBySide text offset tokens stop) {token : Token}
    (first : tokens.head? = some token) (further : tokens.getLast?.any Token.isEnd = false) :
    token.StandsAt text offset ∧ token.symbol ≠ .endOfInput := by
  cases side with
  | nil => cases first
  | ended stands isEnd => simp [Token.isEnd, isEnd] at further
  | cons stands bound notEnd others =>
      obtain rfl := Option.some.inj first
      exact ⟨stands, notEnd⟩

/-- Tokens side by side up to the end of the input fill the rest of the text. -/
theorem SideBySide.total (side : SideBySide text offset tokens stop)
    (ended : tokens.getLast?.any Token.isEnd = true) :
    offset + ((tokens.filter fun token => !token.isEnd).map Token.length).sum = text.size := by
  induction side with
  | nil => simp at ended
  | @ended offset first stands isEnd =>
      simpa [Token.isEnd, isEnd] using stands.onlyAtEnd isEnd
  | @cons offset stop first rest stands bound notEnd others induction =>
      have kept : (!first.isEnd) = true := by simp [Token.isEnd, notEnd]
      cases rest with
      | nil => simp [Token.isEnd, notEnd] at ended
      | cons second later =>
          rw [List.getLast?_cons_cons] at ended
          have filtered : (first :: second :: later).filter (fun token => !token.isEnd) =
              first :: (second :: later).filter fun token => !token.isEnd :=
            List.filter_cons_of_pos (p := fun token : Token => !token.isEnd) kept
          rw [filtered, List.map_cons, List.sum_cons, ← Nat.add_assoc,
            stands.length_eq bound, induction ended]

end Token

namespace Recovery

variable {job : ParseJob}

theorem tokensFrom_sideBySide (finds : job.FindsTokens) (limit : Nat) {offset : Nat}
    (bound : offset ≤ job.text.size) (count : Nat) :
    ∃ stop, Token.SideBySide job.text offset (tokensFrom job limit offset count) stop := by
  induction count generalizing offset with
  | zero => exact ⟨offset, .nil offset⟩
  | succ count induction =>
      have stands := finds offset bound .errorMode
      rw [tokensFrom]
      generalize job.lexer.nextInState job.text offset .errorMode = token at stands
      by_cases isEnd : token.symbol = .endOfInput
      · have stopped : (token.isEnd || token.range.isEmpty || decide (limit ≤ token.range.stop)) =
            true := by
          simp [Token.isEnd, isEnd]
        rw [if_pos stopped]
        exact ⟨job.text.size, .ended stands isEnd⟩
      · split
        · exact ⟨_, .cons stands bound isEnd (.nil _)⟩
        · obtain ⟨stop, others⟩ := induction stands.inside
          exact ⟨stop, .cons stands bound isEnd others⟩

/-- The tokens looked through after an error stand side by side. -/
theorem window_sideBySide (finds : job.FindsTokens) {position : Nat}
    (bound : position ≤ job.text.size) :
    ∃ stop, Token.SideBySide job.text position (window job position) stop :=
  tokensFrom_sideBySide finds _ bound _

section Leaves

variable {grammar : Grammar} {tokens : List Token}

theorem isWhole_errorLeaf (state : StateId) {token : Token} (notEnd : token.symbol ≠ .endOfInput) :
    (plainErrorLeaf grammar state token).IsWhole := by
  refine Subtree.isWhole_ofLeaf ?_
  change (if token.isError then Symbol.error else token.symbol) ≠ .endOfInput
  split
  · decide
  · exact notEnd

theorem totalLength_errorLeaves (state : StateId) (tokens : List Token) :
    Subtree.totalLength (tokens.map (plainErrorLeaf grammar state)) =
      (tokens.map Token.length).sum := by
  induction tokens with
  | nil => rfl
  | cons token rest induction =>
      rw [List.map_cons, Subtree.totalLength_cons, induction]
      rfl

theorem isWhole_errorLeaves (state : StateId)
    (notEnd : ∀ token ∈ tokens, token.symbol ≠ .endOfInput) :
    ∀ leaf ∈ tokens.map (plainErrorLeaf grammar state), leaf.IsWhole := by
  intro leaf member
  obtain ⟨token, tokenMember, rfl⟩ := List.mem_map.1 member
  exact isWhole_errorLeaf state (notEnd token tokenMember)

theorem isWhole_errorNode {children : List Subtree}
    (whole : ∀ child ∈ children, child.IsWhole) :
    (errorNode (m := Id) grammar children).IsWhole :=
  Subtree.isWhole_ofChildren (by change Symbol.error ≠ .endOfInput; decide)
    (isWhole_flatten whole)

theorem length_errorNode {children : List Subtree}
    (whole : ∀ child ∈ children, child.IsWhole) :
    (errorNode (m := Id) grammar children).length = Subtree.totalLength children :=
  totalLength_flatten whole

end Leaves

section Stack

variable {grammar : Grammar} {version : Version} {length : Nat}

/-- Subtrees that become an error add their length to a stack. -/
theorem pushError_spans (spans : version.stack.Spans length) {children : List Subtree}
    (whole : ∀ child ∈ children, child.IsWhole) :
    ParseStack.Spans (length + Subtree.totalLength children)
      (Version.stack (pushError (m := Id) grammar version children)) := by
  obtain ⟨stack, position, lookahead, path⟩ := version
  cases children with
  | nil => exact spans
  | cons child rest =>
      have pushed := spans.push (ParseStack.state stack)
        (@isWhole_errorNode grammar _ whole)
      rw [length_errorNode whole] at pushed
      cases stack with
      | nil => exact pushed
      | cons entry below =>
          unfold pushError
          dsimp only
          rw [if_neg (by simp)]
          split
          · obtain ⟨total, stackWhole⟩ := spans
            simp only [ParseStack.subtrees_cons] at total stackWhole
            rw [Subtree.totalLength_append, Subtree.totalLength_cons, Subtree.totalLength_nil]
              at total
            have belowSpans : ParseStack.Spans (Subtree.totalLength (ParseStack.subtrees below))
                below :=
              ⟨rfl, fun subtree member => stackWhole subtree (List.mem_append_left _ member)⟩
            have joined : ∀ subtree ∈ entry.subtree :: child :: rest, subtree.IsWhole := by
              intro subtree member
              rcases List.mem_cons.1 member with rfl | later
              · exact stackWhole _ (List.mem_append_right _ (List.mem_singleton_self _))
              · exact whole subtree later
            have replaced := belowSpans.push (ParseStack.state below)
              (@isWhole_errorNode grammar _ joined)
            rw [length_errorNode joined, Subtree.totalLength_cons] at replaced
            rw [show length + Subtree.totalLength (child :: rest) =
              Subtree.totalLength (ParseStack.subtrees below) +
                (entry.subtree.length + Subtree.totalLength (child :: rest)) by omega]
            exact replaced
          · exact pushed

/-- Extras after an error add their length to a stack. -/
theorem pushExtras_spans (spans : version.stack.Spans length) {tokens : List Token}
    (notEnd : ∀ token ∈ tokens, token.symbol ≠ .endOfInput) :
    ParseStack.Spans (length + (tokens.map Token.length).sum)
      (Version.stack (tokens.foldlM (pushExtra (m := Id) grammar) version)) := by
  induction tokens generalizing version length with
  | nil => exact spans
  | cons token rest induction =>
      have extra : Subtree.IsWhole (.ofLeaf 0
          { LeafSpec.ofGrammar grammar token.symbol token.length token.lookahead with
            parseState := version.state, lexState := .errorMode, extra := true }) :=
        Subtree.isWhole_ofLeaf (notEnd token List.mem_cons_self)
      have pushed : ParseStack.Spans (length + token.length)
          (Version.stack (pushExtra (m := Id) grammar version token)) :=
        spans.push version.state extra
      rw [List.map_cons, List.sum_cons, ← Nat.add_assoc]
      exact induction pushed fun other member => notEnd other (List.mem_cons_of_mem token member)

/-- The stack of a version that goes on at a token reaches up to the token. -/
theorem resume_spans (spans : version.stack.Spans length) (window : List Token)
    (resumption : Resume) (token : Token)
    (notEnd : ∀ earlier ∈ window.take resumption.skipped, earlier.symbol ≠ .endOfInput) :
    ParseStack.Spans (length + ((window.take resumption.skipped).map Token.length).sum)
      (Version.stack (resume (m := Id) grammar version window resumption token)) := by
  obtain ⟨total, whole⟩ := spans
  have parts := version.stack.subtrees_take_drop resumption.popped
  have split := congrArg Subtree.totalLength parts
  rw [Subtree.totalLength_append, total,
    ← Subtree.totalLength_takeWhile_add_dropWhile Subtree.isExtra
      (ParseStack.subtrees (version.stack.take resumption.popped))] at split
  have belowSpans : ParseStack.Spans _ (version.stack.drop resumption.popped) :=
    ⟨rfl, fun subtree member => whole subtree (parts ▸ List.mem_append_left _ member)⟩
  have poppedWhole : ∀ subtree ∈ ParseStack.subtrees (version.stack.take resumption.popped),
      subtree.IsWhole :=
    fun subtree member => whole subtree (parts ▸ List.mem_append_right _ member)
  unfold resume
  simp only [mapM_errorLeaf]
  generalize afterEq : ((window.take resumption.skipped).reverse.takeWhile fun token : Token =>
    !token.isError && grammar.isExtra token.symbol).reverse = after
  generalize insideEq : ((window.take resumption.skipped).reverse.dropWhile fun token : Token =>
    !token.isError && grammar.isExtra token.symbol).reverse = inside
  have tokens : inside ++ after = window.take resumption.skipped := by
    rw [← afterEq, ← insideEq, ← List.reverse_append, List.takeWhile_append_dropWhile,
      List.reverse_reverse]
  have lengths : (inside.map Token.length).sum + (after.map Token.length).sum =
      ((window.take resumption.skipped).map Token.length).sum := by
    rw [← tokens, List.map_append, List.sum_append]
  have insideNotEnd : ∀ token ∈ inside, token.symbol ≠ .endOfInput :=
    fun token member => notEnd token (tokens ▸ List.mem_append_left _ member)
  have afterNotEnd : ∀ token ∈ after, token.symbol ≠ .endOfInput :=
    fun token member => notEnd token (tokens ▸ List.mem_append_right _ member)
  have surrounded := belowSpans.pushAll (ParseStack.state (version.stack.drop resumption.popped))
    fun subtree member => poppedWhole subtree ((List.takeWhile_prefix Subtree.isExtra).subset member)
  have contentWhole : ∀ subtree ∈
      (ParseStack.subtrees (version.stack.take resumption.popped)).dropWhile Subtree.isExtra ++
        inside.map (plainErrorLeaf grammar
          (ParseStack.state (version.stack.drop resumption.popped))),
      subtree.IsWhole := by
    intro subtree member
    rcases List.mem_append.1 member with popped | leaf
    · exact poppedWhole subtree ((List.dropWhile_suffix _).subset popped)
    · exact isWhole_errorLeaves _ insideNotEnd subtree leaf
  have wrapped := @pushError_spans grammar { version with stack := _ } _ surrounded _ contentWhole
  have resumed := @pushExtras_spans grammar _ _ wrapped _ afterNotEnd
  rw [Subtree.totalLength_append, totalLength_errorLeaves] at resumed
  refine Eq.mp (congrArg (fun total => ParseStack.Spans total _) ?_) resumed
  omega

/-- The subtrees of a version that goes nowhere and of the tokens after it. -/
def remains (grammar : Grammar) (version : Version) (window : List Token) : List Subtree :=
  version.stack.subtrees ++
    (window.filter fun token => !token.isEnd).map (plainErrorLeaf grammar version.state)

/-- The error in the tree of a version that goes nowhere. -/
def wrapped (grammar : Grammar) (remains : List Subtree) : Subtree :=
  if (remains.dropWhile Subtree.isExtra).isEmpty then
    .ofLeaf 0 (LeafSpec.ofGrammar grammar .error 0 0)
  else errorNode (m := Id) grammar (remains.dropWhile Subtree.isExtra)

theorem giveUp_root (window : List Token) :
    (giveUp (m := Id) grammar version window).root =
      ParseRun.rootNode (m := Id) grammar
        ((remains grammar version window).takeWhile Subtree.isExtra ++
          [wrapped grammar (remains grammar version window)]) := by
  unfold giveUp
  simp only [mapM_errorLeaf]
  by_cases empty : ((remains grammar version window).dropWhile Subtree.isExtra).isEmpty = true
  · rw [wrapped, if_pos empty]
    exact congrArg Finished.root (if_pos empty)
  · rw [wrapped, if_neg empty]
    exact congrArg Finished.root (if_neg empty)

/-- The error in the tree of a version that goes nowhere is as long as what it stands above. -/
theorem wrapped_whole {remains : List Subtree} (whole : ∀ subtree ∈ remains, subtree.IsWhole) :
    (wrapped grammar remains).IsWhole ∧
      (wrapped grammar remains).length =
        Subtree.totalLength (remains.dropWhile Subtree.isExtra) := by
  unfold wrapped
  split
  · next empty =>
      have notEnd : Symbol.error ≠ .endOfInput := by decide
      rw [List.isEmpty_iff.1 empty]
      exact ⟨Subtree.isWhole_ofLeaf notEnd, rfl⟩
  · have wrappedWhole : ∀ child ∈ remains.dropWhile Subtree.isExtra, child.IsWhole :=
      fun child member => whole child ((List.dropWhile_suffix _).subset member)
    exact ⟨isWhole_errorNode wrappedWhole, length_errorNode wrappedWhole⟩

/-- The tree of a version that goes nowhere is as long as its stack and the tokens after it. -/
theorem giveUp_whole (spans : version.stack.Spans length)
    (start : grammar.startSymbol ≠ .endOfInput) (window : List Token) :
    (Finished.root (giveUp (m := Id) grammar version window)).IsWhole ∧
      (Finished.root (giveUp (m := Id) grammar version window)).length =
        length + ((window.filter fun token => !token.isEnd).map Token.length).sum := by
  have whole : ∀ subtree ∈ remains grammar version window, subtree.IsWhole := by
    intro subtree member
    rcases List.mem_append.1 member with below | leaf
    · exact spans.whole subtree below
    · refine isWhole_errorLeaves _ (fun token kept => ?_) subtree leaf
      simpa [Token.isEnd] using (List.mem_filter.1 kept).2
  have total : Subtree.totalLength (remains grammar version window) =
      length + ((window.filter fun token => !token.isEnd).map Token.length).sum := by
    rw [remains, Subtree.totalLength_append, spans.total, totalLength_errorLeaves]
  obtain ⟨errorWhole, errorLength⟩ := @wrapped_whole grammar _ whole
  rw [giveUp_root]
  constructor
  · refine Subtree.isWhole_ofChildren start fun child member => ?_
    rcases List.mem_append.1 member with leading | last
    · exact whole child ((List.takeWhile_prefix Subtree.isExtra).subset leading)
    · obtain rfl := List.mem_singleton.1 last
      exact errorWhole
  · change Subtree.totalLength (_ ++ [_]) = _
    rw [Subtree.totalLength_append, Subtree.totalLength_cons, Subtree.totalLength_nil,
      Nat.add_zero, errorLength, Subtree.totalLength_takeWhile_add_dropWhile, total]

end Stack

end Recovery

end IncrementalGlr
