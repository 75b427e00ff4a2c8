import IncrementalGlr.Proofs.Confinement.Lookups
import IncrementalGlr.Proofs.Derivation.Stack
import IncrementalGlr.Proofs.Edits.History
import IncrementalGlr.Proofs.Plain.Language
import IncrementalGlr.Proofs.Tokens

/-!
# Subtrees grown over a text

A subtree without errors that a parse makes over a text is a derivation tree: its tokens are those
that the lexer finds there, its nodes are made by their productions, and extras stand between its
children only.  All this is decided by the bytes up to the end of its lookahead.  So it is grown
over every text, and at every place, where the same bytes stand; and the parts of a tree that an
edit does not mark as changed are grown over the edited text.
-/

namespace IncrementalGlr

namespace Text.Agree

variable {first second third : Text} {offset other place count : Nat}

theorem refl (text : Text) (offset count : Nat) : text.Agree offset text offset count :=
  fun _ _ => rfl

theorem trans (left : first.Agree offset second other count)
    (right : second.Agree other third place count) : first.Agree offset third place count :=
  fun index inside => (left index inside).trans (right index inside)

/-- Texts that agree on a range agree on all parts of it. -/
theorem inner (agree : first.Agree offset second other count) {skipped fewer : Nat}
    (less : skipped + fewer ≤ count) :
    first.Agree (offset + skipped) second (other + skipped) fewer := by
  intro index inside
  rw [Nat.add_assoc, Nat.add_assoc]
  exact agree (skipped + index) (by omega)

end Text.Agree

theorem Text.le_size_of_isBoundary {text : Text} {offset : Nat}
    (boundary : text.isBoundary offset = true) : offset ≤ text.size := by
  unfold isBoundary at boundary
  split at boundary
  · next byte here => exact (Text.lt_size_iff.2 ⟨byte, here⟩).le
  · exact (beq_iff_eq.1 boundary).le

/-! ## Tokens that do not depend on the lexical state -/

/-- A lexical rule stands for a terminal. -/
theorem Grammar.IsLoaded.lexRule_terminal {grammar : Grammar} (loaded : grammar.IsLoaded)
    {rule : LexRule} (member : rule ∈ grammar.lexRules) :
    grammar.data.isTerminal rule.symbol = true := by
  rw [loaded.lexRules, List.mem_toArray] at member
  obtain ⟨info, known, kind⟩ := Option.map_eq_some_iff.1 (loaded.sound.lexRules rule member)
  have fits := loaded.sound.kinds _ info known
  rw [kind, GrammarData.kindFits] at fits
  split at fits
  · simp at fits
  · split at fits
    · next inside => exact decide_eq_true inside
    · simp at fits

/-- Whether a terminal is passed over between the tokens of a production. -/
def Grammar.Skips (grammar : Grammar) (symbol : Symbol) : Prop :=
  grammar.isExtra symbol = true ∧ symbol ≠ .endOfInput

namespace Lexer

variable {lexer : Lexer} {text : Text} {offset : Nat}

/-- The token at an offset if every terminal is looked for. -/
def plainToken (lexer : Lexer) (text : Text) (offset : Nat) : Token :=
  lexer.nextInState text offset .errorMode

/-- Whether the tokens of a text are the same in all lexical states of a grammar. -/
def Uniform (lexer : Lexer) (text : Text) : Prop :=
  ∀ offset < text.size, text.isBoundary offset = true →
    ∀ lexState < lexer.grammar.data.lexStates.length,
      lexer.nextInState text offset (.ofIndex lexState) = lexer.plainToken text offset

instance : Decidable (lexer.Uniform text) :=
  inferInstanceAs (Decidable (∀ offset < text.size, text.isBoundary offset = true →
    ∀ lexState < lexer.grammar.data.lexStates.length,
      lexer.nextInState text offset (.ofIndex lexState) = lexer.plainToken text offset))

/-- In a uniform text the state of the parser does not matter to the lexer. -/
theorem Uniform.nextInState_eq (uniform : lexer.Uniform text) (filled : lexer.grammar.IsFilled)
    (boundary : text.isBoundary offset = true) (state : StateId) :
    lexer.nextInState text offset (lexer.grammar.lexState state) =
      lexer.plainToken text offset := by
  have listed : (lexer.grammar.lexState state).index < lexer.grammar.data.lexStates.length := by
    by_cases known : state.index < lexer.grammar.data.states.length
    · exact filled.lexState_lt known
    · have none : lexer.grammar.lexState state = default := by
        rw [Grammar.lexState, filled.lexStateTable, List.getElem?_toArray, List.getElem?_map,
          List.getElem?_eq_none (Nat.le_of_not_lt known)]
        rfl
      obtain ⟨first, listed⟩ := List.exists_mem_of_length_pos filled.sound.stateCount.1
      rw [none]
      exact (Nat.zero_le _).trans_lt (filled.sound.lexState first listed)
  have place : LexStateId.ofIndex (lexer.grammar.lexState state).index =
      lexer.grammar.lexState state := congrArg LexStateId.mk UInt16.ofNat_toNat
  rcases (Text.le_size_of_isBoundary boundary).lt_or_eq with before | rfl
  · rw [← place]
    exact uniform offset before boundary _ listed
  · unfold plainToken nextInState tokenAt
    rw [if_pos (Nat.le_refl _), if_pos (Nat.le_refl _)]

/-- Whether the bytes of a text from an offset on, as many as an extent says, decide which token
begins there: it has the same symbol and length wherever these bytes stand. -/
def Decides (lexer : Lexer) (text : Text) (offset extent : Nat) (symbol : Symbol)
    (length : Nat) : Prop :=
  ∀ (other : Text) (start : Nat), other.isBoundary start = true →
    text.Agree offset other start extent →
      (lexer.plainToken other start).symbol = symbol ∧
        (lexer.plainToken other start).length = length

namespace Decides

variable {extent : Nat} {symbol : Symbol} {length : Nat}

theorem moved (decides : lexer.Decides text offset extent symbol length) {other : Text}
    {start : Nat} (agree : text.Agree offset other start extent) :
    lexer.Decides other start extent symbol length :=
  fun third place boundary further => decides third place boundary (agree.trans further)

theorem mono (decides : lexer.Decides text offset extent symbol length) {more : Nat}
    (less : extent ≤ more) : lexer.Decides text offset more symbol length :=
  fun other start boundary agree => decides other start boundary (agree.take less)

/-- The token is found in the text itself. -/
theorem found (decides : lexer.Decides text offset extent symbol length)
    (boundary : text.isBoundary offset = true) :
    (lexer.plainToken text offset).symbol = symbol ∧
      (lexer.plainToken text offset).length = length :=
  decides text offset boundary (.refl text offset extent)

end Decides

theorem plainToken_atEnd (lexer : Lexer) {text : Text} {offset : Nat} (past : text.size ≤ offset) :
    lexer.plainToken text offset = ⟨.endOfInput, ⟨text.size, text.size⟩, 1, false⟩ :=
  if_pos past

section Internal

variable (internal : lexer.external = none)

include internal

theorem plainToken_before (before : offset < text.size) :
    lexer.plainToken text offset = lexer.lexicalToken text offset lexer.grammar.allTerminals := by
  rw [plainToken, nextInState_internal internal, tokenAt, if_neg before.not_ge]
  rfl

/-- A token is decided by the bytes up to the end of its lookahead. -/
theorem decides_plainToken (loaded : lexer.grammar.IsLoaded) (ahead : LooksAhead lexer.grammar)
    (boundary : text.isBoundary offset = true) :
    let token := lexer.plainToken text offset
    lexer.Decides text offset (token.length + token.lookahead) token.symbol token.length := by
  intro token other start otherBoundary agree
  have bound := Text.le_size_of_isBoundary boundary
  have otherBound := Text.le_size_of_isBoundary otherBoundary
  have stands := standsAt_of_internal loaded internal bound .errorMode
  have length : offset + token.length = token.range.stop := stands.length_eq bound
  rcases bound.lt_or_eq with before | rfl
  · have nonempty : offset < token.range.stop := stands.nonempty before
    obtain ⟨byte, here⟩ := Text.lt_size_iff.1 before
    have otherBefore := Text.lt_size_iff.2 ⟨byte, (agree.first (by omega)).symm.trans here⟩
    have otherStands := standsAt_of_internal loaded internal otherBound .errorMode
    have otherLength : start + (lexer.plainToken other start).length =
      (lexer.plainToken other start).range.stop := otherStands.length_eq otherBound
    have looked : text.Agree offset other start (token.range.stop + token.lookahead - offset) :=
      agree.take (by omega)
    have same : token = _ := plainToken_before internal before
    rw [same] at looked
    have moved := lexicalToken_moved ahead lexer.grammar.allTerminals before otherBefore boundary
      otherBoundary looked
    rw [← same, ← plainToken_before internal otherBefore] at moved
    have stop := moved.stop
    exact ⟨moved.symbol, by omega⟩
  · have ended : token = _ := plainToken_atEnd lexer (Nat.le_refl text.size)
    have past := agree.first (by rw [ended]; exact Nat.succ_pos _)
    rw [Text.byte?_eq_none_iff.2 (Nat.le_refl _), eq_comm, Text.byte?_eq_none_iff] at past
    rw [ended, plainToken_atEnd lexer past]
    exact ⟨rfl, (Nat.sub_self _).trans (Nat.sub_self _).symm⟩

/-- A token that is found at a boundary ends at another one. -/
theorem boundary_plainToken (loaded : lexer.grammar.IsLoaded) (wellFormed : text.WellFormed)
    (boundary : text.isBoundary offset = true)
    (notEnd : (lexer.plainToken text offset).symbol ≠ .endOfInput) :
    text.isBoundary (offset + (lexer.plainToken text offset).length) = true := by
  have bound := Text.le_size_of_isBoundary boundary
  have stands := standsAt_of_internal loaded internal bound .errorMode
  have before : offset < text.size := bound.lt_of_ne fun same => notEnd (stands.atEnd same).1
  have ends := boundary_nextInState internal wellFormed before boundary .errorMode
  rw [← stands.length_eq bound] at ends
  exact ends

/-- A token that is no error stands for a terminal, and one that is has the error symbol. -/
theorem plainToken_terminal (loaded : lexer.grammar.IsLoaded) (text : Text) (offset : Nat) :
    let token := lexer.plainToken text offset
    token.isError = false ∧ lexer.grammar.data.isTerminal token.symbol = true ∨
      token.isError = true ∧ token.symbol = .error := by
  intro token
  rcases Nat.lt_or_ge offset text.size with before | past
  · have same : token = _ := plainToken_before internal before
    rw [same, lexicalToken_eq]
    cases found : lexer.bestMatch? lexer.grammar.allTerminals
        (lexer.grammar.lexicon.scan text offset).matched with
    | some best =>
        obtain ⟨⟨rule, stop⟩, matched, rfl⟩ := bestMatch?_mem found
        obtain ⟨-, -, tried⟩ := Scan.run_matched before.le matched
        rw [loaded.length_patterns] at tried
        refine .inl ⟨rfl, ?_⟩
        simp only [Option.map_some, Option.getD_some, matchToken, candidate,
          Array.getElem?_eq_getElem tried]
        exact loaded.lexRule_terminal (Array.getElem_mem tried)
    | none => exact .inr ⟨rfl, rfl⟩
  · have ended : token = _ := plainToken_atEnd lexer past
    rw [ended]
    refine .inl ⟨rfl, ?_⟩
    exact decide_eq_true loaded.sound.terminalCount

end Internal

/-- Whether the bytes of a text from an offset on, as many as an extent says, decide that no extra
begins there. -/
def Awake (lexer : Lexer) (text : Text) (offset extent : Nat) : Prop :=
  ∃ symbol length, lexer.Decides text offset extent symbol length ∧ ¬ lexer.grammar.Skips symbol

namespace Awake

variable {extent : Nat}

theorem moved (awake : lexer.Awake text offset extent) {other : Text} {start : Nat}
    (agree : text.Agree offset other start extent) : lexer.Awake other start extent := by
  obtain ⟨symbol, length, decides, notSkipped⟩ := awake
  exact ⟨symbol, length, decides.moved agree, notSkipped⟩

theorem mono (awake : lexer.Awake text offset extent) {more : Nat} (less : extent ≤ more) :
    lexer.Awake text offset more := by
  obtain ⟨symbol, length, decides, notSkipped⟩ := awake
  exact ⟨symbol, length, decides.mono less, notSkipped⟩

theorem not_skips (awake : lexer.Awake text offset extent)
    (boundary : text.isBoundary offset = true) :
    ¬ lexer.grammar.Skips (lexer.plainToken text offset).symbol := by
  obtain ⟨symbol, length, decides, notSkipped⟩ := awake
  rwa [(decides.found boundary).1]

end Awake

/-- Whether a terminal is the first one from an offset on that is no extra. -/
inductive Ahead (lexer : Lexer) (text : Text) : Nat → Symbol → Prop
  /-- It is found at the offset. -/
  | here {offset : Nat} (awake : ¬ lexer.grammar.Skips (lexer.plainToken text offset).symbol) :
    Ahead lexer text offset (lexer.plainToken text offset).symbol
  /-- There is an extra at the offset. -/
  | skip {offset : Nat} {symbol : Symbol}
      (skips : lexer.grammar.Skips (lexer.plainToken text offset).symbol)
      (later : Ahead lexer text (offset + (lexer.plainToken text offset).length) symbol) :
    Ahead lexer text offset symbol

end Lexer

/-! ## Subtrees in their places -/

namespace Subtree

theorem mem_placed {start : Nat} {subtrees : List Subtree} {node : Node} :
    node ∈ placed start subtrees ↔ ∃ index, subtrees[index]? = some node.subtree ∧
      node.start = start + totalLength (subtrees.take index) := by
  induction subtrees generalizing start with
  | nil => simp [placed]
  | cons child rest induction =>
      rw [placed, List.mem_cons, induction]
      constructor
      · rintro (rfl | ⟨index, found, place⟩)
        · exact ⟨0, rfl, rfl⟩
        · refine ⟨index + 1, found, ?_⟩
          rw [place, List.take_succ_cons, totalLength_cons, Nat.add_assoc]
      · rintro ⟨_ | index, found, place⟩
        · obtain rfl := Option.some.inj found
          exact .inl (by rw [← (show node.start = start from place)])
        · refine .inr ⟨index, found, ?_⟩
          rw [place, List.take_succ_cons, totalLength_cons, Nat.add_assoc]

theorem placed_append (start : Nat) (left right : List Subtree) :
    placed start (left ++ right) =
      placed start left ++ placed (start + totalLength left) right := by
  induction left generalizing start with
  | nil => rfl
  | cons child rest induction =>
      rw [List.cons_append, placed, induction, placed, totalLength_cons, ← Nat.add_assoc]
      rfl

variable {lexer : Lexer} {plain : PlainGrammar} {text : Text} {start : Nat} {subtree : Subtree}
  {subtrees : List Subtree}

/-- Whether a subtree at an offset of a text is a derivation tree with extras between its parts, and
the bytes of its extent decide that. -/
inductive Grown (lexer : Lexer) (plain : PlainGrammar) (text : Text) : Nat → Subtree → Prop
  /-- A token that is found at the offset. -/
  | token {start id : Nat} {spec : LeafSpec}
      (decides : lexer.Decides text start (spec.length + spec.lookahead) spec.symbol spec.length)
      (terminal : plain.isTerminal spec.symbol = true) (notEnd : spec.symbol ≠ .endOfInput)
      (extra : spec.extra = lexer.grammar.isExtra spec.symbol) :
    Grown lexer plain text start (.ofLeaf id spec)
  /-- A node that is made by its production.  No extra begins where it does, and none is the last
  one of its children. -/
  | node {start id : Nat} {spec : NodeSpec} {children : List Subtree} {source : PlainProduction}
      (listed : plain.productions[spec.production.index]? = some source)
      (symbol : spec.symbol = source.lhs) (spelled : plainSymbols children = source.rhs)
      (notExtra : spec.extra = false)
      (awake : lexer.Awake text start (Subtree.ofChildren id spec children).extent)
      (last : ∀ child ∈ children.getLast?, child.isExtra = false)
      (under : ∀ part ∈ placed start children, Grown lexer plain text part.start part.subtree) :
    Grown lexer plain text start (.ofChildren id spec children)

namespace Grown

/-- The bytes of its extent decide that a subtree is grown. -/
theorem moved (grown : Grown lexer plain text start subtree) {other : Text} {place : Nat}
    (agree : text.Agree start other place subtree.extent) :
    Grown lexer plain other place subtree := by
  induction grown generalizing place with
  | token decides terminal notEnd extra =>
      exact .token (decides.moved agree) terminal notEnd extra
  | @node start id spec children source listed symbol spelled notExtra awake last under induction =>
      refine .node listed symbol spelled notExtra (awake.moved agree) last fun part member => ?_
      obtain ⟨index, found, same⟩ := mem_placed.1 member
      have origin : ⟨part.subtree, start + totalLength (children.take index)⟩ ∈
          placed start children := mem_placed.2 ⟨index, found, rfl⟩
      rw [same]
      exact induction _ origin (agree.inner (extent_of_child id spec found))

theorem built (grown : Grown lexer plain text start subtree) : subtree.Built := by
  induction grown with
  | token => exact .token _ _
  | node listed symbol spelled notExtra awake last under induction =>
      refine .node _ _ fun child member => ?_
      obtain ⟨index, found⟩ := List.getElem?_of_mem member
      exact induction ⟨child, _⟩ (mem_placed.2 ⟨index, found, rfl⟩)

/-- A grown subtree that is no extra begins with a token that is none. -/
theorem awake (grown : Grown lexer plain text start subtree) (notExtra : subtree.isExtra = false) :
    lexer.Awake text start subtree.extent := by
  cases grown with
  | token decides terminal notEnd extra =>
      refine ⟨_, _, decides, fun skips => ?_⟩
      exact absurd (notExtra.symm.trans (extra.trans skips.1)) Bool.false_ne_true
  | node listed symbol spelled _ awake => exact awake

/-- An extra is a token. -/
theorem skips_of_extra (grown : Grown lexer plain text start subtree)
    (isExtra : subtree.isExtra = true) :
    subtree.isLeaf = true ∧ lexer.grammar.Skips subtree.symbol ∧
      lexer.Decides text start subtree.extent subtree.symbol subtree.length := by
  cases grown with
  | token decides terminal notEnd extra =>
      exact ⟨rfl, ⟨extra.symm.trans isExtra, notEnd⟩, decides⟩
  | node listed symbol spelled notExtra =>
      exact absurd (notExtra.symm.trans isExtra) Bool.false_ne_true

end Grown

/-- Whether the bytes of its extent decide which token a subtree begins with, and it is empty if it
has none. -/
structure Opens (lexer : Lexer) (text : Text) (start : Nat) (subtree : Subtree) : Prop where
  /-- The first token is decided. -/
  decides : ∀ leaf ∈ subtree.firstLeaf, leaf.symbol ≠ .endOfInput ∧
    ∃ length, lexer.Decides text start leaf.extent leaf.symbol length
  /-- Only what is empty has none. -/
  empty : subtree.firstLeaf = none → subtree.length = 0

theorem opens_of_parts (id : Nat) (spec : NodeSpec)
    (each : ∀ part ∈ placed start subtrees, Opens lexer text part.start part.subtree) :
    Opens lexer text start (.ofChildren id spec subtrees) := by
  induction subtrees generalizing start with
  | nil => exact ⟨nofun, fun _ => rfl⟩
  | cons child rest induction =>
      obtain ⟨first, others⟩ := List.forall_mem_cons.1 each
      cases found : child.firstLeaf with
      | some leaf =>
          have same : (ofChildren id spec (child :: rest)).firstLeaf = some leaf := by
            change (child :: rest).findSome? firstLeaf = _
            rw [List.findSome?_cons, found]
          refine ⟨fun other member => first.decides other ?_, fun none => ?_⟩
          · rwa [found, ← same]
          · rw [same] at none
            cases none
      | none =>
          have same : (ofChildren id spec (child :: rest)).firstLeaf =
              (ofChildren id spec rest).firstLeaf := by
            change (child :: rest).findSome? firstLeaf = rest.findSome? firstLeaf
            rw [List.findSome?_cons, found]
          have length := first.empty found
          have later := induction others
          rw [length, Nat.add_zero] at later
          refine ⟨fun leaf member => later.decides leaf (same ▸ member), fun none => ?_⟩
          change totalLength (child :: rest) = 0
          rw [totalLength_cons, length, Nat.zero_add]
          exact later.empty (same ▸ none)

/-- The first token of a grown subtree is decided. -/
theorem Grown.opens (grown : Grown lexer plain text start subtree) :
    Opens lexer text start subtree := by
  induction grown with
  | token decides terminal notEnd extra =>
      refine ⟨?_, nofun⟩
      rintro _ ⟨⟩
      exact ⟨notEnd, _, decides⟩
  | @node start id spec children source listed symbol spelled notExtra awake last under induction =>
      exact opens_of_parts id spec induction

/-! ## What is read along a grown subtree -/

/-- Whether subtrees that stand one after the other from an offset on derive a word of terminals,
and the terminal ahead of them is the first one of the word or else the one behind them. -/
structure ReadAs (lexer : Lexer) (plain : PlainGrammar) (text : Text) (start : Nat)
    (subtrees : List Subtree) (word : List Symbol) : Prop where
  /-- The word is derived from the symbols. -/
  derives : plain.Derives (plainSymbols subtrees) word
  /-- It consists of terminals. -/
  terminals : ∀ terminal ∈ word, plain.isTerminal terminal = true
  /-- It is what lies ahead. -/
  ahead {symbol : Symbol} : lexer.Ahead text (start + totalLength subtrees) symbol →
    lexer.Ahead text start (word.headD symbol)

theorem ReadAs.cons {first others : List Symbol}
    (one : ReadAs lexer plain text start [subtree] first)
    (rest : ReadAs lexer plain text (start + subtree.length) subtrees others) :
    ReadAs lexer plain text start (subtree :: subtrees) (first ++ others) where
  derives := by
    rw [← List.singleton_append, plainSymbols_append]
    exact one.derives.concat rest.derives
  terminals terminal member := (List.mem_append.1 member).elim (one.terminals terminal)
    (rest.terminals terminal)
  ahead {symbol} behind := by
    rw [totalLength_cons, ← Nat.add_assoc] at behind
    have between := one.ahead (rest.ahead behind)
    cases first with
    | nil => exact between
    | cons terminal later => exact between

section Boundaries

variable (loaded : lexer.grammar.IsLoaded) (internal : lexer.external = none)
  (wellFormed : text.WellFormed)

include loaded internal wellFormed

omit loaded internal wellFormed in
theorem boundary_of_parts
    (each : ∀ part ∈ placed start subtrees, text.isBoundary part.start = true →
      text.isBoundary (part.start + part.subtree.length) = true)
    (boundary : text.isBoundary start = true) :
    text.isBoundary (start + totalLength subtrees) = true := by
  induction subtrees generalizing start with
  | nil => exact boundary
  | cons child rest induction =>
      obtain ⟨first, others⟩ := List.forall_mem_cons.1 each
      rw [totalLength_cons, ← Nat.add_assoc]
      exact induction others (first boundary)

/-- A grown subtree that starts at a boundary ends at another one. -/
theorem Grown.boundary (grown : Grown lexer plain text start subtree)
    (boundary : text.isBoundary start = true) :
    text.isBoundary (start + subtree.length) = true := by
  induction grown with
  | token decides terminal notEnd extra =>
      obtain ⟨symbol, length⟩ := decides.found boundary
      rw [length_ofLeaf, ← length]
      exact Lexer.boundary_plainToken internal loaded wellFormed boundary (symbol ▸ notEnd)
  | node listed symbol spelled notExtra awake last under induction =>
      exact boundary_of_parts induction boundary

omit loaded internal wellFormed in
/-- A token is read as itself, or not at all if it is an extra. -/
theorem readAs_token {id : Nat} {spec : LeafSpec}
    (decides : lexer.Decides text start (spec.length + spec.lookahead) spec.symbol spec.length)
    (terminal : plain.isTerminal spec.symbol = true) (notEnd : spec.symbol ≠ .endOfInput)
    (extra : spec.extra = lexer.grammar.isExtra spec.symbol)
    (boundary : text.isBoundary start = true) :
    ∃ word, ReadAs lexer plain text start [.ofLeaf id spec] word := by
  obtain ⟨symbol, length⟩ := decides.found boundary
  have symbols : plainSymbols [.ofLeaf id spec] = if spec.extra then [] else [spec.symbol] :=
    plainSymbols_singleton _
  cases isExtra : spec.extra with
  | true =>
      rw [isExtra, if_pos rfl] at symbols
      refine ⟨[], symbols ▸ .refl, fun _ none => absurd none List.not_mem_nil, fun behind => ?_⟩
      refine .skip ⟨?_, symbol ▸ notEnd⟩ (length ▸ behind)
      rw [symbol, ← extra, isExtra]
  | false =>
      rw [isExtra, if_neg Bool.false_ne_true] at symbols
      refine ⟨[spec.symbol], symbols ▸ .refl, List.forall_mem_singleton.2 terminal, fun _ => ?_⟩
      have here : lexer.Ahead text start (lexer.plainToken text start).symbol := by
        refine .here fun skips => ?_
        rw [symbol] at skips
        exact absurd (isExtra.symm.trans (extra.trans skips.1)) Bool.false_ne_true
      rwa [symbol] at here

theorem exists_readAs_of_parts
    (grown : ∀ part ∈ placed start subtrees, Grown lexer plain text part.start part.subtree)
    (each : ∀ part ∈ placed start subtrees, text.isBoundary part.start = true →
      ∃ word, ReadAs lexer plain text part.start [part.subtree] word)
    (boundary : text.isBoundary start = true) :
    ∃ word, ReadAs lexer plain text start subtrees word := by
  induction subtrees generalizing start with
  | nil => exact ⟨[], .refl, fun _ none => absurd none List.not_mem_nil, fun behind => behind⟩
  | cons child rest induction =>
      obtain ⟨first, others⟩ := List.forall_mem_cons.1 each
      obtain ⟨firstGrown, othersGrown⟩ := List.forall_mem_cons.1 grown
      obtain ⟨word, one⟩ := first boundary
      obtain ⟨later, more⟩ := induction othersGrown others
        (firstGrown.boundary loaded internal wellFormed boundary)
      exact ⟨word ++ later, one.cons more⟩

/-- A grown subtree is read as a word that its symbol derives. -/
theorem Grown.exists_readAs (grown : Grown lexer plain text start subtree)
    (boundary : text.isBoundary start = true) :
    ∃ word, ReadAs lexer plain text start [subtree] word := by
  induction grown with
  | token decides terminal notEnd extra =>
      exact readAs_token decides terminal notEnd extra boundary
  | @node start id spec children source listed symbol spelled notExtra awake last under induction =>
      obtain ⟨word, read⟩ :=
        exists_readAs_of_parts loaded internal wellFormed under induction boundary
      have symbols : plainSymbols [.ofChildren id spec children] = [source.lhs] := by
        rw [plainSymbols_singleton,
          show (Subtree.ofChildren id spec children).isExtra = false from notExtra,
          if_neg Bool.false_ne_true]
        exact congrArg (fun symbol => [symbol]) symbol
      refine ⟨word, ?_, read.terminals, read.ahead⟩
      rw [symbols]
      exact .head (.of_mem (List.mem_of_getElem? listed)) (spelled ▸ read.derives)

end Boundaries

/-! ## Subtrees that are grown wherever they have no errors -/

/-- Whether all parts of a subtree that have no errors are grown, as it was made at an offset of a
text. -/
inductive Sound (lexer : Lexer) (plain : PlainGrammar) (text : Text) : Nat → Subtree → Prop
  /-- A subtree that is grown if it has no errors, and whose children are sound in their places. -/
  | mk {start : Nat} {subtree : Subtree} (built : subtree.Built)
      (own : subtree.errorCount = 0 → Grown lexer plain text start subtree)
      (under : ∀ part ∈ placed start subtree.children,
        Sound lexer plain text part.start part.subtree) : Sound lexer plain text start subtree

/-- Whether subtrees that stand one after the other from an offset on are sound. -/
def AllSound (lexer : Lexer) (plain : PlainGrammar) (text : Text) (start : Nat)
    (subtrees : List Subtree) : Prop :=
  ∀ part ∈ placed start subtrees, Sound lexer plain text part.start part.subtree

namespace Sound

theorem built (sound : Sound lexer plain text start subtree) : subtree.Built := by
  cases sound
  assumption

theorem own (sound : Sound lexer plain text start subtree) :
    subtree.errorCount = 0 → Grown lexer plain text start subtree := by
  cases sound
  assumption

theorem under (sound : Sound lexer plain text start subtree) :
    AllSound lexer plain text start subtree.children := by
  cases sound
  assumption

theorem moved (sound : Sound lexer plain text start subtree) {other : Text} {place : Nat}
    (agree : text.Agree start other place subtree.extent) :
    Sound lexer plain other place subtree := by
  induction sound generalizing place with
  | @mk start subtree built own under induction =>
      refine .mk built (fun clean => (own clean).moved agree) fun part member => ?_
      obtain ⟨index, found, same⟩ := mem_placed.1 member
      have origin : ⟨part.subtree, start + totalLength (subtree.children.take index)⟩ ∈
          placed start subtree.children := mem_placed.2 ⟨index, found, rfl⟩
      have inside : totalLength (subtree.children.take index) + part.subtree.extent ≤
          subtree.extent := by
        cases built with
        | token id spec => cases found
        | node id spec _ => exact extent_of_child id spec found
      rw [same]
      exact induction _ origin (agree.inner inside)

end Sound

theorem Grown.sound (grown : Grown lexer plain text start subtree) :
    Sound lexer plain text start subtree := by
  induction grown with
  | token decides terminal notEnd extra =>
      exact .mk (.token _ _) (fun _ => .token decides terminal notEnd extra) nofun
  | node listed symbol spelled notExtra awake last under induction =>
      have grown := Grown.node listed symbol spelled notExtra awake last under
      exact .mk grown.built (fun _ => grown) induction

theorem allSound_append {left right : List Subtree} :
    AllSound lexer plain text start (left ++ right) ↔ AllSound lexer plain text start left ∧
      AllSound lexer plain text (start + totalLength left) right := by
  simp only [AllSound, placed_append, List.forall_mem_append]

theorem allSound_cons :
    AllSound lexer plain text start (subtree :: subtrees) ↔ Sound lexer plain text start subtree ∧
      AllSound lexer plain text (start + subtree.length) subtrees :=
  List.forall_mem_cons

theorem allSound_singleton :
    AllSound lexer plain text start [subtree] ↔ Sound lexer plain text start subtree :=
  List.forall_mem_singleton

/-! ## Parts of an edited tree -/

/-- Whether all parts of a subtree of an edited tree, up to those that are marked as changed, are
sound over the edited text. -/
inductive Offered (lexer : Lexer) (plain : PlainGrammar) (text : Text) : Nat → Subtree → Prop
  /-- Nothing is marked. -/
  | sound {start : Nat} {subtree : Subtree} (sound : Sound lexer plain text start subtree) :
    Offered lexer plain text start subtree
  /-- The subtree itself is marked. -/
  | marked {start : Nat} {subtree : Subtree} (changed : subtree.hasChanges = true)
      (under : ∀ part ∈ placed start subtree.children,
        Offered lexer plain text part.start part.subtree) : Offered lexer plain text start subtree

/-- What is not marked and has no errors is grown. -/
theorem Offered.grown (offered : Offered lexer plain text start subtree)
    (unchanged : subtree.hasChanges = false) (clean : subtree.errorCount = 0) :
    Grown lexer plain text start subtree := by
  cases offered with
  | sound sound => exact sound.own clean
  | marked changed => exact absurd (unchanged.symm.trans changed) Bool.false_ne_true

theorem Offered.under (offered : Offered lexer plain text start subtree) :
    ∀ part ∈ placed start subtree.children, Offered lexer plain text part.start part.subtree := by
  cases offered with
  | sound sound => exact fun part member => .sound (sound.under part member)
  | marked changed under => exact under

section Edits

variable {edit : Edit} {before after : Text} (turns : edit.Turns before after)

include turns

theorem offered_plainEditAll (sound : AllSound lexer plain before start subtrees)
    (each : ∀ part ∈ placed start subtrees, Offered lexer plain after
      ((EditMap.ofEdit edit before.size).map part.start)
      (plainEdit (.ofEdit edit before.size) part.start part.subtree)) :
    ∀ part ∈ placed ((EditMap.ofEdit edit before.size).map start)
      (plainEditAll (.ofEdit edit before.size) start subtrees),
      Offered lexer plain after part.start part.subtree := by
  have ordered := EditMap.ordered_ofEdit edit before.size
  induction subtrees generalizing start with
  | nil => exact nofun
  | cons child rest induction =>
      obtain ⟨childSound, restSound⟩ := allSound_cons.1 sound
      obtain ⟨first, others⟩ := List.forall_mem_cons.1 each
      have later := induction restSound others
      have order := EditMap.map_mono ordered (Nat.le_add_right start child.length)
      have room := EditMap.newLength_eq ordered (Nat.le_add_right start child.length)
      rw [plainEditAll]
      split
      · next untouched =>
          have stays := EditMap.newLength_untouched ordered untouched
          obtain ⟨spared, -⟩ := EditMap.spares_of_untouched ordered untouched (Nat.zero_le _)
            (Nat.zero_add child.extent).le
          refine List.forall_mem_cons.2 ⟨.sound (childSound.moved fun index inside => ?_), ?_⟩
          · exact (turns.byte?_of_spares spared inside).symm
          · rw [show (EditMap.ofEdit edit before.size).map start + child.length =
              (EditMap.ofEdit edit before.size).map (start + child.length) by omega]
            exact later
      · refine List.forall_mem_cons.2 ⟨first, ?_⟩
        rw [length_plainEdit, room, Nat.add_sub_cancel' order]
        exact later

theorem offered_plainEdit (sound : AllSound lexer plain before start subtree.children)
    (each : ∀ part ∈ placed start subtree.children, Offered lexer plain after
      ((EditMap.ofEdit edit before.size).map part.start)
      (plainEdit (.ofEdit edit before.size) part.start part.subtree)) :
    Offered lexer plain after ((EditMap.ofEdit edit before.size).map start)
      (plainEdit (.ofEdit edit before.size) start subtree) := by
  obtain ⟨data, children⟩ := subtree
  rw [plainEdit]
  split
  · exact .marked rfl nofun
  · exact .marked rfl (offered_plainEditAll turns sound each)

theorem Sound.plainEdit (sound : Sound lexer plain before start subtree) :
    Offered lexer plain after ((EditMap.ofEdit edit before.size).map start)
      (Subtree.plainEdit (.ofEdit edit before.size) start subtree) := by
  induction sound with
  | mk built own under induction => exact offered_plainEdit turns under induction

/-- The parts of a tree with sound parts are offered over the edited text. -/
theorem offered_afterEdit (nonempty : 0 < before.size) (spans : subtree.length = before.size)
    (sound : AllSound lexer plain before 0 subtree.children) :
    Offered lexer plain after 0 (subtree.afterEdit edit) := by
  have offered :=
    offered_plainEdit turns sound fun part member => (sound part member).plainEdit turns
  rwa [EditMap.map_ofEdit_zero edit nonempty, ← spans] at offered

end Edits

end Subtree

end IncrementalGlr
