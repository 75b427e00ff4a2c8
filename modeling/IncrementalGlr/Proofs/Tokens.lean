import IncrementalGlr.Proofs.Lookahead.Choice
import IncrementalGlr.Proofs.Utf8
import IncrementalGlr.Token.Lexer

/-!
# Tokens tile their text

A walk over the tokens of a text goes from boundary to boundary: a scan that starts at one ends its
matches at others, and text that no rule matches is given up only where a character begins.  Each
token takes the walk further, so the walk is over after finitely many tokens, and these lie one
behind the other from the start of the text to its end.
-/

namespace IncrementalGlr

namespace Thread

/-- Whether a thread agrees with the characters of a text at an offset: a pattern is tried where a
character begins, and the next one begins behind the bytes that a character begun misses. -/
def Aligned (text : Text) (offset : Nat) : Thread → Prop
  | between _ _ => text.isBoundary offset = true
  | inside _ char _ _ => text.isBoundary (offset + char.missing) = true ∧ 0 < char.missing

variable {text : Text} {offset : Nat}

theorem aligned_of_afterByte {rule : Nat} {char : Option PartialChar} {set : CharSet}
    {rest : Pattern} {next : Thread} (after : afterByte rule char set rest = some next)
    (boundary : ∀ begun, char = some begun → text.isBoundary (offset + begun.missing) = true) :
    next.Aligned text offset := by
  unfold afterByte at after
  split at after
  · cases after
  · next begun =>
      have here := boundary begun rfl
      split at after
      · cases after
      · split at after
        · next whole =>
            obtain rfl := Option.some.inj after
            rwa [whole] at here
        · next missing =>
            obtain rfl := Option.some.inj after
            exact ⟨here, Nat.pos_of_ne_zero missing⟩

/-- A byte takes threads from one offset to the next. -/
theorem Aligned.read (wellFormed : text.WellFormed) {thread : Thread}
    (aligned : thread.Aligned text offset) {byte : UInt8} (here : text.byte? offset = some byte)
    {place : Place} {next : Thread} (member : next ∈ thread.read place byte) :
    next.Aligned text (offset + 1) := by
  cases thread with
  | between rule rest =>
      simp only [Thread.read, List.mem_filterMap] at member
      obtain ⟨head, -, after⟩ := member
      exact aligned_of_afterByte after fun begun begins => wellFormed.next here aligned begins
  | inside rule char set rest =>
      simp only [Thread.read, Option.mem_toList] at member
      refine aligned_of_afterByte member fun begun extends_ => ?_
      unfold PartialChar.extend at extends_
      dsimp only at extends_
      split at extends_
      · obtain rfl := Option.some.inj extends_
        obtain ⟨boundary, missing⟩ := aligned
        dsimp only
        rwa [show offset + 1 + (char.missing - 1) = offset + char.missing by omega]
      · cases extends_

/-- Where a rule is complete a character begins. -/
theorem boundary_of_completed {threads : List Thread}
    (aligned : ∀ thread ∈ threads, thread.Aligned text offset) {place : Place} {rule : Nat}
    (member : rule ∈ completed place threads) : text.isBoundary offset = true := by
  simp only [completed, List.mem_eraseDups, List.mem_filterMap] at member
  obtain ⟨thread, threadMember, complete⟩ := member
  have here := aligned thread threadMember
  cases thread with
  | between rule rest => exact here
  | inside rule char set rest => cases complete

end Thread

namespace Scan

variable {text : Text} {start offset remaining : Nat}

/-- Matches end where a character begins. -/
theorem runFrom_boundary (wellFormed : text.WellFormed) {threads : List Thread}
    (aligned : ∀ thread ∈ threads, thread.Aligned text offset)
    (whole : offset + remaining = text.size) {found : Nat × Nat}
    (member : found ∈ (runFrom text start offset threads remaining).matched) :
    text.isBoundary found.2 = true := by
  have reportedHere : ∀ {offset : Nat} {threads : List Thread} {place : Place},
      (∀ thread ∈ threads, thread.Aligned text offset) →
        found ∈ reported start offset (Thread.completed place threads) →
          text.isBoundary found.2 = true := by
    intro offset threads place aligned member
    unfold reported at member
    split at member
    · obtain ⟨rule, complete, rfl⟩ := List.mem_map.1 member
      exact Thread.boundary_of_completed aligned complete
    · cases member
  induction remaining generalizing offset threads with
  | zero => exact reportedHere aligned member
  | succ remaining induction =>
      obtain ⟨byte, here⟩ := Text.lt_size_iff.1 (show offset < text.size by omega)
      have read : (text.byte? offset).getD 0 = byte := by rw [here, Option.getD_some]
      by_cases stops : Stops text offset byte threads
      · rw [runFrom_of_stops read stops] at member
        cases member
      · rw [runFrom_of_goes read stops] at member
        rcases List.mem_append.1 member with before | later
        · exact reportedHere aligned before
        · refine induction (fun next nextMember => ?_) (by omega) later
          simp only [Thread.readAll, List.mem_eraseDups, List.mem_flatMap] at nextMember
          obtain ⟨thread, threadMember, inside⟩ := nextMember
          exact (aligned thread threadMember).read wellFormed here inside

theorem run_boundary (wellFormed : text.WellFormed) {patterns : List Pattern}
    (inside : offset ≤ text.size) (boundary : text.isBoundary offset = true) {found : Nat × Nat}
    (member : found ∈ (run patterns text offset).matched) : text.isBoundary found.2 = true := by
  unfold run at member
  split at member
  · cases member
  · refine runFrom_boundary wellFormed (fun thread started => ?_) (by omega) member
    obtain ⟨⟨pattern, rule⟩, -, rfl⟩ := List.mem_map.1 started
    exact boundary

end Scan

theorem Text.isBoundary_size (text : Text) : text.isBoundary text.size = true := by
  rw [isBoundary, byte?_eq_none_iff.2 (Nat.le_refl _)]
  exact beq_self_eq_true _

namespace Lexer

variable {lexer : Lexer} {text : Text} {offset : Nat}

/-- A token that lexical rules find where a character begins ends where one does. -/
theorem boundary_lexicalToken (wellFormed : text.WellFormed) (before : offset < text.size)
    (boundary : text.isBoundary offset = true) (valid : SymbolSet) :
    text.isBoundary (lexer.lexicalToken text offset valid).range.stop = true := by
  rw [lexicalToken_eq]
  cases found : lexer.bestMatch? valid (lexer.grammar.lexicon.scan text offset).matched with
  | some best =>
      obtain ⟨entry, member, rfl⟩ := bestMatch?_mem found
      exact Scan.run_boundary wellFormed before.le boundary member
  | none =>
      have resumes : Resumes (lexer.grammar.lexicon.scan text) text (offset + 1)
          (lexer.errorToken text offset (lexer.grammar.lexicon.scan text offset).examined).range.stop := by
        rw [errorToken, if_pos boundary, ← recoverWith_scan]
        exact recoverWith_resumes before (by omega)
      rcases resumes.matches_or with atEnd | ⟨resumed, -⟩
      · exact atEnd ▸ text.isBoundary_size
      · exact resumed

end Lexer

namespace TokenWalk

/-- Whether a walk hands out exactly the given tokens and then nothing, and goes on as another one. -/
inductive Yields : TokenWalk → List Token → TokenWalk → Prop
  /-- The walk is over. -/
  | over {walk later : TokenWalk} (next : walk.next = (none, later)) : Yields walk [] later
  /-- There is one more token. -/
  | token {walk later last : TokenWalk} {token : Token} {tokens : List Token}
    (next : walk.next = (some token, later)) (rest : Yields later tokens last) :
    Yields walk (token :: tokens) last

end TokenWalk

/-- Whether tokens lie one behind the other from an offset of a text to its end. -/
inductive Text.TiledFrom (text : Text) : Nat → List Token → Prop
  /-- The end is reached. -/
  | atEnd : TiledFrom text text.size []
  /-- A token that is not empty and whose ends are boundaries, and then others. -/
  | token {offset : Nat} {token : Token} {tokens : List Token} (start : token.range.start = offset)
    (boundary : text.isBoundary offset = true) (nonempty : offset < token.range.stop)
    (ends : text.isBoundary token.range.stop = true) (rest : TiledFrom text token.range.stop tokens) :
    TiledFrom text offset (token :: tokens)

/-- Whether tokens are the pieces of a text in their order. -/
structure Text.TiledBy (text : Text) (tokens : List Token) : Prop where
  /-- No token is empty. -/
  nonempty : ∀ token ∈ tokens, token.range.start < token.range.stop
  /-- Tokens begin and end where characters do. -/
  boundaries : ∀ token ∈ tokens, text.isBoundary token.range.start = true ∧
    text.isBoundary token.range.stop = true
  /-- The first token starts with the text. -/
  first : ∀ token ∈ tokens.head?, token.range.start = 0
  /-- Every other one starts where the one before ends. -/
  adjacent : tokens.IsChain fun before token => token.range.start = before.range.stop
  /-- The last one ends with the text.  Only an empty text has none. -/
  last : (tokens.getLast?.map fun token => token.range.stop).getD 0 = text.size

namespace Text.TiledFrom

variable {text : Text} {offset : Nat} {tokens : List Token}

theorem first (tiled : text.TiledFrom offset tokens) :
    ∀ token ∈ tokens.head?, token.range.start = offset := by
  cases tiled with
  | atEnd => exact nofun
  | token start => exact fun token same => Option.some.inj same ▸ start

theorem each (tiled : text.TiledFrom offset tokens) : ∀ token ∈ tokens,
    token.range.start < token.range.stop ∧ text.isBoundary token.range.start = true ∧
      text.isBoundary token.range.stop = true := by
  induction tiled with
  | atEnd => exact nofun
  | token start boundary nonempty ends rest induction =>
      exact List.forall_mem_cons.2 ⟨start ▸ ⟨nonempty, boundary, ends⟩, induction⟩

theorem adjacent (tiled : text.TiledFrom offset tokens) :
    tokens.IsChain fun before token => token.range.start = before.range.stop := by
  induction tiled with
  | atEnd => exact .nil
  | token start boundary nonempty ends rest induction =>
      exact List.isChain_cons.2 ⟨rest.first, induction⟩

theorem last (tiled : text.TiledFrom offset tokens) :
    (tokens.getLast?.map fun token => token.range.stop).getD offset = text.size := by
  induction tiled with
  | atEnd => rfl
  | @token offset token tokens start boundary nonempty ends rest induction =>
      rw [List.getLast?_cons, ← induction]
      cases tokens.getLast? <;> rfl

theorem tiledBy (tiled : text.TiledFrom 0 tokens) : text.TiledBy tokens :=
  ⟨fun token member => (tiled.each token member).1, fun token member => (tiled.each token member).2,
    tiled.first, tiled.adjacent, tiled.last⟩

end Text.TiledFrom

namespace Lexer

variable {lexer : Lexer} {text : Text} {offset : Nat}

/-- Without a scanner for external terminals only lexical rules find tokens. -/
theorem nextInState_internal (internal : lexer.external = none) (lexState : LexStateId) :
    lexer.nextInState text offset lexState =
      lexer.tokenAt text offset (lexer.grammar.validSymbols lexState) none := by
  rw [nextInState, internal]
  rfl

theorem standsAt_of_internal (loaded : lexer.grammar.IsLoaded) (internal : lexer.external = none)
    (bound : offset ≤ text.size) (lexState : LexStateId) :
    (lexer.nextInState text offset lexState).StandsAt text offset := by
  rw [nextInState_internal internal]
  exact tokenAt_standsAt loaded.lexRule_ne loaded.length_patterns (fun _ _ found => nomatch found)
    bound

/-- Away from the end of the text the token at a boundary ends at another one. -/
theorem boundary_nextInState (internal : lexer.external = none) (wellFormed : text.WellFormed)
    (before : offset < text.size) (boundary : text.isBoundary offset = true)
    (lexState : LexStateId) :
    text.isBoundary (lexer.nextInState text offset lexState).range.stop = true := by
  rw [nextInState_internal internal, tokenAt, if_neg before.not_ge]
  exact boundary_lexicalToken wellFormed before boundary _

/-- From a boundary on, a walk hands out tokens that tile the rest of the text. -/
theorem tokensFrom_tiled (loaded : lexer.grammar.IsLoaded) (internal : lexer.external = none)
    (wellFormed : text.WellFormed) (bound : offset ≤ text.size)
    (boundary : text.isBoundary offset = true) {budget : Nat} (enough : text.size < offset + budget) :
    text.TiledFrom offset (lexer.tokensFrom text offset budget) ∧
      ∃ last : TokenWalk, TokenWalk.Yields ⟨lexer, text, offset, false⟩
        (lexer.tokensFrom text offset budget) last ∧ last.next = (none, last) := by
  induction budget generalizing offset with
  | zero => omega
  | succ budget induction =>
      have stands := standsAt_of_internal loaded internal bound .errorMode
      rw [tokensFrom]
      cases isEnd : (lexer.nextInState text offset .errorMode).isEnd with
      | true =>
          obtain rfl := stands.onlyAtEnd (by simpa [Token.isEnd] using isEnd)
          exact ⟨.atEnd, ⟨lexer, text, text.size, true⟩, .over (by simp [TokenWalk.next, isEnd]),
            rfl⟩
      | false =>
          have before : offset < text.size := bound.lt_of_ne fun same => by
            rw [Token.isEnd, (stands.atEnd same).1] at isEnd
            exact absurd isEnd (by decide)
          have nonempty := stands.nonempty before
          have ends := boundary_nextInState internal wellFormed before boundary .errorMode
          obtain ⟨tiled, last, yields, ended⟩ := induction stands.inside ends (by omega)
          exact ⟨.token stands.start boundary nonempty ends tiled, last,
            .token (by simp [TokenWalk.next, isEnd]) yields, ended⟩

/-- Without a scanner for external terminals, the walk over a text is over after finitely many
tokens, hands out nothing more from then on, and its tokens are the pieces of the text in their
order. -/
theorem walk_tiles {data : GrammarData} {checksum : UInt32} {grammar : Grammar}
    (made : Grammar.withChecksum data checksum = .ok grammar) (source : String) :
    ∃ tokens last, ((Lexer.mk grammar none).walk (Text.ofString source)).Yields tokens last ∧
      last.next = (none, last) ∧ (Text.ofString source).TiledBy tokens ∧
        (Lexer.mk grammar none).tokens (Text.ofString source) = tokens := by
  have loaded := (Grammar.isLoaded_of_withChecksum made).2
  have wellFormed := Text.wellFormed_ofString source
  have enough : (Text.ofString source).size < 0 + ((Text.ofString source).size + 1) := by omega
  obtain ⟨tiled, last, yields, ended⟩ := @tokensFrom_tiled ⟨grammar, none⟩ (Text.ofString source) 0
    loaded rfl wellFormed (Nat.zero_le _) wellFormed.start _ enough
  exact ⟨_, last, yields, ended, tiled.tiledBy, rfl⟩

end Lexer

/-- A grammar whose only terminal may be empty. -/
def GrammarData.letters : GrammarData where
  name := "letters"
  symbols := [⟨"end", .endOfInput, false, true, false⟩, ⟨"word", .terminal, true, true, false⟩,
    ⟨"text", .nonterminal, true, true, false⟩]
  terminalCount := 2
  startSymbol := ⟨2⟩
  lexRules := [⟨⟨1⟩, .regex "[a-c]*", 0⟩]
  productions := [⟨⟨2⟩, 1, 0⟩]
  lexStates := [[⟨0⟩, ⟨1⟩]]
  states := [⟨⟨0⟩, [(⟨1⟩, [.shift ⟨1⟩])], [(⟨2⟩, ⟨2⟩)]⟩, ⟨⟨0⟩, [(⟨0⟩, [.reduce ⟨0⟩])], []⟩,
    ⟨⟨0⟩, [(⟨0⟩, [.accept])], []⟩]

/-- Two characters of several bytes that no rule accepts are one token between two words. -/
theorem Lexer.walk_tiles_letters : ∃ grammar, Grammar.ofData .letters = .ok grammar ∧
    ∃ tokens last, ((Lexer.mk grammar none).walk (Text.ofString "ab→éc")).Yields tokens last ∧
      last.next = (none, last) ∧ (Text.ofString "ab→éc").TiledBy tokens ∧
        tokens.map Token.range = [⟨0, 2⟩, ⟨2, 7⟩, ⟨7, 8⟩] := by
  have computed : ((Grammar.ofData .letters).toOption.any fun grammar =>
      ((Lexer.mk grammar none).tokens (Text.ofString "ab→éc")).map Token.range =
        [⟨0, 2⟩, ⟨2, 7⟩, ⟨7, 8⟩]) = true := by
    decide +kernel
  obtain ⟨grammar, loaded, ranges⟩ := Except.exists_of_any computed
  obtain ⟨tokens, last, yields, ended, tiled, same⟩ := walk_tiles loaded "ab→éc"
  exact ⟨grammar, loaded, tokens, last, yields, ended, tiled, same ▸ of_decide_eq_true ranges⟩

end IncrementalGlr
