import IncrementalGlr.Proofs.Lalr.Machine
import IncrementalGlr.Proofs.Reparsing.Grown
import IncrementalGlr.Proofs.Search.Decisive

/-!
# Trees that are made again

The table of a grammar without precedences and conflicts leads along every derivation tree.  So the
machine makes whatever is grown over a text again, subtree by subtree, wherever an item is waiting
for it: it shifts the same tokens, passes over the same extras and reduces the same productions.
What is grown over the whole text is accepted.
-/

namespace IncrementalGlr

open Lalr (Context Item)
open Version (Advances Performs Runs Accepts)

namespace Grammar.ComesFrom

variable {grammar : Grammar} {plain : PlainGrammar} {table : Lalr.Table}
  (comes : grammar.ComesFrom plain table)

include comes

/-- An action of a table is one of the grammar. -/
theorem mem_actions {state : StateId} {terminal : Symbol} {action : Action}
    (acts : table.Acts state terminal action) : action ∈ grammar.actions state terminal := by
  obtain ⟨source, found, ⟨_, kept⟩, listed, rfl, inside⟩ := acts
  obtain ⟨last, lastFound, lastListed⟩ := exists_lastFor listed
  obtain ⟨sources, resolved⟩ := comes.resolved
  obtain ⟨bound, rfl⟩ := List.getElem?_eq_some_iff.1 found
  have cell := resolved.cells.get (by rwa [resolved.cells.length_eq]) bound
  have same := ((cell _ _).1 listed).2.2
  have lastSame := ((cell _ _).1 lastListed).2.2
  rw [comes.loaded.actions_eq_listed, GrammarData.listedActions, comes.states,
    List.getElem?_eq_getElem bound, Option.bind_some, lastFound, Option.getD_some, lastSame, ← same]
  exact inside

/-- A goto of a table is that of the grammar. -/
theorem goto_eq {automaton : Lalr.Automaton} (made : table.MadeFrom plain automaton)
    {state next : StateId} {symbol : Symbol} (goes : table.Goes state symbol next) :
    grammar.goto? state symbol = some next := by
  obtain ⟨source, found, listed⟩ := goes
  rw [← comes.states] at found
  obtain ⟨target, goto⟩ := comes.loaded.goto_found found listed
  obtain ⟨other, otherFound, otherListed⟩ := comes.loaded.goto_listed goto
  obtain rfl := Option.some.inj (found.symm.trans otherFound)
  obtain ⟨kernel, edges, -, stands, links⟩ := comes.stands_state made found
  obtain ⟨first, firstEdge, firstSame⟩ := stands.gotos _ listed
  obtain ⟨second, secondEdge, secondSame⟩ := stands.gotos _ otherListed
  rw [goto, show target = next from secondSame.trans
    ((congrArg StateId.ofIndex (links.target_inj secondEdge firstEdge)).trans firstSame.symm)]

end Grammar.ComesFrom

/-- Whether the table of a grammar leads along all derivation trees: what is expected of a state,
that an item goes on there and is followed by a terminal in the end, is what its actions and gotos
do. -/
structure Grammar.Predicts (grammar : Grammar) (plain : PlainGrammar)
    (expects : StateId → Item → Symbol → Prop) : Prop where
  /-- At the start the whole text is expected. -/
  start : expects .start ⟨plain.productions.length, 0⟩ .endOfInput
  /-- A terminal that comes next is shifted. -/
  shift {state : StateId} {item : Item} {terminal symbol : Symbol} :
    expects state item terminal → (Context.ofGrammar plain).next? item = some symbol →
      plain.isTerminal symbol = true →
        ∃ next, grammar.actions state symbol = [.shift next] ∧ expects next item.advance terminal
  /-- For a nonterminal that comes next there is a goto. -/
  goto {state : StateId} {item : Item} {terminal symbol : Symbol} :
    expects state item terminal → (Context.ofGrammar plain).next? item = some symbol →
      plain.isTerminal symbol = false →
        ∃ next, grammar.goto? state symbol = some next ∧ expects next item.advance terminal
  /-- Its productions are expected, followed by what the rest begins with. -/
  call {state : StateId} {production dot number : Nat} {symbol terminal : Symbol}
    {rest word : List Symbol} {source : PlainProduction} :
    expects state ⟨production, dot⟩ terminal →
      ((Context.ofGrammar plain).rhs production).drop dot = symbol :: rest →
        plain.productions[number]? = some source → source.lhs = symbol →
          plain.Derives rest word → (∀ terminal ∈ word, plain.isTerminal terminal = true) →
            expects state ⟨number, 0⟩ (word.headD terminal)
  /-- A production is reduced before the terminal that follows it. -/
  reduce {state : StateId} {number : Nat} {source : PlainProduction} {terminal : Symbol} :
    expects state ⟨number, source.rhs.length⟩ terminal →
      plain.productions[number]? = some source → plain.isTerminal terminal = true →
        grammar.actions state terminal = [.reduce (.ofIndex number)]
  /-- The whole text is accepted at the end of the input. -/
  accept {state : StateId} {terminal : Symbol} :
    expects state ⟨plain.productions.length, 1⟩ terminal →
      grammar.actions state .endOfInput = [.accept]

/-- A compiled grammar without precedences and conflicts leads along all derivation trees. -/
theorem Grammar.ComesFrom.exists_predicts {grammar : Grammar} {plain : PlainGrammar}
    {table : Lalr.Table} (comes : grammar.ComesFrom plain table) (numbered : plain.Numbered)
    (neutral : plain.Neutral) (quiet : table.conflicts = []) :
    ∃ expects, grammar.Predicts plain expects := by
  obtain ⟨automaton, lookaheads, built⟩ :=
    Lalr.Table.built_of_ofGrammar numbered neutral comes.built
  have decisive := comes.decisive quiet
  have only {state : StateId} {terminal : Symbol} {action : Action}
      (acts : table.Acts state terminal action) : grammar.actions state terminal = [action] :=
    decisive.eq_singleton (comes.mem_actions acts)
  obtain ⟨origin, made⟩ := Lalr.Table.madeFrom_of_ofGrammar comes.sound comes.built
  refine ⟨fun state => Lalr.Expects (Context.ofGrammar plain) automaton lookaheads state.index, ?_⟩
  constructor
  case start => exact .of_kernel built.complete.start rfl built.propagates.start
  case shift =>
    intro state item terminal symbol expects next isTerminal
    obtain ⟨after, shifts, -, advanced⟩ := leads_of_built built expects next
    exact ⟨after, only (shifts isTerminal), advanced⟩
  case goto =>
    intro state item terminal symbol expects next nonterminal
    obtain ⟨after, -, goes, advanced⟩ := leads_of_built built expects next
    exact ⟨after, comes.goto_eq made (goes nonterminal), advanced⟩
  case call =>
    intro state production dot number symbol terminal rest word source expects spelled found lhs
      derives terminals
    have starts : Lalr.FirstSets.Starts word ((Lalr.FirstSets.ofGrammar plain).ofString rest) :=
      (Lalr.FirstSets.solves_ofGrammar numbered).starts_of_derives derives
        fun first listed => terminals first (List.mem_of_mem_head? listed)
    exact expects.call numbered spelled found lhs starts
  case reduce =>
    intro state number source terminal expects found isTerminal
    exact only (reduces_of_built built found expects isTerminal)
  case accept =>
    intro state terminal expects
    exact only (accepts_of_built built expects)

/-! ## Taking what has been pushed -/

namespace Subtree

theorem plainSymbols_twins {left right : List Subtree} (twins : List.Forall₂ Twin left right) :
    plainSymbols left = plainSymbols right := by
  induction twins with
  | nil => rfl
  | @cons one other _ _ twin others induction =>
      rw [← List.singleton_append, plainSymbols_append, ← @List.singleton_append _ other,
        plainSymbols_append, induction, plainSymbols_singleton, plainSymbols_singleton, twin.extra,
        (alike_iff.1 twin.alike).1]

theorem head_of_twins {left right : List Subtree} (twins : List.Forall₂ Twin left right)
    (head : ∀ subtree ∈ left.head?, subtree.isExtra = false) :
    ∀ subtree ∈ right.head?, subtree.isExtra = false := by
  cases twins with
  | nil => exact nofun
  | cons twin others =>
      rintro _ ⟨⟩
      exact twin.extra.symm.trans (head _ rfl)

end Subtree

namespace ParseStack

/-- Twins of subtrees are taken again if neither the first nor the last of these is an extra. -/
theorem takeChildren_twins {base pushed : ParseStack} {children extras : List Subtree}
    (some_ : children ≠ [])
    (twins : List.Forall₂ Subtree.Twin children pushed.subtrees)
    (first : ∀ child ∈ children.head?, child.isExtra = false)
    (last : ∀ child ∈ children.getLast?, child.isExtra = false)
    (areExtras : ∀ extra ∈ extras, extra.isExtra = true) {state : StateId} :
    ParseStack.takeChildren (Subtree.plainSymbols children).length
        (ParseStack.pushAll (pushed ++ base) state extras) =
      some (pushed.subtrees, extras, base) := by
  have height : (Subtree.plainSymbols children).length = pushed.plainHeight :=
    congrArg List.length (Subtree.plainSymbols_twins twins)
  have reversed := List.forall₂_reverse_iff.2 twins
  rw [ParseStack.subtrees, List.reverse_reverse] at reversed
  rw [height]
  refine Grounded.takeChildren_pushAll ?_ ?_ ?_ areExtras
  · intro entry member
    refine Subtree.head_of_twins twins first entry.subtree ?_
    rw [ParseStack.subtrees, List.head?_reverse, List.getLast?_map, member]
    rfl
  · rintro rfl
    exact some_ (List.forall₂_nil_right_iff.1 twins)
  · intro entry member
    rw [← List.head?_reverse] at last
    refine Subtree.head_of_twins reversed last entry.subtree ?_
    rw [List.head?_map, member]
    rfl

end ParseStack

/-! ## Extras that are passed over -/

namespace Lexer

/-- Whether extras are the tokens from an offset of a text up to another one. -/
inductive Skipped (lexer : Lexer) (text : Text) : Nat → List Subtree → Nat → Prop
  /-- There are none. -/
  | nil {offset : Nat} : Skipped lexer text offset [] offset
  /-- There is one at the offset. -/
  | cons {offset stop : Nat} {spec : LeafSpec} {rest : List Subtree}
      (skips : lexer.grammar.Skips (lexer.plainToken text offset).symbol)
      (symbol : spec.symbol = (lexer.plainToken text offset).symbol)
      (length : spec.length = (lexer.plainToken text offset).length) (extra : spec.extra = true)
      (later : Skipped lexer text (offset + spec.length) rest stop) :
    Skipped lexer text offset (.ofLeaf 0 spec :: rest) stop

namespace Skipped

variable {lexer : Lexer} {text : Text} {offset stop : Nat} {extras : List Subtree}

theorem areExtras (skipped : lexer.Skipped text offset extras stop) :
    ∀ extra ∈ extras, extra.isExtra = true := by
  induction skipped with
  | nil => exact List.forall_mem_nil _
  | cons skips symbol length extra later induction =>
      exact List.forall_mem_cons.2 ⟨extra, induction⟩

theorem snoc (skipped : lexer.Skipped text offset extras stop) {spec : LeafSpec}
    (skips : lexer.grammar.Skips (lexer.plainToken text stop).symbol)
    (symbol : spec.symbol = (lexer.plainToken text stop).symbol)
    (length : spec.length = (lexer.plainToken text stop).length) (extra : spec.extra = true) :
    lexer.Skipped text offset (extras ++ [.ofLeaf 0 spec]) (stop + spec.length) := by
  induction skipped with
  | nil => exact .cons skips symbol length extra .nil
  | cons firstSkips firstSymbol firstLength firstExtra later induction =>
      exact .cons firstSkips firstSymbol firstLength firstExtra (induction skips symbol length)

/-- What lies ahead of extras lies ahead behind them. -/
theorem ahead (skipped : lexer.Skipped text offset extras stop) {symbol : Symbol}
    (ahead : lexer.Ahead text offset symbol) : lexer.Ahead text stop symbol := by
  induction skipped with
  | nil => exact ahead
  | cons skips same length extra later induction =>
      cases ahead with
      | here awake => exact absurd skips awake
      | skip _ behind => exact induction (length ▸ behind)

/-- Where no extra begins, none is passed over. -/
theorem eq_nil (skipped : lexer.Skipped text offset extras stop)
    (awake : ¬ lexer.grammar.Skips (lexer.plainToken text offset).symbol) :
    extras = [] ∧ stop = offset := by
  cases skipped with
  | nil => exact ⟨rfl, rfl⟩
  | cons skips => exact absurd skips awake

theorem boundary (loaded : lexer.grammar.IsLoaded) (internal : lexer.external = none)
    (wellFormed : text.WellFormed) (skipped : lexer.Skipped text offset extras stop)
    (boundary : text.isBoundary offset = true) : text.isBoundary stop = true := by
  induction skipped with
  | nil => exact boundary
  | cons skips symbol length extra later induction =>
      refine induction ?_
      rw [length]
      exact boundary_plainToken internal loaded wellFormed boundary skips.2

end Skipped

end Lexer

/-! ## Waiting for a subtree -/

/-- What determines the leaf of a token. -/
def Token.leafSpec (token : Token) (grammar : Grammar) (state : StateId) (lexState : LexStateId)
    (extra : Bool) : LeafSpec :=
  { LeafSpec.ofGrammar grammar token.symbol token.length token.lookahead with
    parseState := state, lexState, extra }

theorem ParseRun.pushLeaf_token (grammar : Grammar) (version : Version) (token : Token)
    (lexState : LexStateId) (next : StateId) (extra : Bool) :
    pushLeaf (m := Id) grammar version (.token token lexState) next extra =
      { version.push next (.ofLeaf 0 (token.leafSpec grammar version.state lexState extra)) with
        position := version.position + token.length, lookahead := none } := rfl

/-- Whether a text is read without a scanner of its own, and which tokens it has depends neither on
the lexical state nor on what stands before them. -/
structure ParseJob.Steady (job : ParseJob) : Prop where
  /-- The grammar has all its tables. -/
  filled : job.lexer.grammar.IsFilled
  /-- Only lexical rules find tokens. -/
  internal : job.lexer.external = none
  /-- The text consists of whole characters. -/
  wellFormed : job.text.WellFormed
  /-- Its tokens do not depend on the lexical state. -/
  uniform : job.lexer.Uniform job.text
  /-- Nor do they depend on what stands before them. -/
  ahead : Lexer.LooksAhead job.lexer.grammar

variable {job : ParseJob} {plain : PlainGrammar} {items : StateId → Item → Prop}

/-- An extra is no unrecognised text. -/
theorem ParseJob.Steady.isError_of_skips (steady : job.Steady)
    (acts : job.grammar.ActsOn plain items)
    {offset : Nat} (skips : job.lexer.grammar.Skips (job.lexer.plainToken job.text offset).symbol) :
    (job.lexer.plainToken job.text offset).isError = false := by
  rcases Lexer.plainToken_terminal steady.internal steady.filled.toIsLoaded job.text offset with
    ⟨good, -⟩ | ⟨-, symbol⟩
  · exact good
  · rw [symbol] at skips
    exact absurd (acts.errorExtra.symm.trans skips.1) Bool.false_ne_true

namespace Version

/-- Whether a version has come to an offset with a stack, and perhaps passed over extras there and
found what follows them. -/
structure Waits (job : ParseJob) (base : ParseStack) (extras : List Subtree) (offset : Nat)
    (version : Version) : Prop where
  /-- The extras lie on the stack. -/
  stack : version.stack = base.pushAll base.state extras
  /-- They reach up to the position. -/
  skipped : job.lexer.Skipped job.text offset extras version.position
  /-- What comes next is no extra if it is known. -/
  lookahead : version.lookahead = none ∨ ∃ lexState,
    version.lookahead = some (.token (job.lexer.plainToken job.text version.position) lexState) ∧
      ¬ job.lexer.grammar.Skips (job.lexer.plainToken job.text version.position).symbol

namespace Waits

variable {base : ParseStack} {extras : List Subtree} {offset : Nat} {version : Version}

theorem state (waits : version.Waits job base extras offset) : version.state = base.state := by
  rw [Version.state, waits.stack, ParseStack.state_pushAll]

section Steady

variable (steady : job.Steady)
  (waits : version.Waits job base extras offset) (boundary : job.text.isBoundary offset = true)

include steady waits boundary

theorem isBoundary : job.text.isBoundary version.position = true :=
  waits.skipped.boundary steady.filled.toIsLoaded steady.internal steady.wellFormed boundary

/-- What comes next is the token at the position. -/
theorem upcoming_eq : ∃ lexState, version.upcoming job =
    .token (job.lexer.plainToken job.text version.position) lexState := by
  rcases waits.lookahead with unknown | ⟨lexState, known, -⟩
  · refine ⟨job.grammar.lexState version.state, ?_⟩
    rw [upcoming, unknown, Option.getD_none]
    exact congrArg (Lookahead.token · _)
      (steady.uniform.nextInState_eq steady.filled (waits.isBoundary steady boundary) version.state)
  · exact ⟨lexState, by rw [upcoming, known, Option.getD_some]⟩

/-- An extra is passed over. -/
theorem skip (acts : job.grammar.ActsOn plain items)
    (skips : job.lexer.grammar.Skips (job.lexer.plainToken job.text version.position).symbol) :
    ∃ after extra, Advances job version after ∧ after.Waits job base (extras ++ [extra]) offset ∧
      after.position = version.position +
        (job.lexer.plainToken job.text version.position).length := by
  obtain ⟨lexState, next⟩ := waits.upcoming_eq steady boundary
  have advances := @Advances.extra job version
  rw [next, ParseRun.pushLeaf_token, waits.state] at advances
  generalize specEq : Token.leafSpec _ job.grammar base.state lexState true = spec at advances
  have skipped : job.lexer.Skipped job.text offset (extras ++ [.ofLeaf 0 spec])
      (version.position + spec.length) :=
    waits.skipped.snoc skips (specEq ▸ rfl) (specEq ▸ rfl) (specEq ▸ rfl)
  refine ⟨_, .ofLeaf 0 spec, advances (acts.extras skips.1 skips.2) skips.1 skips.2
    (steady.isError_of_skips acts skips), ⟨?_, specEq ▸ skipped, .inl rfl⟩, rfl⟩
  rw [ParseStack.pushAll_snoc, ← waits.stack]
  rfl

/-- All extras are passed over until the first other token is found. -/
theorem settle (acts : job.grammar.ActsOn plain items) {symbol : Symbol}
    (ahead : job.lexer.Ahead job.text offset symbol) :
    ∃ after more, Runs job version after ∧ after.Waits job base more offset ∧
      (job.lexer.plainToken job.text after.position).symbol = symbol ∧
      ¬ job.lexer.grammar.Skips symbol := by
  have here := waits.skipped.ahead ahead
  clear ahead
  generalize place : version.position = position at here
  induction here generalizing version extras with
  | here awake => exact ⟨version, extras, .refl, waits, by rw [place], awake⟩
  | skip skips later induction =>
      rw [← place] at skips
      obtain ⟨after, extra, advances, waiting, moved⟩ := waits.skip steady boundary acts skips
      rw [place] at moved
      obtain ⟨last, more, runs, rest⟩ := induction waiting moved
      exact ⟨last, more, .head advances runs, rest⟩

end Steady

/-- Where no extra begins, none has been passed over. -/
theorem awake (waits : version.Waits job base extras offset)
    (awake : ¬ job.lexer.grammar.Skips (job.lexer.plainToken job.text offset).symbol) :
    extras = [] ∧ version.position = offset :=
  waits.skipped.eq_nil awake

/-- Twins of the children of a node are taken again if neither the first nor the last of these is an
extra.  For a node without children no extra may have been passed over. -/
theorem takeChildren_twins {pushed : ParseStack} {children : List Subtree}
    (waits : version.Waits job (pushed ++ base) extras offset)
    (twins : List.Forall₂ Subtree.Twin children pushed.subtrees)
    (first : ∀ child ∈ children.head?, child.isExtra = false)
    (last : ∀ child ∈ children.getLast?, child.isExtra = false)
    (bare : children = [] →
      ¬ job.lexer.grammar.Skips (job.lexer.plainToken job.text offset).symbol) :
    version.stack.takeChildren (Subtree.plainSymbols children).length =
      some (pushed.subtrees, extras, base) := by
  rw [waits.stack]
  by_cases none : children = []
  · subst none
    obtain ⟨rfl, -⟩ := waits.awake (bare rfl)
    obtain rfl : pushed = [] := by
      simpa [ParseStack.subtrees] using List.forall₂_nil_left_iff.1 twins
    exact ParseStack.takeChildren_zero base
  · exact ParseStack.takeChildren_twins none twins first last waits.skipped.areExtras

/-- A token is shifted. -/
theorem shift (steady : job.Steady) (waits : version.Waits job base [] offset)
    (boundary : job.text.isBoundary offset = true) {next : StateId}
    (action : .shift next ∈
      job.grammar.actions base.state (job.lexer.plainToken job.text offset).symbol) :
    ∃ (after : Version) (spec : LeafSpec), Advances job version after ∧
      spec.symbol = (job.lexer.plainToken job.text offset).symbol ∧
      spec.length = (job.lexer.plainToken job.text offset).length ∧ spec.extra = false ∧
      after.Waits job (⟨next, .ofLeaf 0 spec⟩ :: base) [] (offset + spec.length) := by
  have here : version.position = offset := by
    cases waits.skipped
    rfl
  obtain ⟨lexState, upcoming⟩ := waits.upcoming_eq steady boundary
  have performs := @Performs.shift job version next
  rw [upcoming, ParseRun.pushLeaf_token, here, waits.state] at performs
  refine ⟨_, _, .act ?_ performs, rfl, rfl, rfl, congrArg (List.cons _) waits.stack, .nil, .inl rfl⟩
  rw [waits.state, upcoming, here]
  exact action

/-- A production is reduced. -/
theorem reduce (steady : job.Steady) (works : job.grammar.WorksOn plain items)
    {pushed below : ParseStack} (waits : version.Waits job (pushed ++ below) extras offset)
    (boundary : job.text.isBoundary offset = true)
    (awake : ¬ job.lexer.grammar.Skips (job.lexer.plainToken job.text version.position).symbol)
    {production : ProductionId} {source : PlainProduction}
    (found : plain.productions[production.index]? = some source)
    (action : .reduce production ∈ job.grammar.actions version.state
      (job.lexer.plainToken job.text version.position).symbol)
    (taken : version.stack.takeChildren source.rhs.length =
      some (ParseStack.subtrees pushed, extras, below)) {next : StateId}
    (goto : job.grammar.goto? below.state source.lhs = some next) :
    ∃ (after : Version) (spec : NodeSpec), Advances job version after ∧
      spec.symbol = source.lhs ∧ spec.extra = false ∧
      after.Waits job (⟨next, .ofChildren 0 spec (ParseStack.subtrees pushed)⟩ :: below) extras
        offset := by
  obtain ⟨lexState, upcoming⟩ := waits.upcoming_eq steady boundary
  obtain ⟨lhs, length⟩ := works.production found
  obtain ⟨following, reduced⟩ := @ParseRun.reduce_eq_some job.grammar
    { version with lookahead := some (version.upcoming job) } production false
    (ParseStack.subtrees pushed) extras below next (by rw [length]; exact taken)
    (by rw [lhs]; exact goto)
  refine ⟨_, _, .act (by rw [upcoming]; exact action) (.reduce false reduced), lhs, rfl, rfl,
    waits.skipped, .inr ⟨lexState, ?_, awake⟩⟩
  exact congrArg some upcoming

/-- An extra that is waited for is there or is passed over next. -/
theorem enterExtra (steady : job.Steady) (acts : job.grammar.ActsOn plain items)
    (waits : version.Waits job base extras offset) (boundary : job.text.isBoundary offset = true)
    {subtree : Subtree} (grown : subtree.Grown job.lexer plain job.text offset)
    (isExtra : subtree.isExtra = true) :
    ∃ after twin more, Runs job version after ∧ subtree.Twin twin ∧
      after.Waits job (⟨base.state, twin⟩ :: base) more (offset + subtree.length) := by
  cases grown with
  | node listed symbol spelled notExtra =>
      exact absurd (notExtra.symm.trans isExtra) Bool.false_ne_true
  | @token _ id spec decides terminal notEnd extra =>
      obtain ⟨symbol, length⟩ := decides.found boundary
      have skips : job.lexer.grammar.Skips (job.lexer.plainToken job.text offset).symbol := by
        rw [symbol]
        exact ⟨extra.symm.trans isExtra, notEnd⟩
      have passed : ∃ middle first rest, Runs job version middle ∧
          middle.Waits job base (first :: rest) offset := by
        cases extras with
        | cons first rest => exact ⟨version, first, rest, .refl, waits⟩
        | nil =>
            have here : version.position = offset := by
              cases waits.skipped
              rfl
            obtain ⟨middle, first, advances, waiting, -⟩ :=
              waits.skip steady boundary acts (here.symm ▸ skips)
            exact ⟨middle, first, [], .single advances, waiting⟩
      obtain ⟨middle, first, rest, runs, stack, skipped, lookahead⟩ := passed
      cases skipped with
      | @cons _ _ other _ _ otherSymbol otherLength otherExtra later =>
          have sameLength : spec.length = other.length := length.symm.trans otherLength.symm
          refine ⟨middle, _, rest, runs, Subtree.twin_ofLeaf (symbol.symm.trans otherSymbol.symm)
            sameLength (isExtra.trans otherExtra.symm), stack, ?_, lookahead⟩
          rw [Subtree.length_ofLeaf, sameLength]
          exact later

end Waits

end Version

/-! ## Making subtrees again -/

section Replay

variable {expects : StateId → Item → Symbol → Prop}

/-- Whether subtrees are made again, up to their ids and states, wherever a version waits for them
and the symbols of an item's production go on with theirs. -/
def Subtree.Replayed (job : ParseJob) (plain : PlainGrammar)
    (expects : StateId → Item → Symbol → Prop) (start : Nat) (subtrees : List Subtree) : Prop :=
  ∀ ⦃base : ParseStack⦄ ⦃extras : List Subtree⦄ ⦃version : Version⦄ ⦃production dot : Nat⦄
    ⦃rest word : List Symbol⦄ ⦃terminal : Symbol⦄,
    version.Waits job base extras start →
    ((Context.ofGrammar plain).rhs production).drop dot = Subtree.plainSymbols subtrees ++ rest →
    plain.Derives rest word → (∀ terminal ∈ word, plain.isTerminal terminal = true) →
    expects base.state ⟨production, dot⟩ terminal → plain.isTerminal terminal = true →
    job.lexer.Ahead job.text (start + Subtree.totalLength subtrees) (word.headD terminal) →
    ∃ after pushed more, Runs job version after ∧
      List.Forall₂ Subtree.Twin subtrees (ParseStack.subtrees pushed) ∧
      after.Waits job (pushed ++ base) more (start + Subtree.totalLength subtrees) ∧
      expects (ParseStack.state (pushed ++ base))
        ⟨production, dot + (Subtree.plainSymbols subtrees).length⟩ terminal

namespace Subtree

variable {start : Nat} {subtree : Subtree} {subtrees : List Subtree}

theorem replayed_nil : Replayed job plain expects start [] := by
  intro base extras version production dot rest word terminal waits spelled derives terminals
    expected isTerminal ahead
  exact ⟨version, [], extras, .refl, .nil, waits, expected⟩

theorem Replayed.cons {word : List Symbol} (one : Replayed job plain expects start [subtree])
    (others : Replayed job plain expects (start + subtree.length) subtrees)
    (read : ReadAs job.lexer plain job.text (start + subtree.length) subtrees word) :
    Replayed job plain expects start (subtree :: subtrees) := by
  intro base extras version production dot rest later terminal waits spelled derives terminals
    expected isTerminal ahead
  have parts :
      plainSymbols (subtree :: subtrees) = plainSymbols [subtree] ++ plainSymbols subtrees :=
    plainSymbols_append [subtree] subtrees
  rw [totalLength_cons, ← Nat.add_assoc] at ahead ⊢
  rw [parts, List.append_assoc] at spelled
  have single : totalLength [subtree] = subtree.length := by
    rw [totalLength_cons]
    rfl
  obtain ⟨middle, first, between, runs, twin, waiting, advanced⟩ := one waits spelled
    (read.derives.concat derives) (List.forall_mem_append.2 ⟨read.terminals, terminals⟩) expected
    isTerminal (by rw [single, headD_append]; exact read.ahead ahead)
  rw [single] at waiting
  have remaining : ((Context.ofGrammar plain).rhs production).drop
      (dot + (plainSymbols [subtree]).length) = plainSymbols subtrees ++ rest := by
    rw [← List.drop_drop, spelled, List.drop_left]
  obtain ⟨after, second, more, goesOn, twins, arrived, recognised⟩ :=
    others waiting remaining derives terminals advanced isTerminal ahead
  refine ⟨after, second ++ first, more, runs.trans goesOn, ?_, ?_, ?_⟩
  · rw [ParseStack.subtrees_append]
    exact List.rel_append twin twins
  · rw [List.append_assoc]
    exact arrived
  · rw [List.append_assoc, parts, List.length_append, ← Nat.add_assoc]
    exact recognised

section Machine

variable (steady : job.Steady) (acts : job.grammar.ActsOn plain items)
  (predicts : job.grammar.Predicts plain expects)

include steady acts

theorem replayed_extra (grown : Grown job.lexer plain job.text start subtree)
    (isExtra : subtree.isExtra = true) (boundary : job.text.isBoundary start = true) :
    Replayed job plain expects start [subtree] := by
  intro base extras version production dot rest word terminal waits spelled derives terminals
    expected isTerminal ahead
  obtain ⟨after, twin, more, runs, same, waiting⟩ :=
    waits.enterExtra steady acts boundary grown isExtra
  have none : plainSymbols [subtree] = [] := by rw [plainSymbols_singleton, isExtra, if_pos rfl]
  refine ⟨after, [⟨base.state, twin⟩], more, runs, .cons same .nil, waiting, ?_⟩
  rw [none]
  exact expected

include predicts

omit acts in
/-- A token is shifted. -/
theorem replayed_token {id : Nat} {spec : LeafSpec}
    (decides : job.lexer.Decides job.text start (spec.length + spec.lookahead) spec.symbol
      spec.length)
    (terminal : plain.isTerminal spec.symbol = true)
    (extra : spec.extra = job.lexer.grammar.isExtra spec.symbol) (notExtra : spec.extra = false)
    (boundary : job.text.isBoundary start = true) :
    Replayed job plain expects start [.ofLeaf id spec] := by
  intro base extras version production dot rest word following waits spelled derives terminals
    expected isTerminal ahead
  obtain ⟨symbol, length⟩ := decides.found boundary
  have symbols : plainSymbols [.ofLeaf id spec] = [spec.symbol] := by
    rw [plainSymbols_singleton, show (Subtree.ofLeaf id spec).isExtra = false from notExtra,
      if_neg Bool.false_ne_true]
    rfl
  rw [symbols, List.singleton_append] at spelled
  have next : (Context.ofGrammar plain).next? ⟨production, dot⟩ = some spec.symbol :=
    Context.next?_of_drop spelled
  obtain ⟨target, action, advanced⟩ := predicts.shift expected next terminal
  have awake : ¬ job.lexer.grammar.Skips (job.lexer.plainToken job.text start).symbol := by
    rw [symbol]
    exact fun skips => absurd (notExtra.symm.trans (extra.trans skips.1)) Bool.false_ne_true
  obtain ⟨rfl, here⟩ := waits.awake awake
  rw [← symbol] at action
  obtain ⟨after, other, advances, otherSymbol, otherLength, otherExtra, waiting⟩ :=
    waits.shift steady boundary (action ▸ List.mem_singleton_self _)
  have sameLength : spec.length = other.length := length.symm.trans otherLength.symm
  refine ⟨after, [⟨target, .ofLeaf 0 other⟩], [], .single advances,
    .cons (twin_ofLeaf (symbol.symm.trans otherSymbol.symm) sameLength
      (notExtra.trans otherExtra.symm)) .nil, ?_, ?_⟩
  · rw [← sameLength] at waiting
    exact waiting
  · rw [symbols]
    exact advanced

/-- A node is made by reducing the production that made it. -/
theorem replayed_node (numbered : plain.Numbered) {id : Nat} {spec : NodeSpec}
    {children : List Subtree} {source : PlainProduction}
    (listed : plain.productions[spec.production.index]? = some source)
    (symbol : spec.symbol = source.lhs) (spelled : plainSymbols children = source.rhs)
    (notExtra : spec.extra = false)
    (awake : ¬ job.lexer.grammar.Skips (job.lexer.plainToken job.text start).symbol)
    (first : ∀ child ∈ children.head?, child.isExtra = false)
    (last : ∀ child ∈ children.getLast?, child.isExtra = false)
    (under : Replayed job plain expects start children)
    (boundary : job.text.isBoundary (start + totalLength children) = true) :
    Replayed job plain expects start [.ofChildren id spec children] := by
  intro base extras version production dot rest word terminal waits begins derives terminals
    expected isTerminal ahead
  have symbols : plainSymbols [.ofChildren id spec children] = [source.lhs] := by
    rw [plainSymbols_singleton,
      show (Subtree.ofChildren id spec children).isExtra = false from notExtra,
      if_neg Bool.false_ne_true]
    exact congrArg (fun symbol => [symbol]) symbol
  have total : totalLength [.ofChildren id spec children] = totalLength children := by
    rw [totalLength_cons]
    rfl
  rw [symbols, List.singleton_append] at begins
  rw [total] at ahead
  have next : (Context.ofGrammar plain).next? ⟨production, dot⟩ = some source.lhs :=
    Context.next?_of_drop begins
  obtain ⟨target, goto, advanced⟩ := predicts.goto expected next
    (numbered.defines source (List.mem_of_getElem? listed))
  have called := predicts.call expected begins listed rfl derives terminals
  have following : plain.isTerminal (word.headD terminal) = true := by
    cases word with
    | nil => exact isTerminal
    | cons first others => exact terminals first List.mem_cons_self
  have whole : ((Context.ofGrammar plain).rhs spec.production.index).drop 0 =
      plainSymbols children ++ [] := by
    rw [List.drop_zero, List.append_nil, spelled, Context.rhs_ofGrammar listed]
  obtain ⟨middle, pushed, between, runs, twins, waiting, recognised⟩ :=
    under waits whole .refl (List.forall_mem_nil _) called following ahead
  obtain ⟨settled, passed, settles, arrived, found, settledAwake⟩ :=
    waiting.settle steady boundary acts ahead
  rw [Nat.zero_add, spelled] at recognised
  have same : ProductionId.ofIndex spec.production.index = spec.production :=
    congrArg ProductionId.mk UInt16.ofNat_toNat
  have action := predicts.reduce recognised listed following
  rw [← arrived.state, ← found, same] at action
  rw [← found] at settledAwake
  have taken := arrived.takeChildren_twins twins first last fun none => by rwa [none]
  rw [spelled] at taken
  obtain ⟨after, node, reduces, nodeSymbol, nodeExtra, made⟩ := arrived.reduce steady acts.toWorksOn
    boundary settledAwake listed (action ▸ List.mem_singleton_self _) taken goto
  refine ⟨after, [⟨target, .ofChildren 0 node (ParseStack.subtrees pushed)⟩], passed,
    (runs.trans settles).tail reduces, .cons (twin_ofChildren (symbol.trans nodeSymbol.symm)
      (notExtra.trans nodeExtra.symm) twins) .nil, ?_, ?_⟩
  · rw [total]
    exact made
  · rw [symbols]
    exact advanced

omit acts predicts in
theorem replayed_of_parts (grown : ∀ part ∈ placed start subtrees,
      Grown job.lexer plain job.text part.start part.subtree)
    (each : ∀ part ∈ placed start subtrees, job.text.isBoundary part.start = true →
      Replayed job plain expects part.start [part.subtree])
    (boundary : job.text.isBoundary start = true) : Replayed job plain expects start subtrees := by
  have loaded := steady.filled.toIsLoaded
  induction subtrees generalizing start with
  | nil => exact replayed_nil
  | cons child rest induction =>
      obtain ⟨first, others⟩ := List.forall_mem_cons.1 each
      obtain ⟨firstGrown, othersGrown⟩ := List.forall_mem_cons.1 grown
      have behind := firstGrown.boundary loaded steady.internal steady.wellFormed boundary
      obtain ⟨word, read⟩ := exists_readAs_of_parts loaded steady.internal steady.wellFormed
        othersGrown (fun part member => (othersGrown part member).exists_readAs loaded
          steady.internal steady.wellFormed) behind
      exact (first boundary).cons (induction othersGrown others behind) read

/-- A grown subtree is made again. -/
theorem Grown.replayed (numbered : plain.Numbered)
    (grown : Grown job.lexer plain job.text start subtree)
    (boundary : job.text.isBoundary start = true) : Replayed job plain expects start [subtree] := by
  have loaded := steady.filled.toIsLoaded
  induction grown with
  | @token start id spec decides terminal notEnd extra =>
      cases isExtra : spec.extra with
      | true =>
          exact replayed_extra steady acts (.token decides terminal notEnd extra) isExtra boundary
      | false => exact replayed_token steady predicts decides terminal extra isExtra boundary
  | @node start id spec children source listed symbol spelled notExtra awake last under induction =>
      have notSkipped := awake.not_skips boundary
      refine replayed_node steady acts predicts numbered listed symbol spelled notExtra notSkipped
        ?_ last (replayed_of_parts steady under induction boundary) ?_
      · intro child member
        cases children with
        | nil => cases member
        | cons first rest =>
            obtain rfl := Option.some.inj member
            by_contra isExtra
            rw [Bool.not_eq_false] at isExtra
            obtain ⟨-, skips, decides⟩ := (under _ List.mem_cons_self).skips_of_extra isExtra
            rw [(decides.found boundary).1] at notSkipped
            exact notSkipped skips
      · exact boundary_of_parts (fun part member =>
          (under part member).boundary loaded steady.internal steady.wellFormed) boundary

end Machine

end Subtree

end Replay

/-! ## The whole text -/

section Machine

variable {expects : StateId → Item → Symbol → Prop} (steady : job.Steady)
  (acts : job.grammar.ActsOn plain items) (predicts : job.grammar.Predicts plain expects)

include steady acts predicts

/-- What is grown over a whole text and stands for the start symbol is accepted once more, up to ids
and states. -/
theorem Version.exists_accepts (numbered : plain.Numbered) {subtrees : List Subtree}
    (grown : ∀ part ∈ Subtree.placed 0 subtrees,
      part.subtree.Grown job.lexer plain job.text part.start)
    (symbols : Subtree.plainSymbols subtrees = [plain.start])
    (ended : (job.lexer.plainToken job.text (Subtree.totalLength subtrees)).symbol = .endOfInput) :
    ∃ root, Accepts job .start root ∧
      Subtree.alike (ParseRun.foldRoot (m := Id) job.grammar subtrees) root = true := by
  have awake : ¬ job.lexer.grammar.Skips
      (job.lexer.plainToken job.text (0 + Subtree.totalLength subtrees)).symbol := by
    rw [Nat.zero_add, ended]
    exact fun skips => skips.2 rfl
  have ahead := Lexer.Ahead.here awake
  rw [Nat.zero_add, ended] at ahead
  have boundary := steady.wellFormed.start
  have behind := Subtree.boundary_of_parts (fun part member => (grown part member).boundary
    steady.filled.toIsLoaded steady.internal steady.wellFormed) boundary
  have spelled : ((Context.ofGrammar plain).rhs plain.productions.length).drop 0 =
      Subtree.plainSymbols subtrees ++ [] := by
    rw [List.drop_zero, List.append_nil, symbols]
    exact Context.rhs_wholeText
  have start : Version.start.Waits job [] [] 0 := ⟨rfl, .nil, .inl rfl⟩
  obtain ⟨last, pushed, extras, runs, twins, waits, recognised⟩ :=
    Subtree.replayed_of_parts steady grown
      (fun part member => (grown part member).replayed steady acts predicts numbered) boundary
      start spelled .refl (List.forall_mem_nil _) predicts.start
      (decide_eq_true numbered.positive) (by rw [Nat.zero_add]; exact ahead)
  rw [symbols] at recognised
  obtain ⟨lexState, upcoming⟩ := waits.upcoming_eq steady behind
  obtain ⟨rfl, place⟩ := waits.awake awake
  have action := predicts.accept recognised
  rw [List.append_nil] at waits action
  rw [place, Nat.zero_add] at upcoming
  have symbol : (last.upcoming job).symbol = .endOfInput := by
    rw [upcoming]
    exact ended
  refine ⟨_, ⟨last, runs, ?_, rfl⟩, ParseRun.foldRoot_twins job.grammar ?_⟩
  · rw [waits.state, symbol, action]
    exact List.mem_singleton_self _
  · rw [waits.stack]
    exact twins

end Machine

end IncrementalGlr
