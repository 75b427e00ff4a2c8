import IncrementalGlr.Proofs.Coverage.Session
import IncrementalGlr.Proofs.Derivation.Parse
import IncrementalGlr.Proofs.Derivation.Stack
import IncrementalGlr.Proofs.Moves
import Mathlib.Logic.Relation

/-!
# The nondeterministic machine of a table

A version looks at one token at a time and performs any one of the actions on it.  The search of a
parser follows all that this machine may do at once.

There are actions on terminals only, and none of them on extras if these occur in no production.
Errors are neither shifted nor defined, so nothing that is built by actions holds one.
-/

namespace IncrementalGlr

/-! ## Actions -/

section

variable {grammar : Grammar} {plain : PlainGrammar} {items : StateId → Lalr.Item → Prop}

/-- Whether extras and symbols of productions are kept apart. -/
def Grammar.ExtrasApart (grammar : Grammar) (plain : PlainGrammar) : Prop :=
  ∀ production ∈ plain.productions, ∀ symbol ∈ production.rhs,
    plain.isTerminal symbol = true → grammar.isExtra symbol = false

instance : Decidable (grammar.ExtrasApart plain) :=
  inferInstanceAs (Decidable (∀ production ∈ plain.productions, ∀ symbol ∈ production.rhs,
    plain.isTerminal symbol = true → grammar.isExtra symbol = false))

/-- Whether a grammar works on the states and productions of a plain grammar, and its actions stand
for terminals that are neither errors nor extras. -/
structure Grammar.ActsOn (grammar : Grammar) (plain : PlainGrammar)
    (items : StateId → Lalr.Item → Prop) : Prop extends grammar.WorksOn plain items where
  /-- There are actions on terminals only. -/
  terminal {state : StateId} {symbol : Symbol} {action : Action} :
    action ∈ grammar.actions state symbol → plain.isTerminal symbol = true
  /-- The end of the input is not shifted. -/
  notEnd {state next : StateId} : .shift next ∉ grammar.actions state .endOfInput
  /-- Reductions are by productions that have an id, and make nonterminals. -/
  defined {state : StateId} {symbol : Symbol} {production : ProductionId} :
    .reduce production ∈ grammar.actions state symbol →
      plain.isTerminal (grammar.production production).lhs = false ∧
        (grammar.production production).lhs ≠ .error ∧ production ≠ .none
  /-- The start symbol is not that of errors. -/
  startError : grammar.startSymbol ≠ .error
  /-- Errors are not terminals. -/
  errorTerminal : plain.isTerminal .error = false
  /-- Errors are not among the extras of the grammar. -/
  errorExtra : grammar.isExtra .error = false
  /-- There are no actions on extras. -/
  extras {state : StateId} {symbol : Symbol} :
    grammar.isExtra symbol = true → symbol ≠ .endOfInput → grammar.actions state symbol = []

namespace Grammar.ComesFrom

variable {table : Lalr.Table} {automaton : Lalr.Automaton}

theorem isTerminal_eq (comes : grammar.ComesFrom plain table) (symbol : Symbol) :
    plain.isTerminal symbol = grammar.data.isTerminal symbol := by
  have terminals : grammar.data.terminalCount.toNat = plain.terminalCount := comes.terminalCount
  rw [PlainGrammar.isTerminal, GrammarData.isTerminal, terminals]

theorem terminal_of_action (comes : grammar.ComesFrom plain table) {state : StateId}
    {symbol : Symbol} {action : Action} (member : action ∈ grammar.actions state symbol) :
    plain.isTerminal symbol = true := by
  obtain ⟨stateData, found, entry, entryMember, rfl, -⟩ := comes.loaded.actions_listed member
  rw [comes.isTerminal_eq]
  exact comes.loaded.sound.actions stateData (List.mem_of_getElem? found) entry entryMember

theorem symbol_ne_error (comes : grammar.ComesFrom plain table) {symbol : Symbol}
    (bound : symbol.index < grammar.data.symbols.length) : symbol ≠ .error := by
  rintro rfl
  have small := comes.loaded.sound.symbolCount
  have place : Symbol.error.index = 65535 := rfl
  omega

/-- An action on a symbol means that the symbol occurs in a production or is the end of the
input. -/
theorem follows_of_action (comes : grammar.ComesFrom plain table)
    (made : table.MadeFrom plain automaton) {state : StateId} {symbol : Symbol} {action : Action}
    (member : action ∈ grammar.actions state symbol) : plain.Follows symbol := by
  have recognizes := comes.recognizes made
  have terminal := comes.terminal_of_action member
  cases action with
  | accept => exact .inl (recognizes.accept member).1
  | reduce production => exact recognizes.follows member
  | shift next =>
      right
      obtain ⟨⟨production, dot, advanced⟩, origin⟩ := recognizes.shift member
      obtain ⟨-, spelled⟩ := origin advanced
      rcases Nat.lt_trichotomy production (Lalr.Context.ofGrammar plain).wholeText with
        before | whole | beyond
      · have found : plain.productions[production]? = some _ := List.getElem?_eq_getElem before
        rw [Lalr.Context.rhs_ofGrammar found] at spelled
        exact ⟨_, List.mem_of_getElem? found, List.mem_of_getElem? spelled⟩
      · rw [whole, Lalr.Context.rhs_wholeText] at spelled
        obtain rfl := List.mem_singleton.1 (List.mem_of_getElem? spelled)
        have start := comes.loaded.sound.start
        rw [show grammar.data.startSymbol = plain.start from comes.start] at start
        rw [comes.isTerminal_eq] at terminal
        simp only [GrammarData.isNonterminal, GrammarData.isTerminal, Bool.and_eq_true,
          decide_eq_true_eq] at start terminal
        omega
      · rw [Lalr.Context.rhs_beyond beyond] at spelled
        cases spelled

/-- What a search relies on holds of compiled grammars whose extras occur in no production. -/
theorem actsOn (comes : grammar.ComesFrom plain table) (made : table.MadeFrom plain automaton)
    (apart : grammar.ExtrasApart plain) : grammar.ActsOn plain (ItemsOf plain automaton) where
  toWorksOn := comes.worksOn made
  terminal := comes.terminal_of_action
  notEnd := (comes.endReserved made).shift
  defined {state symbol production} member := by
    have stored := comes.loaded.reduce_listed member
    have nonterminal := comes.loaded.sound.productions _ (List.mem_of_getElem? stored)
    have bound := (List.getElem?_eq_some_iff.1 stored).1
    have count := comes.productionCount
    rw [comes.productions.length_eq] at count
    simp only [GrammarData.isNonterminal, Bool.and_eq_true, decide_eq_true_eq] at nonterminal
    refine ⟨?_, comes.symbol_ne_error nonterminal.2, ?_⟩
    · rw [comes.isTerminal_eq, GrammarData.isTerminal, decide_eq_false_iff_not]
      omega
    · rintro rfl
      have place : ProductionId.none.index = 65535 := rfl
      omega
  startError := by
    have start := comes.loaded.sound.start
    simp only [GrammarData.isNonterminal, Bool.and_eq_true, decide_eq_true_eq] at start
    exact comes.symbol_ne_error start.2
  errorTerminal := by
    have symbols := comes.sound.symbolCount
    have terminals := comes.sound.terminalCount
    have place : Symbol.error.index = 65535 := rfl
    rw [PlainGrammar.isTerminal, decide_eq_false_iff_not]
    omega
  errorExtra := by
    have small := comes.loaded.sound.symbolCount
    have place : Symbol.error.index = 65535 := rfl
    have none : grammar.symbolInfo? .error = none := by
      rw [symbolInfo?, comes.loaded.symbols, List.getElem?_toArray]
      exact List.getElem?_eq_none (by omega)
    rw [isExtra, none]
    rfl
  extras {state symbol} isExtra notEnd := by
    refine List.eq_nil_iff_forall_not_mem.2 fun action member => ?_
    have terminal := comes.terminal_of_action member
    obtain ⟨production, listed, occurs⟩ :=
      (comes.follows_of_action made member).resolve_left notEnd
    rw [apart production listed symbol occurs terminal] at isExtra
    cases isExtra

end Grammar.ComesFrom

end

/-! ## The machine -/

namespace Version

/-- What comes next for a version: the token found before, or else the one that is found in the
lexical state of its top state. -/
def upcoming (job : ParseJob) (version : Version) : Lookahead :=
  version.lookahead.getD
    (.token
      (job.lexer.nextInState job.text version.position (job.grammar.lexState version.state))
      (job.grammar.lexState version.state))

/-- The performance of an action on what comes next.  Whether nodes are marked as fragile does not
matter. -/
inductive Performs (job : ParseJob) (version : Version) : Action → Version → Prop
  /-- What comes next is shifted. -/
  | shift {next : StateId} :
    Performs job version (.shift next)
      (ParseRun.pushLeaf (m := Id) job.grammar version (version.upcoming job) next false)
  /-- A production is reduced. -/
  | reduce {production : ProductionId} (fragile : Bool) {reduced : Version}
    (result : ParseRun.reduce (m := Id) job.grammar
      { version with lookahead := some (version.upcoming job) } production fragile =
        some reduced) :
    Performs job version (.reduce production) reduced

/-- One step of a nondeterministic run: any one of the actions on what comes next is performed, or
an extra that has no action is pushed. -/
inductive Advances (job : ParseJob) (version : Version) : Version → Prop
  /-- An action is performed. -/
  | act {action : Action} {next : Version}
    (listed : action ∈ job.grammar.actions version.state (version.upcoming job).symbol)
    (performs : Performs job version action next) : Advances job version next
  /-- An extra is pushed. -/
  | extra (noAction : job.grammar.actions version.state (version.upcoming job).symbol = [])
    (isExtra : job.grammar.isExtra (version.upcoming job).symbol = true)
    (notEnd : (version.upcoming job).symbol ≠ .endOfInput)
    (notError : (version.upcoming job).isError = false) :
    Advances job version
      (ParseRun.pushLeaf (m := Id) job.grammar version (version.upcoming job) version.state true)

/-- A nondeterministic run. -/
def Runs (job : ParseJob) : Version → Version → Prop := Relation.ReflTransGen (Advances job)

/-- Whether some nondeterministic run from a version ends with the acceptance of a tree. -/
def Accepts (job : ParseJob) (version : Version) (root : Subtree) : Prop :=
  ∃ last, Runs job version last ∧
    .accept ∈ job.grammar.actions last.state (last.upcoming job).symbol ∧
    root = ParseRun.foldRoot (m := Id) job.grammar last.stack.subtrees

end Version

namespace ParseStack

/-- The symbol of the topmost subtree that is not an extra. -/
def topSymbol? (stack : ParseStack) : Option Symbol :=
  (stack.find? fun entry => !entry.subtree.isExtra).map fun entry => entry.subtree.symbol

variable {stack below : ParseStack} {state : StateId} {subtree : Subtree}

theorem topSymbol?_extra (isExtra : subtree.isExtra = true) :
    topSymbol? (⟨state, subtree⟩ :: below) = below.topSymbol? := by
  simp [topSymbol?, isExtra]

theorem topSymbol?_enter (notExtra : subtree.isExtra = false) :
    topSymbol? (⟨state, subtree⟩ :: below) = some subtree.symbol := by
  simp [topSymbol?, notExtra]

theorem topSymbol?_pushAll {subtrees : List Subtree}
    (extras : ∀ subtree ∈ subtrees, subtree.isExtra = true) :
    topSymbol? (stack.pushAll state subtrees) = stack.topSymbol? := by
  induction subtrees generalizing stack with
  | nil => rfl
  | cons subtree rest induction =>
      rw [pushAll, List.foldl_cons]
      have later := @induction (⟨state, subtree⟩ :: stack)
        fun other member => extras other (List.mem_cons_of_mem subtree member)
      rw [pushAll] at later
      rw [later, topSymbol?_extra (extras subtree List.mem_cons_self)]

variable {grammar : Grammar} {plain : PlainGrammar} {items : StateId → Lalr.Item → Prop}

/-- The top state is entered over the symbol of the topmost subtree that is not an extra. -/
theorem Spells.top (path : stack.Spells plain items) :
    (stack.topSymbol? = none ∧ stack.state = .start) ∨
      ∃ before symbol, stack.topSymbol? = some symbol ∧
        Enters plain items before symbol stack.state := by
  induction path with
  | nil => exact .inl ⟨rfl, rfl⟩
  | extra path isExtra induction =>
      rw [topSymbol?_extra isExtra]
      exact induction
  | enter path notExtra enters induction =>
      exact .inr ⟨_, _, topSymbol?_enter notExtra, enters⟩

/-- A state is entered over one symbol only. -/
theorem Spells.topSymbol?_eq (recognizes : Recognizes grammar plain items) {other : ParseStack}
    (left : stack.Spells plain items) (right : other.Spells plain items)
    (same : stack.state = other.state) : stack.topSymbol? = other.topSymbol? := by
  have closed : ∀ {before symbol}, ¬ Enters plain items before symbol .start := by
    rintro before symbol ⟨⟨production, dot, advanced⟩, -⟩
    exact absurd (recognizes.start advanced) (Nat.succ_ne_zero dot)
  rcases left.top with ⟨leftNone, leftStart⟩ | ⟨_, leftSymbol, leftSome, leftEnters⟩
  · rcases right.top with ⟨rightNone, -⟩ | ⟨_, rightSymbol, rightSome, rightEnters⟩
    · rw [leftNone, rightNone]
    · rw [← same, leftStart] at rightEnters
      exact absurd rightEnters closed
  · rcases right.top with ⟨rightNone, rightStart⟩ | ⟨_, rightSymbol, rightSome, rightEnters⟩
    · rw [same, rightStart] at leftEnters
      exact absurd leftEnters closed
    · rw [← same] at rightEnters
      obtain ⟨production, dot, advanced⟩ := leftEnters.advanced
      have spelled := (leftEnters.origin advanced).2
      rw [(rightEnters.origin advanced).2] at spelled
      rw [leftSome, rightSome, Option.some.inj spelled]

end ParseStack

/-- The token at an offset is not empty unless it is the end of the input. -/
theorem Lexer.nextInState_nonempty (lexer : Lexer) (text : Text) (offset : Nat)
    (lexState : LexStateId)
    (notEnd : (lexer.nextInState text offset lexState).symbol ≠ .endOfInput) :
    0 < (lexer.nextInState text offset lexState).length := by
  unfold nextInState tokenAt at notEnd ⊢
  split
  · next past =>
      rw [if_pos past] at notEnd
      exact absurd rfl notEnd
  · next before =>
      rw [Nat.not_le] at before
      generalize lexer.external.filter _ = external
      cases found : externalToken? text offset (lexer.grammar.validSymbols lexState) external with
      | some token =>
          unfold externalToken? at found
          obtain ⟨scanner, rfl, rest⟩ := Option.bind_eq_some_iff.1 found
          obtain ⟨result, -, made⟩ := Option.bind_eq_some_iff.1 rest
          split at made
          · next allowed =>
              obtain rfl := Option.some.inj made
              simp only [Bool.and_eq_true, decide_eq_true_eq] at allowed
              simpa [Token.length, Span.length] using allowed.2
          · cases made
      | none =>
          rw [Option.getD_none]
          unfold lexicalToken
          dsimp only
          split
          · next best found =>
              have member : best ∈
                  (lexer.grammar.lexicon.scan text offset).matched.map lexer.candidate := by
                rcases Option.or_eq_some_iff.1 found with valid | ⟨-, other⟩
                · exact List.filter_sublist.subset (best?_mem valid)
                · exact best?_mem other
              obtain ⟨⟨rule, stop⟩, matched, rfl⟩ := List.mem_map.1 member
              obtain ⟨after, -, -⟩ := Scan.run_matched (Nat.le_of_lt before) matched
              exact Nat.sub_pos_of_lt after
          · have stands := @errorToken_standsAt lexer text offset
              (lexer.grammar.lexicon.scan text offset).examined before
            have length := stands.length_eq (Nat.le_of_lt before)
            have after := stands.nonempty before
            omega

/-!
## Searches that are carried out

Without a store a run goes through its steps one after the other, and the nondeterministic machine
can be searched for a tree that it accepts.  So what happens on a given text can be computed.
-/

namespace ParseRun

variable {job : ParseJob} {run last : ParseRun}

/-- The run after a number of steps without a store, or its end if there are fewer. -/
def afterSteps (job : ParseJob) : Nat → ParseRun → ParseRun
  | 0, run => run
  | count + 1, run =>
    match run.step? (m := Id) job with
    | none => run
    | some next => afterSteps job count next

theorem reaches_afterSteps (job : ParseJob) (count : Nat) (run : ParseRun) :
    Reaches job run (run.afterSteps job count) := by
  induction count generalizing run with
  | zero => exact .refl
  | succ count induction =>
      rw [afterSteps]
      cases stepped : run.step? (m := Id) job with
      | none => exact .refl
      | some next => exact .head stepped (induction next)

/-- Whether a run ends within a number of steps without a store, and all that is condensed in them
passes a test. -/
def passes (job : ParseJob) (test : ParseRun → Bool) : Nat → ParseRun → Bool
  | 0, run => run.versions.isEmpty
  | bound + 1, run =>
    match run.advanced? (m := Id) job with
    | none => true
    | some raw => test raw && passes job test bound (condense raw)

theorem advanced?_eq_none (ended : run.versions = []) : run.advanced? (m := Id) job = none := by
  have stuck := (@step?_eq_none job Id _ _ run).2 ended
  rwa [step?_eq_map, Option.map_eq_none_iff] at stuck

theorem step?_of_advanced? {raw : ParseRun} (advanced : run.advanced? (m := Id) job = some raw) :
    run.step? (m := Id) job = some raw.condense := by
  rw [step?_eq_map, advanced]
  rfl

theorem Reaches.cases_head (reaches : Reaches job run last) :
    last = run ∨ ∃ next, run.step? (m := Id) job = some next ∧ Reaches job next last := by
  induction reaches with
  | refl => exact .inl rfl
  | step before stepped induction =>
      rcases induction with rfl | ⟨next, first, rest⟩
      · exact .inr ⟨_, stepped, .refl⟩
      · exact .inr ⟨next, first, rest.step stepped⟩

/-- All that is condensed in a run that passes a test passes it. -/
theorem test_of_passes {test : ParseRun → Bool} {bound : Nat}
    (passed : run.passes job test bound = true) (reaches : Reaches job run last) {raw : ParseRun}
    (advanced : last.advanced? (m := Id) job = some raw) : test raw = true := by
  induction bound generalizing run with
  | zero =>
      have ended := List.isEmpty_iff.1 passed
      rcases reaches.cases_head with rfl | ⟨next, stepped, -⟩
      · rw [advanced?_eq_none ended] at advanced
        cases advanced
      · rw [(step?_eq_none run).2 ended] at stepped
        cases stepped
  | succ bound induction =>
      rw [passes] at passed
      cases first : run.advanced? (m := Id) job with
      | none =>
          rcases reaches.cases_head with rfl | ⟨next, stepped, -⟩
          · rw [first] at advanced
            cases advanced
          · rw [step?_eq_map, first] at stepped
            cases stepped
      | some image =>
          rw [first, Bool.and_eq_true] at passed
          rcases reaches.cases_head with rfl | ⟨next, stepped, rest⟩
          · rw [first] at advanced
            exact Option.some.inj advanced ▸ passed.1
          · rw [step?_of_advanced? first] at stepped
            exact induction passed.2 (Option.some.inj stepped ▸ rest)

end ParseRun

namespace Version

variable {job : ParseJob} {version : Version}

/-- The versions to which a nondeterministic run may advance. -/
def successors (job : ParseJob) (version : Version) : List Version :=
  let lookahead := version.upcoming job
  match job.grammar.actions version.state lookahead.symbol with
  | [] =>
    if job.grammar.isExtra lookahead.symbol && lookahead.symbol ≠ .endOfInput &&
        !lookahead.isError then
      [ParseRun.pushLeaf (m := Id) job.grammar version lookahead version.state true]
    else []
  | actions => actions.filterMap fun
    | .shift next => some (ParseRun.pushLeaf (m := Id) job.grammar version lookahead next false)
    | .reduce production =>
      ParseRun.reduce (m := Id) job.grammar { version with lookahead := some lookahead }
        production false
    | .accept => none

theorem advances_of_mem_successors {next : Version} (member : next ∈ version.successors job) :
    Advances job version next := by
  unfold successors at member
  dsimp only at member
  split at member
  · next noAction =>
      split at member
      · next extra =>
          simp only [Bool.and_eq_true, decide_eq_true_eq, Bool.not_eq_true'] at extra
          obtain rfl := List.mem_singleton.1 member
          exact .extra noAction extra.1.1 extra.1.2 extra.2
      · cases member
  · obtain ⟨action, listed, performed⟩ := List.mem_filterMap.1 member
    cases action with
    | shift target =>
        obtain rfl := Option.some.inj performed
        exact .act listed .shift
    | reduce production => exact .act listed (.reduce false performed)
    | accept => cases performed

/-- The trees that nondeterministic runs of less than a number of steps accept. -/
def acceptedWithin (job : ParseJob) : Nat → Version → List Subtree
  | 0, _ => []
  | bound + 1, version =>
    let later := (version.successors job).flatMap (acceptedWithin job bound)
    if .accept ∈ job.grammar.actions version.state (version.upcoming job).symbol then
      ParseRun.foldRoot (m := Id) job.grammar version.stack.subtrees :: later
    else later

theorem accepts_of_acceptedWithin {bound : Nat} {root : Subtree}
    (found : root ∈ version.acceptedWithin job bound) : Accepts job version root := by
  induction bound generalizing version with
  | zero => cases found
  | succ bound induction =>
      rw [acceptedWithin] at found
      have later (listed : root ∈ (version.successors job).flatMap (acceptedWithin job bound)) :
          Accepts job version root := by
        obtain ⟨next, member, inside⟩ := List.mem_flatMap.1 listed
        obtain ⟨last, runs, accept⟩ := induction inside
        exact ⟨last, runs.head (advances_of_mem_successors member), accept⟩
      split at found
      · next accept =>
          rcases List.mem_cons.1 found with rfl | listed
          · exact ⟨version, .refl, accept, rfl⟩
          · exact later listed
      · exact later found

end Version

end IncrementalGlr
