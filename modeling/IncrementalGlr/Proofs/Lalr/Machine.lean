import IncrementalGlr.Proofs.Lalr.Cells
import IncrementalGlr.Proofs.Lalr.Recognition
import IncrementalGlr.Proofs.Plain.Lowering

/-!
# The language of a table

A table accepts a sequence of terminals if some choice among the actions of its cells reads them and
accepts at the end.  The stack then spells what has been read, so only the grammar's language is
accepted; and along a derivation tree every symbol leads to a state in which what follows the tree is
expected, so all of it is.  Both need an id for each production; a grammar with too many of them, which
is refused only after its table has been made, shows why.
-/

namespace IncrementalGlr

open Lalr (Context Item)

namespace Lalr.Table

/-- A stack of states above the first state, and the terminals that are not yet read. -/
structure Configuration where
  /-- The states, the last one first. -/
  states : List StateId
  /-- The terminals. -/
  rest : List Symbol

/-- The state on top of a stack. -/
def top (states : List StateId) : StateId := states.headD .start

/-- One action of a table, any one of its cell. -/
inductive Step (table : Table) (plain : PlainGrammar) : Configuration → Configuration → Prop
  /-- A terminal is read. -/
  | shift {states : List StateId} {terminal : Symbol} {rest : List Symbol} {next : StateId}
      (acts : table.Acts (top states) terminal (.shift next)) :
    Step table plain ⟨states, terminal :: rest⟩ ⟨next :: states, rest⟩
  /-- The right side of a production is replaced by its left side. -/
  | reduce {states : List StateId} {rest : List Symbol} {production : ProductionId}
      {source : PlainProduction} {next : StateId}
      (acts : table.Acts (top states) (rest.headD .endOfInput) (.reduce production))
      (found : plain.productions[production.index]? = some source)
      (enough : source.rhs.length ≤ states.length)
      (goes : table.Goes (top (states.drop source.rhs.length)) source.lhs next) :
    Step table plain ⟨states, rest⟩ ⟨next :: states.drop source.rhs.length, rest⟩

/-- Any number of actions. -/
def Runs (table : Table) (plain : PlainGrammar) : Configuration → Configuration → Prop :=
  Relation.ReflTransGen (table.Step plain)

/-- Whether some actions read all of a sequence of terminals and then accept. -/
def Accepts (table : Table) (plain : PlainGrammar) (word : List Symbol) : Prop :=
  ∃ states, table.Runs plain ⟨[], word⟩ ⟨states, []⟩ ∧ table.Acts (top states) .endOfInput .accept

end Lalr.Table

open Lalr.Table (Configuration Step Runs top)
open Grammar.ComesFrom (ItemsOf)

/-- Whether a stack has been pushed while a sequence of terminals was read: each state was entered
over a symbol from which its part of the sequence can be derived. -/
inductive Reads (plain : PlainGrammar) (items : StateId → Item → Prop) :
    List StateId → List Symbol → Prop
  /-- Nothing is read at first. -/
  | nil : Reads plain items [] []
  /-- One more state. -/
  | push {states : List StateId} {word part : List Symbol} {symbol : Symbol} {next : StateId}
      (reads : Reads plain items states word) (enters : Enters plain items (top states) symbol next)
      (derives : plain.Derives [symbol] part) :
    Reads plain items (next :: states) (word ++ part)

section Soundness

variable {plain : PlainGrammar} {items : StateId → Item → Prop} {states : List StateId}
  {word : List Symbol}

/-- The symbols that an item of the last state has recognised derive the last part of what has been
read. -/
theorem Reads.take (start : ∀ item, items .start item → item.dot = 0)
    (reads : Reads plain items states word) {production dot : Nat}
    (member : items (top states) ⟨production, dot⟩) :
    dot ≤ states.length ∧ ∃ earlier part, word = earlier ++ part ∧
      Reads plain items (states.drop dot) earlier ∧
        plain.Derives (((Context.ofGrammar plain).rhs production).take dot) part ∧
          items (top (states.drop dot)) ⟨production, 0⟩ := by
  induction dot generalizing states word with
  | zero =>
      exact ⟨Nat.zero_le _, word, [], (List.append_nil word).symm, reads, .refl, member⟩
  | succ dot induction =>
      cases reads with
      | nil => cases start _ member
      | @push states word part symbol next reads enters derives =>
          obtain ⟨before, spelled⟩ := enters.origin member
          obtain ⟨enough, earlier, middle, rfl, older, derived, first⟩ := induction reads before
          refine ⟨Nat.succ_le_succ enough, earlier, middle ++ part, List.append_assoc .., older,
            ?_, first⟩
          rw [List.take_add_one, spelled]
          exact derived.concat derives

end Soundness

section Sound

variable {plain : PlainGrammar} {table : Lalr.Table} {automaton : Lalr.Automaton}
  (made : table.MadeFrom plain automaton) (ids : plain.productions.length ≤ 65536)

include made

/-- A terminal is read in a state that its shift enters. -/
theorem enters_of_shift {state next : StateId} {terminal : Symbol}
    (acts : table.Acts state terminal (.shift next)) :
    Enters plain (ItemsOf plain automaton) state terminal next := by
  obtain ⟨data, dataFound, cell, listed, rfl, inside⟩ := acts
  obtain ⟨kernel, edges, found, stands, links⟩ :=
    Grammar.ComesFrom.stands_listed made dataFound
  cases stands.actions cell listed _ inside with
  | shift edge => exact Grammar.ComesFrom.enters_of_edge made found links edge

theorem enters_of_goes {state next : StateId} {symbol : Symbol}
    (goes : table.Goes state symbol next) :
    Enters plain (ItemsOf plain automaton) state symbol next := by
  obtain ⟨data, dataFound, listed⟩ := goes
  obtain ⟨kernel, edges, found, stands, links⟩ :=
    Grammar.ComesFrom.stands_listed made dataFound
  obtain ⟨target, edge, rfl⟩ := stands.gotos _ listed
  exact Grammar.ComesFrom.enters_of_edge made found links edge

include ids

/-- One action goes on reading what the rest begins with. -/
theorem reads_of_step {before after : Configuration} (step : Step table plain before after)
    {word : List Symbol} (reads : Reads plain (ItemsOf plain automaton) before.states word) :
    ∃ later, word ++ before.rest = later ++ after.rest ∧
      Reads plain (ItemsOf plain automaton) after.states later := by
  cases step with
  | @shift states terminal rest next acts =>
      exact ⟨word ++ [terminal], (List.append_assoc word [terminal] rest).symm,
        reads.push (enters_of_shift made acts) .refl⟩
  | @reduce states rest production source next acts found enough goes =>
      obtain ⟨data, dataFound, cell, listed, -, inside⟩ := acts
      obtain ⟨kernel, edges, kernelFound, stands, -⟩ :=
        Grammar.ComesFrom.stands_listed made dataFound
      obtain ⟨other, sourceFound, member⟩ := Grammar.ComesFrom.reduced_item made ids kernelFound
        (stands.actions cell listed _ inside)
      cases found.symm.trans sourceFound
      obtain ⟨-, earlier, part, rfl, older, derived, -⟩ :=
        reads.take (fun _ => Grammar.ComesFrom.dot_of_start made) member
      rw [Context.rhs_ofGrammar found, List.take_length] at derived
      exact ⟨earlier ++ part, rfl, older.push (enters_of_goes made goes)
        (.head (.of_mem (List.mem_of_getElem? found)) derived)⟩

theorem reads_of_runs {before after : Configuration} (runs : Runs table plain before after)
    {word : List Symbol} (reads : Reads plain (ItemsOf plain automaton) before.states word) :
    ∃ later, word ++ before.rest = later ++ after.rest ∧
      Reads plain (ItemsOf plain automaton) after.states later := by
  induction runs with
  | refl => exact ⟨word, rfl, reads⟩
  | tail earlier step induction =>
      obtain ⟨middle, same, between⟩ := induction
      obtain ⟨later, equal, there⟩ := reads_of_step made ids step between
      exact ⟨later, same.trans equal, there⟩

/-- What a table accepts can be derived. -/
theorem derives_of_accepts {word : List Symbol} (accepts : table.Accepts plain word) :
    plain.Derives [plain.start] word := by
  obtain ⟨states, runs, data, dataFound, cell, listed, -, inside⟩ := accepts
  obtain ⟨later, same, reads⟩ := reads_of_runs made ids runs .nil
  obtain rfl : word = later := by simpa using same
  obtain ⟨kernel, edges, kernelFound, stands, -⟩ :=
    Grammar.ComesFrom.stands_listed made dataFound
  obtain ⟨-, member⟩ := Grammar.ComesFrom.accepted_item made kernelFound
    (stands.actions cell listed _ inside)
  obtain ⟨-, earlier, part, rfl, older, derived, first⟩ :=
    reads.take (fun _ => Grammar.ComesFrom.dot_of_start made) member
  have whole : (Context.ofGrammar plain).rhs plain.productions.length = [plain.start] :=
    Context.rhs_wholeText
  rw [whole] at derived
  -- only the first state has the whole text before it, and no state enters it
  have nothing : earlier = [] := by
    generalize states.drop 1 = remaining at older first
    cases older with
    | nil => rfl
    | push _ enters _ =>
        obtain ⟨production, dot, advanced⟩ := enters.advanced
        rw [top, List.headD_cons] at first
        rw [Grammar.ComesFrom.start_of_whole made first] at advanced
        cases Grammar.ComesFrom.dot_of_start made advanced
  rw [nothing]
  exact derived

end Sound

/-- Whether a table of a grammar without precedences has been built from a complete automaton and from
lookaheads that hold all that flows to them. -/
structure Lalr.Table.Built (plain : PlainGrammar) (table : Lalr.Table) (automaton : Lalr.Automaton)
    (lookaheads : Lalr.KernelLookaheads) : Prop where
  /-- The symbols are numbered. -/
  numbered : plain.Numbered
  /-- There are no precedences. -/
  neutral : plain.Neutral
  /-- The automaton is complete. -/
  complete : Lalr.Automaton.Complete (Context.ofGrammar plain) automaton
  /-- Its states have ids. -/
  small : automaton.kernels.size < Lalr.Automaton.maxStates
  /-- The lookaheads are complete. -/
  propagates : lookaheads.Propagates (Context.ofGrammar plain) automaton
  /-- The table is made of them. -/
  same : table = .ofAutomaton (Context.ofGrammar plain) automaton lookaheads

section Completeness

variable {plain : PlainGrammar} {table : Lalr.Table} {automaton : Lalr.Automaton}
  {lookaheads : Lalr.KernelLookaheads} (built : table.Built plain automaton lookaheads)
  {state : StateId} {item : Item} {terminal : Symbol}

include built

theorem listed_of_built {kernel : List Item} {edges : List (Symbol × Nat)}
    (found : automaton.kernels[state.index]? = some kernel)
    (edgesFound : automaton.transitions[state.index]? = some edges) :
    ∃ data, table.states[state.index]? = some data ∧
      data.actions = Lalr.Table.cells (Context.ofGrammar plain)
        ((Context.ofGrammar plain).closureItems (Lalr.Table.seeds lookaheads (kernel, state.index)))
        edges ∧
      data.gotos = Lalr.Table.gotos (Context.ofGrammar plain) edges := by
  have all := congrArg (fun states => states[state.index]?)
    (Lalr.Table.states_ofAutomaton (Context.ofGrammar plain) automaton lookaheads)
  have entry : automaton.kernels.toList.zipIdx[state.index]? = some (kernel, state.index) := by
    rw [List.getElem?_zipIdx, Array.getElem?_toList, found]
    simp
  simp only [List.getElem?_map, entry, Option.map_some, edgesFound, Option.getD_some] at all
  obtain ⟨data, listed, parts⟩ := Option.map_eq_some_iff.1 all
  cases Prod.ext_iff.1 parts
  exact ⟨data, built.same ▸ listed, ‹_›, ‹_›⟩

/-- A state has all actions that its items call for. -/
theorem acts_of_built {kernel : List Item} {edges : List (Symbol × Nat)}
    (found : automaton.kernels[state.index]? = some kernel)
    (edgesFound : automaton.transitions[state.index]? = some edges)
    (inside : plain.isTerminal terminal = true) {action : Action}
    (member : action ∈ Lalr.Table.actionsOn (Context.ofGrammar plain)
      ((Context.ofGrammar plain).closureItems (Lalr.Table.seeds lookaheads (kernel, state.index)))
      edges terminal) : table.Acts state terminal action := by
  obtain ⟨data, dataFound, cells, -⟩ := listed_of_built built found edgesFound
  have links := built.complete.links _ kernel edges found edgesFound
  obtain ⟨cell, cellMember, same, kept⟩ := Lalr.Table.mem_cells built.neutral inside
    (fun edge listed => by
      obtain ⟨target, -, advances⟩ := links.sound edge listed
      obtain ⟨advanced, advancedMember⟩ := List.exists_mem_of_ne_nil _ advances.nonempty
      obtain ⟨origin, originMember, next, -⟩ := advances.source advanced advancedMember
      refine ⟨origin, Context.mem_items_of_closureItems.2 ?_, next⟩
      rwa [Lalr.Table.map_fst_seeds]) member
  exact ⟨data, dataFound, cell, cells ▸ cellMember, same, kept⟩

/-- The symbol after an item leads on to a state, by a shift or a goto, in which the item is advanced
and is followed by the same terminals. -/
theorem leads_of_built
    (expects : Lalr.Expects (Context.ofGrammar plain) automaton lookaheads state.index item terminal)
    {symbol : Symbol} (next : (Context.ofGrammar plain).next? item = some symbol) :
    ∃ after : StateId, (plain.isTerminal symbol = true → table.Acts state symbol (.shift after)) ∧
      (plain.isTerminal symbol = false → table.Goes state symbol after) ∧
      Lalr.Expects (Context.ofGrammar plain) automaton lookaheads after.index item.advance
        terminal := by
  obtain ⟨edges, target, edgesFound, edge, advanced⟩ :=
    expects.advance built.numbered built.complete built.propagates next
  obtain ⟨kernel, -, -, -, found, -⟩ := expects
  obtain ⟨after, -, -, -, afterFound, -⟩ := id advanced
  have place : (StateId.ofIndex target).index = target := by
    have bound := (Array.getElem?_eq_some_iff.1 afterFound).1
    have small := built.small
    have limit : Lalr.Automaton.maxStates = 65535 := rfl
    exact StateId.index_ofIndex (by omega)
  refine ⟨.ofIndex target, fun inside => ?_, fun outside => ?_, by rwa [place]⟩
  · refine acts_of_built built found edgesFound inside (List.mem_append_left _ ?_)
    exact List.mem_filterMap.2 ⟨(symbol, target), edge, if_pos rfl⟩
  · obtain ⟨data, dataFound, -, gotos⟩ := listed_of_built built found edgesFound
    refine ⟨data, dataFound, gotos ▸ List.mem_map.2 ⟨(symbol, target), ?_, rfl⟩⟩
    refine List.mem_filter.2 ⟨edge, ?_⟩
    dsimp only
    rw [show (Context.ofGrammar plain).grammar.isTerminal symbol = false from outside]
    rfl

/-- The terminal that begins a production of the symbol after an item leads on to a state in which
the production is followed by the terminal behind the symbol, if there is one. -/
theorem calls_of_built
    (expects : Lalr.Expects (Context.ofGrammar plain) automaton lookaheads state.index item terminal)
    {symbol first : Symbol} {rest : List Symbol}
    (spelled : ((Context.ofGrammar plain).rhs item.production).drop item.dot = symbol :: rest)
    (behind : ∀ next ∈ rest.head?, plain.isTerminal next = true)
    {production : Nat} {source : PlainProduction}
    (found : plain.productions[production]? = some source) (lhs : source.lhs = symbol)
    (begins : source.rhs.head? = some first) (inside : plain.isTerminal first = true) :
    ∃ after : StateId, table.Acts state first (.shift after) ∧
      Lalr.Expects (Context.ofGrammar plain) automaton lookaheads after.index ⟨production, 1⟩
        (rest.headD terminal) := by
  have called := expects.call built.numbered spelled found lhs
    ((Lalr.FirstSets.solves_ofGrammar built.numbered).starts_of_derives .refl behind)
  have next : (Context.ofGrammar plain).next? ⟨production, 0⟩ = some first := by
    rw [Context.next?, Context.rhs_ofGrammar found, ← List.head?_eq_getElem?, begins]
  obtain ⟨after, shifts, -, advanced⟩ := leads_of_built built called next
  exact ⟨after, shifts inside, advanced⟩

/-- A production that is recognised is reduced on whatever may follow it. -/
theorem reduces_of_built {production : Nat} {source : PlainProduction}
    (sourceFound : plain.productions[production]? = some source)
    (expects : Lalr.Expects (Context.ofGrammar plain) automaton lookaheads state.index
      ⟨production, source.rhs.length⟩ terminal) (inside : plain.isTerminal terminal = true) :
    table.Acts state terminal (.reduce (.ofIndex production)) := by
  obtain ⟨kernel, -, -, -, found, -⟩ := id expects
  obtain ⟨lookahead, follows, entry⟩ := expects.listed built.numbered built.propagates.sized found
  obtain ⟨edges, edgesFound, -⟩ := built.complete.exists_links found
  refine acts_of_built built found edgesFound inside (List.mem_append_right _ ?_)
  have whole : production ≠ (Context.ofGrammar plain).wholeText :=
    Nat.ne_of_lt (List.getElem?_eq_some_iff.1 sourceFound).1
  refine List.mem_filterMap.2 ⟨_, List.mem_filter.2 ⟨entry, ?_⟩, ?_⟩
  · exact decide_eq_true (congrArg List.length (Context.rhs_ofGrammar sourceFound)).le
  · dsimp only
    rw [if_neg whole, if_pos follows]

/-- A text that is recognised is accepted at its end. -/
theorem accepts_of_built
    (expects : Lalr.Expects (Context.ofGrammar plain) automaton lookaheads state.index
      ⟨plain.productions.length, 1⟩ terminal) : table.Acts state .endOfInput .accept := by
  obtain ⟨kernel, -, -, -, found, -⟩ := id expects
  obtain ⟨lookahead, -, entry⟩ := expects.listed built.numbered built.propagates.sized found
  obtain ⟨edges, edgesFound, -⟩ := built.complete.exists_links found
  have inside : plain.isTerminal .endOfInput = true := decide_eq_true built.numbered.positive
  refine acts_of_built built found edgesFound inside (List.mem_append_right _ ?_)
  have whole : (Context.ofGrammar plain).rhs plain.productions.length = [plain.start] :=
    Context.rhs_wholeText
  refine List.mem_filterMap.2 ⟨_, List.mem_filter.2 ⟨entry, ?_⟩, ?_⟩
  · exact decide_eq_true (congrArg List.length whole).le
  · dsimp only
    rw [if_pos (show plain.productions.length = (Context.ofGrammar plain).wholeText from rfl),
      if_pos rfl]

omit built in
/-- Whether what trees of at most a height derive from a symbol is read from every state in which the
symbol leads on and its productions are followed by what comes next. -/
def TreesRun (plain : PlainGrammar) (table : Lalr.Table) (automaton : Lalr.Automaton)
    (lookaheads : Lalr.KernelLookaheads) (height : Nat) : Prop :=
  ∀ {symbol : Symbol} {word rest : List Symbol} {states : List StateId} {after : StateId},
    word ∈ plain.languageIn height symbol →
    (∀ terminal ∈ word ++ rest, plain.isTerminal terminal = true) →
    (plain.isTerminal symbol = true → table.Acts (top states) symbol (.shift after)) →
    (plain.isTerminal symbol = false → table.Goes (top states) symbol after) →
    (∀ production source, plain.productions[production]? = some source → source.lhs = symbol →
      Lalr.Expects (Context.ofGrammar plain) automaton lookaheads (top states).index
        ⟨production, 0⟩ (rest.headD .endOfInput)) →
    table.Runs plain ⟨states, word ++ rest⟩ ⟨after :: states, rest⟩

omit built in
/-- Whether what trees of at most a height derive from a string is read from every state in which an
item goes on with the string and is followed by what comes next. -/
def StringsRun (plain : PlainGrammar) (table : Lalr.Table) (automaton : Lalr.Automaton)
    (lookaheads : Lalr.KernelLookaheads) (height : Nat) : Prop :=
  ∀ {symbols word rest : List Symbol} {states : List StateId} {production dot : Nat},
    word ∈ (symbols.map (plain.languageIn height)).prod →
    (∀ terminal ∈ word ++ rest, plain.isTerminal terminal = true) →
    ((Context.ofGrammar plain).rhs production).drop dot = symbols →
    Lalr.Expects (Context.ofGrammar plain) automaton lookaheads (top states).index
      ⟨production, dot⟩ (rest.headD .endOfInput) →
    ∃ pushed : List StateId, pushed.length = symbols.length ∧
      table.Runs plain ⟨states, word ++ rest⟩ ⟨pushed ++ states, rest⟩ ∧
      Lalr.Expects (Context.ofGrammar plain) automaton lookaheads (top (pushed ++ states)).index
        ⟨production, dot + symbols.length⟩ (rest.headD .endOfInput)

omit built in
theorem headD_append (left right : List Symbol) (terminal : Symbol) :
    (left ++ right).headD terminal = left.headD (right.headD terminal) := by
  cases left <;> rfl

/-- A string is read symbol by symbol. -/
theorem stringsRun_of_treesRun {height : Nat}
    (trees : TreesRun plain table automaton lookaheads height) :
    StringsRun plain table automaton lookaheads height := by
  intro symbols word rest states production dot member terminals spelled expects
  induction symbols generalizing word states dot with
  | nil =>
      obtain rfl : word = [] := member
      exact ⟨[], rfl, .refl, expects⟩
  | cons symbol others induction =>
      rw [List.map_cons, List.prod_cons] at member
      obtain ⟨first, firstMember, second, secondMember, rfl⟩ := Language.mem_mul.1 member
      rw [List.append_assoc] at terminals ⊢
      have next : (Context.ofGrammar plain).next? ⟨production, dot⟩ = some symbol :=
        Context.next?_of_drop spelled
      have later : ((Context.ofGrammar plain).rhs production).drop (dot + 1) = others := by
        rw [← List.drop_drop, spelled, List.drop_one, List.tail_cons]
      obtain ⟨secondTerminals, derives⟩ := PlainGrammar.derives_of_mem_prod
        (PlainGrammar.prod_map_mono (fun other _ => PlainGrammar.languageIn_le_language height other)
          secondMember)
      have starts : Lalr.FirstSets.Starts second
          ((Lalr.FirstSets.ofGrammar plain).ofString others) :=
        (Lalr.FirstSets.solves_ofGrammar built.numbered).starts_of_derives derives
          fun first listed => secondTerminals first (List.mem_of_mem_head? listed)
      obtain ⟨after, shifts, goes, advanced⟩ := leads_of_built built expects next
      have one := trees firstMember terminals shifts goes fun number source found lhs => by
        rw [headD_append]
        exact expects.call built.numbered spelled found lhs starts
      obtain ⟨pushed, length, runs, recognised⟩ := @induction second (after :: states) (dot + 1)
        secondMember
        (fun terminal listed => terminals terminal (List.mem_append_right first listed)) later
        advanced
      refine ⟨pushed ++ [after], by rw [List.length_append, length]; rfl, ?_, ?_⟩
      · rw [List.append_assoc]
        exact one.trans runs
      · rw [List.append_assoc, List.length_cons, Nat.add_comm others.length 1, ← Nat.add_assoc]
        exact recognised

/-- A tree is read by reading the right side of its production, which is then reduced. -/
theorem treesRun_succ (ids : plain.productions.length ≤ 65536) {height : Nat}
    (strings : StringsRun plain table automaton lookaheads height) :
    TreesRun plain table automaton lookaheads (height + 1) := by
  intro symbol word rest states after member terminals shifts goes expects
  cases terminal : plain.isTerminal symbol with
  | true =>
      rw [PlainGrammar.languageIn_terminal terminal] at member
      obtain rfl : word = [symbol] := member
      exact .single (.shift (shifts terminal))
  | false =>
      obtain ⟨source, listed, rfl, inside⟩ := (PlainGrammar.mem_languageIn_succ terminal).1 member
      obtain ⟨production, found⟩ := List.mem_iff_getElem?.1 listed
      have whole : ((Context.ofGrammar plain).rhs production).drop 0 = source.rhs :=
        Context.rhs_ofGrammar found
      obtain ⟨pushed, length, runs, recognised⟩ := strings inside terminals whole
        (expects production source found rfl)
      have place : (ProductionId.ofIndex production).index = production := by
        have bound := (List.getElem?_eq_some_iff.1 found).1
        exact ProductionId.index_ofIndex (by omega)
      have following : plain.isTerminal (rest.headD .endOfInput) = true := by
        cases rest with
        | nil => exact decide_eq_true built.numbered.positive
        | cons first others =>
            exact terminals first (List.mem_append_right word List.mem_cons_self)
      rw [Nat.zero_add] at recognised
      have remaining : (pushed ++ states).drop source.rhs.length = states :=
        List.drop_left' length
      have reduced := Step.reduce (reduces_of_built built found recognised following)
        (place.symm ▸ found) (by rw [List.length_append, length]; exact Nat.le_add_right ..)
        (remaining.symm ▸ goes terminal)
      rw [remaining] at reduced
      exact runs.tail reduced

/-- All trees are read. -/
theorem treesRun (ids : plain.productions.length ≤ 65536) (height : Nat) :
    TreesRun plain table automaton lookaheads height := by
  induction height with
  | zero =>
      intro symbol word rest states after member terminals shifts goes expects
      cases terminal : plain.isTerminal symbol with
      | true =>
          rw [PlainGrammar.languageIn_terminal terminal] at member
          obtain rfl : word = [symbol] := member
          exact .single (.shift (shifts terminal))
      | false =>
          rw [PlainGrammar.languageIn_zero terminal] at member
          exact absurd member (Set.notMem_empty word)
  | succ height induction =>
      exact treesRun_succ built ids (stringsRun_of_treesRun built induction)

/-- What can be derived is accepted. -/
theorem accepts_of_derives (ids : plain.productions.length ≤ 65536) {word : List Symbol}
    (terminals : ∀ terminal ∈ word, plain.isTerminal terminal = true)
    (derives : plain.Derives [plain.start] word) : table.Accepts plain word := by
  obtain ⟨height, member⟩ := derives.exists_height built.numbered.defines terminals
  have expects : Lalr.Expects (Context.ofGrammar plain) automaton lookaheads
      (top []).index ⟨plain.productions.length, 0⟩ (([] : List Symbol).headD .endOfInput) :=
    .of_kernel built.complete.start rfl built.propagates.start
  have whole : ((Context.ofGrammar plain).rhs plain.productions.length).drop 0 = [plain.start] :=
    Context.rhs_wholeText
  obtain ⟨pushed, -, runs, recognised⟩ := stringsRun_of_treesRun built (treesRun built ids height)
    member (by rwa [List.append_nil]) whole expects
  rw [List.append_nil, List.append_nil] at runs
  rw [List.append_nil] at recognised
  exact ⟨pushed, runs, accepts_of_built built recognised⟩

end Completeness

/-- The table of a grammar without precedences is built from what its construction computes. -/
theorem Lalr.Table.built_of_ofGrammar {plain : PlainGrammar} {table : Lalr.Table}
    (numbered : plain.Numbered) (neutral : plain.Neutral)
    (made : Lalr.Table.ofGrammar plain = .ok table) :
    ∃ automaton lookaheads, table.Built plain automaton lookaheads := by
  obtain ⟨small, same⟩ := Lalr.Table.ofGrammar_eq_ok made
  have complete := Lalr.Automaton.complete_ofGrammar plain
  exact ⟨_, _, numbered, neutral, complete, small,
    Lalr.KernelLookaheads.propagates_ofAutomaton numbered complete.start, same⟩

/-- The table of a plain grammar without precedences accepts exactly the sequences of terminals that
can be derived from the start symbol, if every production has an id of its own. -/
theorem Lalr.Table.accepts_iff_derives {description : Description} {plain : PlainGrammar}
    {table : Lalr.Table} (lowered : description.toPlain = .ok plain) (neutral : plain.Neutral)
    (ids : plain.productions.length ≤ 65536) (made : Lalr.Table.ofGrammar plain = .ok table)
    {word : List Symbol} (terminals : ∀ terminal ∈ word, plain.isTerminal terminal = true) :
    table.Accepts plain word ↔ plain.Derives [plain.start] word := by
  constructor
  · intro accepts
    obtain ⟨automaton, origin⟩ :=
      Lalr.Table.madeFrom_of_ofGrammar (Description.toPlain_sound lowered) made
    exact derives_of_accepts origin ids accepts
  · intro derives
    obtain ⟨automaton, lookaheads, built⟩ := Lalr.Table.built_of_ofGrammar
      (Description.toPlain_numbered lowered) neutral made
    exact accepts_of_derives built ids terminals derives

/-- A bracketed word is accepted. -/
theorem Lalr.Table.accepts_iff_derives_nested :
    ∃ plain table, Description.nested.toPlain = .ok plain ∧ plain.Neutral ∧
      plain.productions.length ≤ 65536 ∧ Lalr.Table.ofGrammar plain = .ok table ∧
      (∀ terminal ∈ [Symbol.ofIndex 2, .ofIndex 1, .ofIndex 3],
        plain.isTerminal terminal = true) ∧
      table.Accepts plain [.ofIndex 2, .ofIndex 1, .ofIndex 3] := by
  have computed : (Description.nested.toPlain.toOption.any fun plain =>
      decide (plain.Neutral ∧ plain.productions.length ≤ 65536 ∧
        (Lalr.Table.ofGrammar plain).isOk = true ∧
        (∀ terminal ∈ [Symbol.ofIndex 2, .ofIndex 1, .ofIndex 3],
          plain.isTerminal terminal = true) ∧
        plain.Rewrites plain.start [.ofIndex 2, .ofIndex 5, .ofIndex 3] ∧
        plain.Rewrites (.ofIndex 5) [plain.start] ∧
        plain.Rewrites plain.start [.ofIndex 1])) = true := by
    decide +kernel
  obtain ⟨plain, lowered, facts⟩ := Except.exists_of_any computed
  obtain ⟨neutral, ids, succeeds, terminals, brackets, text, single⟩ := of_decide_eq_true facts
  obtain ⟨table, made⟩ := Except.exists_of_isOk succeeds
  refine ⟨plain, table, lowered, neutral, ids, made, terminals,
    (Lalr.Table.accepts_iff_derives lowered neutral ids made terminals).2 ?_⟩
  have first : plain.Derives [plain.start] [.ofIndex 2, .ofIndex 5, .ofIndex 3] :=
    .single (brackets.produces [] [])
  exact (first.tail (text.produces [.ofIndex 2] [.ofIndex 3])).tail
    (single.produces [.ofIndex 2] [.ofIndex 3])

/-! ## Ids that are cut off

The id of a production holds the lowest 16 bits of its position.  With more than 65536 productions, some
ids stand for several, and what a table reduces by an id is the first of them.  Compiling a description
refuses so many productions, but only after its table has been built. -/

section Weights

/-- The blank alternative with a dynamic precedence. -/
def Alternative.weight (value : Nat) : Alternative := ⟨[], none, value⟩

/-- The empty text with any one of the given dynamic precedences. -/
def Rule.weighed (values : List Nat) : Rule :=
  .choice (values.map fun value => .precedence .dynamic value .blank)

namespace Expansion

variable {scope : Scope} {owner : String} {expansion : Expansion}

theorem sum_of_small {left right : Nat} (small : left + right < 2147483648) :
    Alternative.sum left right = (left + right : Nat) :=
  Int32.toInt_ofInt_of_le (by omega) (by omega)

theorem overflows_of_small {left right : Nat} (small : left + right < 2147483648) :
    Alternative.overflows left right = false :=
  decide_eq_false (not_not.2 (sum_of_small small))

theorem note_false : note false expansion = (.ok (), expansion) := by
  obtain ⟨symbols, productions, repetitions, overflowed⟩ := expansion
  exact congrArg (fun noted => (Except.ok (), Expansion.mk symbols productions repetitions noted))
    (Bool.or_false overflowed)

theorem expand_weight {value : Nat} (small : value < 2147483648) :
    expand scope owner (.precedence .dynamic value .blank) expansion =
      (.ok [.weight value], expansion) := by
  have fits : 0 + value < 2147483648 := by rwa [Nat.zero_add]
  have checked : ([Alternative.blank].any fun alternative =>
      Alternative.overflows alternative.dynamicPrecedence value) = false := by
    rw [List.any_cons, List.any_nil, Bool.or_false]
    exact overflows_of_small fits
  have same : Alternative.blank.addDynamic value = .weight value := by
    have total := sum_of_small fits
    rw [Nat.zero_add] at total
    exact congrArg (Alternative.mk [] none) total
  refine bind_eq_ok.2 ⟨[.blank], expansion, rfl, bind_eq_ok.2 ⟨(), expansion, ?_, ?_⟩⟩
  · rw [checked, note_false]
  · rw [List.map_singleton, same]
    rfl

theorem expandChoice_weights {values : List Nat} (small : ∀ value ∈ values, value < 2147483648) :
    expandChoice scope owner (values.map fun value => .precedence .dynamic value .blank)
      expansion = (.ok (values.map .weight), expansion) := by
  induction values with
  | nil => rfl
  | cons value rest induction =>
      obtain ⟨here, later⟩ := List.forall_mem_cons.1 small
      exact bind_eq_ok.2 ⟨[.weight value], expansion, expand_weight here,
        bind_eq_ok.2 ⟨rest.map .weight, expansion, induction later, rfl⟩⟩

theorem expand_weighed {values : List Nat} (nonempty : values ≠ [])
    (small : ∀ value ∈ values, value < 2147483648) :
    expand scope owner (.weighed values) expansion = (.ok (values.map .weight), expansion) := by
  obtain ⟨value, rest, rfl⟩ := List.exists_cons_of_ne_nil nonempty
  obtain ⟨here, later⟩ := List.forall_mem_cons.1 small
  exact bind_eq_ok.2 ⟨[.weight value], expansion, expand_weight here,
    bind_eq_ok.2 ⟨rest.map .weight, expansion, expandChoice_weights later, rfl⟩⟩

/-- In a sequence each dynamic precedence is added to each one before. -/
theorem expandSeq_weights {before values : List Nat} {rule : Rule} {rest : List Rule}
    (expanded : expand scope owner rule expansion = (.ok (values.map .weight), expansion))
    (small : ∀ first ∈ before, ∀ second ∈ values, first + second < 2147483648) :
    expandSeq scope owner (before.map .weight) (rule :: rest) expansion =
      expandSeq scope owner ((before.flatMap fun first => values.map (first + ·)).map .weight) rest
        expansion := by
  have checked :
      Alternative.productOverflows (before.map .weight) (values.map .weight) = false := by
    simp only [Alternative.productOverflows, List.any_eq_false, List.forall_mem_map,
      Bool.not_eq_true]
    exact fun first firstMember second secondMember =>
      overflows_of_small (small first firstMember second secondMember)
  have same : Alternative.product (before.map .weight) (values.map .weight) =
      (before.flatMap fun first => values.map (first + ·)).map .weight := by
    rw [Alternative.product, List.flatMap_map, List.map_flatMap]
    refine List.flatMap_congr fun first firstMember => ?_
    rw [List.map_map, List.map_map]
    exact List.map_congr_left fun second secondMember =>
      congrArg (Alternative.mk [] none) (sum_of_small (small first firstMember second secondMember))
  have unfolded : expandSeq scope owner (before.map .weight) (rule :: rest) = (do
      let alternatives ← expand scope owner rule
      note (Alternative.productOverflows (before.map .weight) alternatives)
      expandSeq scope owner (Alternative.product (before.map .weight) alternatives) rest) := rfl
  rw [unfolded, bind_of_eq_ok expanded, checked, bind_of_eq_ok note_false, same]

end Expansion

theorem Terminals.collectAll_weights (owner : String) (terminals : Terminals) (values : List Nat) :
    Terminals.collectAll owner terminals
      (values.map fun value => .precedence .dynamic value .blank) = .ok terminals := by
  induction values with
  | nil => rfl
  | cons value rest induction => exact induction

end Weights

section Fillers

/-- The empty text with any dynamic precedence from 0 to 4680. -/
def Rule.filler : Rule :=
  .seq [weighed ((List.range 31).map (· * 151)), weighed (List.range 151)]

/-- A range is a sequence of blocks. -/
theorem range_mul (blocks width : Nat) : List.range (blocks * width) =
    (List.range blocks).flatMap fun block => (List.range width).map (block * width + ·) := by
  induction blocks with
  | zero => rw [Nat.zero_mul, List.range_zero, List.flatMap_nil]
  | succ blocks induction =>
      rw [Nat.succ_mul, List.range_add, induction, List.range_succ, List.flatMap_append,
        List.flatMap_singleton]

/-- A filler has an alternative for each of its dynamic precedences. -/
theorem Expansion.expand_filler {scope : Scope} {owner : String} {expansion : Expansion} :
    expand scope owner .filler expansion = (.ok ((List.range 4681).map .weight), expansion) := by
  have blocks : ∀ value ∈ (List.range 31).map (· * 151), value < 4681 := by
    simp only [List.forall_mem_map, List.mem_range]
    omega
  have values : ∀ value ∈ List.range 151, value < 151 := fun _ => List.mem_range.1
  have first := @expand_weighed scope owner expansion ((List.range 31).map (· * 151))
    (List.cons_ne_nil _ _) fun value member => (blocks value member).trans (by omega)
  have second := @expand_weighed scope owner expansion (List.range 151)
    (List.cons_ne_nil _ _) fun value member => (values value member).trans (by omega)
  have start : [0].flatMap (fun first => ((List.range 31).map (· * 151)).map (first + ·)) =
      (List.range 31).map (· * 151) := by
    simp only [List.flatMap_singleton, Nat.zero_add, List.map_id']
  have all : ((List.range 31).map (· * 151)).flatMap (fun first =>
      (List.range 151).map (first + ·)) = List.range 4681 := by
    rw [List.flatMap_map]
    exact (range_mul 31 151).symm
  change expandSeq scope owner ([0].map .weight) [_, _] expansion = _
  rw [expandSeq_weights first, start, expandSeq_weights second, all]
  · rfl
  · intro left leftMember right rightMember
    have := blocks left leftMember
    have := values right rightMember
    omega
  · intro left leftMember right rightMember
    obtain rfl := List.mem_singleton.1 leftMember
    have := blocks right rightMember
    omega

theorem Terminals.collect_filler (owner : String) (terminals : Terminals) :
    Terminals.collect owner terminals .filler = .ok terminals :=
  Except.bind_eq_ok.2 ⟨terminals, collectAll_weights owner terminals _,
    Except.bind_eq_ok.2 ⟨terminals, collectAll_weights owner terminals _, rfl⟩⟩

end Fillers

/-- Whether a plain grammar has the productions `s → a s c` and `s → a t`, then empty ones, and as
the production 65536, whose id is that of the first one, `t → b`. -/
structure PlainGrammar.Crowded (plain : PlainGrammar) : Prop where
  /-- There are three terminals besides the end of the input. -/
  terminalCount : plain.terminalCount = 4
  /-- Whole texts are an `s`. -/
  start : plain.start = .ofIndex 4
  /-- The first production puts an `s` in brackets. -/
  brackets : plain.productions[0]? =
    some ⟨.ofIndex 4, [.ofIndex 1, .ofIndex 4, .ofIndex 2], 0, none, 0⟩
  /-- The second one opens a bracket that is not closed. -/
  innermost : plain.productions[1]? = some ⟨.ofIndex 4, [.ofIndex 1, .ofIndex 19], 0, none, 0⟩
  /-- The ones between replace other symbols by nothing. -/
  empty : ∀ position, 2 ≤ position → position < 65536 → ∃ value lhs, 4 < lhs.index ∧
    plain.productions[position]? = some ⟨lhs, [], 0, none, value⟩
  /-- The last one has too large a position. -/
  last : plain.productions[65536]? = some ⟨.ofIndex 19, [.ofIndex 3], 0, none, 0⟩
  /-- There are no others. -/
  length : plain.productions.length = 65537

namespace PlainGrammar.Crowded

variable {plain : PlainGrammar} (crowded : plain.Crowded)

include crowded

theorem cases {position : Nat} {production : PlainProduction}
    (found : plain.productions[position]? = some production) :
    (position = 0 ∧ production = ⟨.ofIndex 4, [.ofIndex 1, .ofIndex 4, .ofIndex 2], 0, none, 0⟩) ∨
      (position = 1 ∧ production = ⟨.ofIndex 4, [.ofIndex 1, .ofIndex 19], 0, none, 0⟩) ∨
      (∃ value lhs, 4 < lhs.index ∧ production = ⟨lhs, [], 0, none, value⟩) ∨
      position = 65536 ∧ production = ⟨.ofIndex 19, [.ofIndex 3], 0, none, 0⟩ := by
  have inside := (List.getElem?_eq_some_iff.1 found).1
  rw [crowded.length] at inside
  obtain rfl | rfl | ⟨least, small⟩ | rfl :
      position = 0 ∨ position = 1 ∨ (2 ≤ position ∧ position < 65536) ∨ position = 65536 := by
    omega
  · exact .inl ⟨rfl, Option.some.inj (found.symm.trans crowded.brackets)⟩
  · exact .inr (.inl ⟨rfl, Option.some.inj (found.symm.trans crowded.innermost)⟩)
  · obtain ⟨value, lhs, later, same⟩ := crowded.empty position least small
    exact .inr (.inr (.inl ⟨value, lhs, later, Option.some.inj (found.symm.trans same)⟩))
  · exact .inr (.inr (.inr ⟨rfl, Option.some.inj (found.symm.trans crowded.last)⟩))

theorem neutral : plain.Neutral := by
  intro production member
  obtain ⟨position, found⟩ := List.mem_iff_getElem?.1 member
  obtain ⟨-, rfl⟩ | ⟨-, rfl⟩ | ⟨value, lhs, -, rfl⟩ | ⟨-, rfl⟩ := crowded.cases found
  all_goals exact ⟨rfl, rfl⟩

/-- Kernels are made of eight items, so there are not too many of them. -/
theorem size_kernels_le :
    (Lalr.Automaton.ofContext (Context.ofGrammar plain)).kernels.size ≤ 256 := by
  have whole : (Context.ofGrammar plain).wholeText = 65537 := crowded.length
  refine @Lalr.Automaton.size_kernels_le_of_mem plain [⟨0, 1⟩, ⟨0, 2⟩, ⟨0, 3⟩, ⟨1, 1⟩, ⟨1, 2⟩,
    ⟨65536, 1⟩, ⟨65537, 0⟩, ⟨65537, 1⟩] fun ⟨production, dot⟩ begun known inside => ?_
  rw [whole] at begun known
  dsimp only at begun known inside
  rcases Nat.eq_or_lt_of_le known with rfl | less
  · rw [← whole, Context.rhs_wholeText, List.length_singleton] at inside
    obtain rfl | rfl := Nat.le_one_iff_eq_zero_or_eq_one.1 inside
    all_goals decide
  · have started : dot ≠ 0 := begun.resolve_right less.ne
    obtain ⟨source, found⟩ : ∃ source, plain.productions[production]? = some source :=
      ⟨_, List.getElem?_eq_getElem (less.trans_eq crowded.length.symm)⟩
    rw [Context.rhs_ofGrammar found] at inside
    obtain ⟨rfl, rfl⟩ | ⟨rfl, rfl⟩ | ⟨value, lhs, -, rfl⟩ | ⟨rfl, rfl⟩ := crowded.cases found
    all_goals
      simp at inside ⊢
      omega

omit crowded in
/-- Whether there is one `a` or `s` more than there are `c`s. -/
def Balanced (symbols : List Symbol) : Prop :=
  symbols.count (.ofIndex 1) + symbols.count (.ofIndex 4) = symbols.count (.ofIndex 2) + 1

instance (symbols : List Symbol) : Decidable (Balanced symbols) :=
  inferInstanceAs (Decidable (_ = _))

omit crowded in
theorem Balanced.replace {lhs : Symbol} {rhs before after : List Symbol}
    (balanced : Balanced (before ++ lhs :: after))
    (same : rhs.count (.ofIndex 1) + rhs.count (.ofIndex 4) + [lhs].count (.ofIndex 2) =
      [lhs].count (.ofIndex 1) + [lhs].count (.ofIndex 4) + rhs.count (.ofIndex 2)) :
    Balanced (before ++ rhs ++ after) := by
  rw [Balanced, ← List.singleton_append] at balanced
  rw [Balanced]
  simp only [List.count_append] at balanced ⊢
  omega

/-- All brackets but the innermost are closed in what is derived. -/
theorem balanced_of_derives {before after : List Symbol} (derives : plain.Derives before after)
    (balanced : Balanced before) : Balanced after := by
  induction derives with
  | refl => exact balanced
  | tail earlier produces induction =>
      obtain @⟨production, left, right, member⟩ := produces
      obtain ⟨position, found⟩ := List.mem_iff_getElem?.1 member
      refine induction.replace ?_
      obtain ⟨-, rfl⟩ | ⟨-, rfl⟩ | ⟨value, lhs, later, rfl⟩ | ⟨-, rfl⟩ := crowded.cases found
      · decide
      · decide
      · have absent : ∀ index ≤ 4, lhs ≠ .ofIndex index := by
          rintro index small rfl
          rw [Symbol.index_ofIndex (by omega)] at later
          omega
        simp [absent]
      · decide

variable {table : Lalr.Table} {automaton : Lalr.Automaton} {lookaheads : Lalr.KernelLookaheads}

theorem isTerminal_ofIndex {index : Nat} (small : index < 4) :
    plain.isTerminal (.ofIndex index) = true := by
  rw [PlainGrammar.isTerminal, crowded.terminalCount, Symbol.index_ofIndex (by omega)]
  exact decide_eq_true small

theorem isTerminal_text : plain.isTerminal (.ofIndex 4) = false := by
  rw [PlainGrammar.isTerminal, crowded.terminalCount]
  rfl

/-- Where the letter in three brackets is to be reduced, the table has the id of the first
production. -/
theorem reads (built : table.Built plain automaton lookaheads) :
    ∃ first second third fourth,
      table.Runs plain ⟨[], [.ofIndex 1, .ofIndex 1, .ofIndex 1, .ofIndex 3, .ofIndex 2]⟩
        ⟨[fourth, third, second, first], [.ofIndex 2]⟩ ∧
      Lalr.Expects (Context.ofGrammar plain) automaton lookaheads first.index ⟨0, 1⟩ .endOfInput ∧
      table.Acts fourth (.ofIndex 2) (.reduce (.ofIndex 0)) := by
  have brackets := Context.rhs_ofGrammar crowded.brackets
  have innermost := Context.rhs_ofGrammar crowded.innermost
  have whole : (Context.ofGrammar plain).rhs plain.productions.length = [.ofIndex 4] :=
    crowded.start ▸ Context.rhs_wholeText
  have opening : plain.isTerminal (.ofIndex 1) = true := crowded.isTerminal_ofIndex (by omega)
  have letter : plain.isTerminal (.ofIndex 3) = true := crowded.isTerminal_ofIndex (by omega)
  have closing : plain.isTerminal (.ofIndex 2) = true := crowded.isTerminal_ofIndex (by omega)
  have behind : ∀ next ∈ [Symbol.ofIndex 2].head?, plain.isTerminal next = true :=
    fun next same => Option.some.inj same ▸ closing
  have text : Lalr.Expects (Context.ofGrammar plain) automaton lookaheads
      StateId.start.index ⟨plain.productions.length, 0⟩ .endOfInput :=
    .of_kernel built.complete.start rfl built.propagates.start
  obtain ⟨first, firstShift, outer⟩ := calls_of_built built text (congrArg (List.drop 0) whole)
    nofun crowded.brackets rfl rfl opening
  obtain ⟨second, secondShift, inner⟩ := calls_of_built built outer
    (congrArg (List.drop 1) brackets) behind crowded.brackets rfl rfl opening
  obtain ⟨third, thirdShift, word⟩ := calls_of_built built inner
    (congrArg (List.drop 1) brackets) behind crowded.innermost rfl rfl opening
  obtain ⟨fourth, fourthShift, recognised⟩ := calls_of_built built word
    (congrArg (List.drop 1) innermost) nofun crowded.last rfl rfl letter
  have acts : table.Acts fourth (.ofIndex 2) (.reduce (.ofIndex 65536)) :=
    reduces_of_built built crowded.last recognised closing
  refine ⟨first, second, third, fourth, ?_, outer, acts⟩
  exact .head (.shift firstShift) (.head (.shift secondShift) (.head (.shift thirdShift)
    (.single (.shift fourthShift))))

/-- A bracket that is not closed is accepted: the wrong reduction takes two brackets off the stack
besides the letter and leaves a bracketed text. -/
theorem accepts (built : table.Built plain automaton lookaheads) :
    table.Accepts plain [.ofIndex 1, .ofIndex 1, .ofIndex 1, .ofIndex 3, .ofIndex 2] := by
  obtain ⟨first, second, third, fourth, opens, outer, confused⟩ := crowded.reads built
  have brackets := Context.rhs_ofGrammar crowded.brackets
  have whole : (Context.ofGrammar plain).rhs plain.productions.length = [.ofIndex 4] :=
    crowded.start ▸ Context.rhs_wholeText
  have closing : plain.isTerminal (.ofIndex 2) = true := crowded.isTerminal_ofIndex (by omega)
  have ending : plain.isTerminal .endOfInput = true := decide_eq_true built.numbered.positive
  have text : Lalr.Expects (Context.ofGrammar plain) automaton lookaheads
      StateId.start.index ⟨plain.productions.length, 0⟩ .endOfInput :=
    .of_kernel built.complete.start rfl built.propagates.start
  obtain ⟨fifth, -, fifthGoes, bracket⟩ :=
    leads_of_built built outer (Context.next?_of_drop (congrArg (List.drop 1) brackets))
  obtain ⟨sixth, sixthShift, -, closed⟩ :=
    leads_of_built built bracket (Context.next?_of_drop (congrArg (List.drop 2) brackets))
  obtain ⟨seventh, -, seventhGoes, all⟩ :=
    leads_of_built built text (Context.next?_of_drop (congrArg (List.drop 0) whole))
  have shortens : table.Step plain ⟨[fourth, third, second, first], [.ofIndex 2]⟩
      ⟨[fifth, first], [.ofIndex 2]⟩ :=
    @Step.reduce _ _ [fourth, third, second, first] _ (.ofIndex 0) _ _ confused crowded.brackets
      (Nat.le_succ 3) (fifthGoes crowded.isTerminal_text)
  have closes : table.Step plain ⟨[fifth, first], [.ofIndex 2]⟩ ⟨[sixth, fifth, first], []⟩ :=
    .shift (sixthShift closing)
  have reduces : table.Acts sixth .endOfInput (.reduce (.ofIndex 0)) :=
    reduces_of_built built crowded.brackets closed ending
  have ends : table.Step plain ⟨[sixth, fifth, first], []⟩ ⟨[seventh], []⟩ :=
    @Step.reduce _ _ [sixth, fifth, first] _ (.ofIndex 0) _ _ reduces crowded.brackets
      (Nat.le_refl 3) (seventhGoes crowded.isTerminal_text)
  exact ⟨[seventh], ((opens.tail shortens).tail closes).tail ends, accepts_of_built built all⟩

end PlainGrammar.Crowded

namespace Description

/-- The names of rules that nothing refers to. -/
def fillers : List String :=
  ["e0", "e1", "e2", "e3", "e4", "e5", "e6", "e7", "e8", "e9", "e10", "e11", "e12", "e13"]

/-- A letter in brackets, the innermost of which is not closed, with 65534 productions before that of
the letter. -/
def crowded : Description :=
  ⟨"crowded", ("s", .choice [.seq [.string "a", .symbol "s", .string "c"],
      .seq [.string "a", .symbol "t"]]) ::
    fillers.map (fun name => (name, .filler)) ++ [("t", .seq [.string "b"])], [], [], []⟩

namespace Crowded

/-- The terminals: `a`, `c` and `b`. -/
def terminals : Terminals :=
  ⟨["a", "c", "b"].map fun text => ⟨.literal text, Terminals.anonymousInfo text .terminal,
    some (.literal text), 0⟩, []⟩

/-- The names of the terminals and rules. -/
def scope : Expansion.Scope := ⟨terminals, crowded.rules.map Prod.fst⟩

/-- The alternatives of each rule. -/
def alternatives (lhs : Symbol) : List Alternative :=
  if lhs = .ofIndex 4 then
    [⟨[.ofIndex 1, .ofIndex 4, .ofIndex 2], none, 0⟩, ⟨[.ofIndex 1, .ofIndex 19], none, 0⟩]
  else if lhs = .ofIndex 19 then [⟨[.ofIndex 3], none, 0⟩]
  else (List.range 4681).map .weight

/-- The productions of some rules. -/
def productions (symbols : List Symbol) : List PlainProduction :=
  symbols.flatMap fun lhs => (alternatives lhs).map (Alternative.toProduction lhs)

/-- The symbols of the fillers. -/
def fillerSymbols : List Symbol := (List.range' 5 14).map .ofIndex

theorem alternatives_filler {lhs : Symbol} (member : lhs ∈ fillerSymbols) :
    alternatives lhs = (List.range 4681).map .weight := by
  have others : ∀ lhs ∈ fillerSymbols, lhs ≠ .ofIndex 4 ∧ lhs ≠ .ofIndex 19 := by decide
  rw [alternatives, if_neg (others lhs member).1, if_neg (others lhs member).2]

theorem nonterminals_eq : crowded.nonterminals .empty = crowded.rules := rfl

theorem collectTerminals_eq : crowded.collectTerminals .empty = .ok terminals := by
  rw [collectTerminals, nonterminals_eq]
  simp only [crowded, fillers, List.map_cons, List.map_nil, List.cons_append, List.nil_append,
    List.foldlM_cons, List.foldlM_nil, Terminals.collect_filler]
  rfl

theorem entries_eq : scope.entries crowded.rules =
    (.ofIndex 4, "s", .choice [.seq [.string "a", .symbol "s", .string "c"],
      .seq [.string "a", .symbol "t"]]) ::
      ((fillerSymbols.zip fillers).map (fun (lhs, name) => (lhs, name, .filler)) ++
        [(.ofIndex 19, "t", .seq [.string "b"])]) := rfl

theorem symbols_eq : (scope.entries crowded.rules).map Prod.fst =
    .ofIndex 4 :: (fillerSymbols ++ [.ofIndex 19]) := rfl

theorem expand_eq : ∀ entry ∈ scope.entries crowded.rules, ∀ expansion : Expansion,
    expansion.overflowed = false → Expansion.expand scope entry.2.1 entry.2.2 expansion =
      (.ok (alternatives entry.1), expansion) := by
  rw [entries_eq, List.forall_mem_cons, List.forall_mem_append, List.forall_mem_singleton]
  refine ⟨?_, fun entry member expansion _ => ?_, ?_⟩
  · rintro ⟨symbols, productions, repetitions, overflowed⟩ ⟨⟩
    rfl
  · obtain ⟨⟨lhs, name⟩, listed, rfl⟩ := List.mem_map.1 member
    rw [alternatives_filler (List.of_mem_zip listed).1]
    exact Expansion.expand_filler
  · rintro ⟨symbols, productions, repetitions, overflowed⟩ ⟨⟩
    rfl

/-- The alternatives of a filler differ by their dynamic precedences. -/
theorem nodup_alternatives (lhs : Symbol) :
    ((alternatives lhs).map (Alternative.toProduction lhs)).Nodup := by
  unfold alternatives
  split
  · simp [Alternative.toProduction]
  · split
    · exact List.nodup_singleton _
    · rw [List.map_map]
      refine List.nodup_range.map fun left right same => ?_
      exact Int.ofNat.inj (congrArg PlainProduction.dynamicPrecedence same)

theorem nodup_productions {symbols : List Symbol} (distinct : symbols.Nodup) :
    (productions symbols).Nodup := by
  refine List.nodup_flatMap.2 ⟨fun lhs _ => nodup_alternatives lhs, ?_⟩
  refine distinct.imp fun different production left right => ?_
  obtain ⟨_, -, rfl⟩ := List.mem_map.1 left
  obtain ⟨_, -, same⟩ := List.mem_map.1 right
  exact different (congrArg PlainProduction.lhs same).symm

theorem length_fillers : (productions fillerSymbols).length = 65534 := by
  have each : ∀ lhs ∈ fillerSymbols,
      ((alternatives lhs).map (Alternative.toProduction lhs)).length = 4681 := by
    intro lhs member
    rw [alternatives_filler member, List.length_map, List.length_map, List.length_range]
  rw [productions, List.length_flatMap, List.map_congr_left each]
  rfl

theorem mem_fillers {production : PlainProduction}
    (member : production ∈ productions fillerSymbols) :
    ∃ value lhs, 4 < lhs.index ∧ production = ⟨lhs, [], 0, none, value⟩ := by
  have later : ∀ lhs ∈ fillerSymbols, 4 < lhs.index := by decide
  obtain ⟨lhs, symbol, listed⟩ := List.mem_flatMap.1 member
  rw [alternatives_filler symbol] at listed
  obtain ⟨alternative, weights, rfl⟩ := List.mem_map.1 listed
  obtain ⟨value, -, rfl⟩ := List.mem_map.1 weights
  exact ⟨value, lhs, later lhs symbol, rfl⟩

theorem productions_eq : productions (.ofIndex 4 :: (fillerSymbols ++ [.ofIndex 19])) =
    ⟨.ofIndex 4, [.ofIndex 1, .ofIndex 4, .ofIndex 2], 0, none, 0⟩ ::
      ⟨.ofIndex 4, [.ofIndex 1, .ofIndex 19], 0, none, 0⟩ ::
        (productions fillerSymbols ++ [⟨.ofIndex 19, [.ofIndex 3], 0, none, 0⟩]) := by
  have text : (alternatives (.ofIndex 4)).map (Alternative.toProduction (.ofIndex 4)) =
      [⟨.ofIndex 4, [.ofIndex 1, .ofIndex 4, .ofIndex 2], 0, none, 0⟩,
        ⟨.ofIndex 4, [.ofIndex 1, .ofIndex 19], 0, none, 0⟩] := rfl
  have letter : (alternatives (.ofIndex 19)).map (Alternative.toProduction (.ofIndex 19)) =
      [⟨.ofIndex 19, [.ofIndex 3], 0, none, 0⟩] := rfl
  rw [productions, List.flatMap_cons, List.flatMap_append, List.flatMap_singleton, text, letter,
    List.cons_append, List.cons_append, List.nil_append, productions]

theorem exists_plain : ∃ plain, crowded.toPlain = .ok plain ∧ plain.terminalCount = 4 ∧
    plain.start = .ofIndex 4 ∧
    plain.productions = productions (.ofIndex 4 :: (fillerSymbols ++ [.ofIndex 19])) := by
  let start := Expansion.start terminals crowded.rules
  have named : Terminals.ofRules crowded = .ok .empty := rfl
  have expanded := expansion_of_terminals rfl named collectTerminals_eq
  dsimp only at expanded
  rw [nonterminals_eq] at expanded
  have distinct : (Symbol.ofIndex 4 :: (fillerSymbols ++ [.ofIndex 19])).Nodup := by decide
  have none : start.productions.toList = [] := rfl
  have ran : (scope.entries crowded.rules).forM (Expansion.expandRule scope) start =
      (.ok (), start.append (productions ((scope.entries crowded.rules).map Prod.fst))) := by
    refine Expansion.expandRules_of_nodup expand_eq rfl ?_
    rw [none, symbols_eq]
    exact nodup_productions distinct
  have small : (start.append (productions ((scope.entries crowded.rules).map
      Prod.fst))).symbols.size < 65535 := by
    have size : start.symbols.size = 20 := rfl
    exact size.trans_lt (by omega)
  have conflicts : crowded.conflicts.mapM (conflictSymbols scope) = .ok [] := rfl
  have whole : crowded.expansion = .ok (scope, .ok (),
      start.append (productions ((scope.entries crowded.rules).map Prod.fst))) :=
    expanded.trans (congrArg (fun ran => Except.ok (scope, ran)) ran)
  refine ⟨_, toPlain_of_expansion whole small conflicts, rfl, rfl, ?_⟩
  rw [Expansion.plain, Expansion.productions_append, none, List.nil_append, symbols_eq]

/-- The description lowers to a plain grammar whose last production has too large a position. -/
theorem exists_crowded : ∃ plain, crowded.toPlain = .ok plain ∧ plain.Crowded := by
  obtain ⟨plain, lowered, terminalCount, start, spelled⟩ := exists_plain
  rw [productions_eq] at spelled
  have length := length_fillers
  refine ⟨plain, lowered, terminalCount, start, ?_, ?_, fun position least small => ?_, ?_, ?_⟩
  · rw [spelled, List.getElem?_cons_zero]
  · rw [spelled, List.getElem?_cons_succ, List.getElem?_cons_zero]
  · obtain ⟨rest, rfl⟩ := Nat.exists_eq_add_of_le' least
    have inside : rest < (productions fillerSymbols).length := by omega
    obtain ⟨value, lhs, later, same⟩ := mem_fillers (List.getElem_mem inside)
    refine ⟨value, lhs, later, ?_⟩
    rw [spelled, List.getElem?_cons_succ, List.getElem?_cons_succ,
      List.getElem?_append_left inside, List.getElem?_eq_getElem inside, same]
  · rw [spelled, List.getElem?_cons_succ, List.getElem?_cons_succ,
      List.getElem?_append_right (Nat.le_of_eq length), length, Nat.sub_self,
      List.getElem?_cons_zero]
  · rw [spelled, List.length_cons, List.length_cons, List.length_append, length,
      List.length_singleton]

end Crowded

end Description

/-- With more productions than there are ids, a table may accept what cannot be derived. -/
theorem Lalr.Table.accepts_crowded :
    ∃ plain table, Description.crowded.toPlain = .ok plain ∧ plain.Neutral ∧
      Lalr.Table.ofGrammar plain = .ok table ∧ plain.productions.length = 65537 ∧
      (∀ terminal ∈ [Symbol.ofIndex 1, .ofIndex 1, .ofIndex 1, .ofIndex 3, .ofIndex 2],
        plain.isTerminal terminal = true ∧ terminal ≠ .endOfInput) ∧
      table.Accepts plain [.ofIndex 1, .ofIndex 1, .ofIndex 1, .ofIndex 3, .ofIndex 2] ∧
      ¬ plain.Derives [plain.start]
        [.ofIndex 1, .ofIndex 1, .ofIndex 1, .ofIndex 3, .ofIndex 2] := by
  obtain ⟨plain, lowered, crowded⟩ := Description.Crowded.exists_crowded
  have small : (Lalr.Automaton.ofContext (Context.ofGrammar plain)).kernels.size <
      Lalr.Automaton.maxStates := crowded.size_kernels_le.trans_lt (by decide)
  have made := Lalr.Table.ofGrammar_of_small small
  obtain ⟨automaton, lookaheads, built⟩ := Lalr.Table.built_of_ofGrammar
    (Description.toPlain_numbered lowered) crowded.neutral made
  refine ⟨plain, _, lowered, crowded.neutral, made, crowded.length, ?_, crowded.accepts built,
    fun derives => ?_⟩
  · simp only [PlainGrammar.isTerminal, crowded.terminalCount]
    decide
  · rw [crowded.start] at derives
    exact absurd (crowded.balanced_of_derives derives (by decide)) (by decide)

end IncrementalGlr
