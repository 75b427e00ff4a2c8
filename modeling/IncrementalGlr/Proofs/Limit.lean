import IncrementalGlr.Proofs.Coverage.History

/-!
# Operation limits

The steps of a parse do not know of its limit.  So a limit that the loop does not reach changes
nothing, and one that it reaches cuts the loop short: what has been parsed until then is kept, and
the rest of the text is an error.
-/

namespace IncrementalGlr

namespace ParseRun

/-- The loop ends after a number of steps if nothing stops it; it turns a run and a store into
others. -/
inductive EndsAfter (job : ParseJob) : Nat → ParseRun → Store → ParseRun → Store → Prop
  /-- No version is alive. -/
  | ended {run : ParseRun} {store : Store} (stuck : run.step? (m := StateM Store) job = none) :
    EndsAfter job 0 run store run store
  /-- A step is made. -/
  | step {count : Nat} {run last : ParseRun} {store after : Store} {step : StateM Store ParseRun}
      (stepped : run.step? job = some step)
      (later : EndsAfter job count (step store).1 (step store).2 last after) :
    EndsAfter job (count + 1) run store last after

variable {job : ParseJob} {count limit : Nat} {run last : ParseRun} {store after : Store}
  {deadline : Option Nat} {made : Nat}

/-- With a lower limit the loop is cut short, unless the time is over before. -/
theorem EndsAfter.runFor_of_lt (ends : EndsAfter job count run store last after)
    (early : ∀ due ∈ deadline, made + count ≤ due) (short : limit < count) :
    (runFor (m := StateM Store) job deadline made limit run store).1.2 =
      .cancelled .operationLimit := by
  induction ends generalizing limit made with
  | ended => exact absurd short (Nat.not_lt_zero limit)
  | @step count run last store after step stepped later induction =>
      cases limit with
      | zero =>
          unfold runFor
          rw [stepped]
          rfl
      | succ limit =>
          have soon : ParseOptions.isOver deadline made = false :=
            ParseOptions.isOver_eq_false fun due given =>
              Nat.lt_of_lt_of_le (Nat.lt_add_of_pos_right count.succ_pos) (early due given)
          rw [Nat.add_comm count, ← Nat.add_assoc] at early
          unfold runFor
          rw [stepped]
          dsimp only
          rw [if_neg (Bool.eq_false_iff.1 soon)]
          exact induction early (Nat.lt_of_succ_lt_succ short)

end ParseRun

namespace Parser

/-- What an earlier tree means for the parse of a text, and the store after this is known. -/
def considered (parser : Parser) (text : Text) (previous : Option SyntaxTree) (edits : List Edit) :
    Earlier × Store :=
  consider parser.grammar parser.options parser.last previous text edits parser.store.trim

/-- What the run of a parse starts from, if the earlier tree does not fit as it is. -/
def Earlier.cursor? : Earlier → Option (Option ReuseCursor)
  | .unchanged _ => none
  | .edited root => some (some (.ofRoot root))
  | .useless => some none

/-- Without a limit and a deadline the parse of a text ends after a number of steps of its loop, and
this is its output. -/
inductive FinishesAfter (parser : Parser) (text : Text) (previous : Option SyntaxTree)
    (edits : List Edit) : Nat → ParseOutput → Prop
  /-- The earlier tree fits as it is; there is no loop. -/
  | unchanged {tree : SyntaxTree}
      (fits : (parser.considered text previous edits).1 = .unchanged tree) :
    FinishesAfter parser text previous edits 0 (.ofTree tree text .complete .none)
  /-- The loop runs until no version is alive. -/
  | ended {reuse : Option ReuseCursor} {count : Nat} {last : ParseRun} {after : Store}
      (starts : Earlier.cursor? (parser.considered text previous edits).1 = some reuse)
      (ends : ParseRun.EndsAfter ⟨⟨parser.grammar, parser.external⟩, text⟩ count (.start reuse)
        (parser.considered text previous edits).2 last after) :
    FinishesAfter parser text previous edits count
      (.ofTree ⟨(last.result (m := StateM Store) ⟨⟨parser.grammar, parser.external⟩, text⟩ after).1,
        parser.grammar⟩ text .complete last.stats)

/-- The parser with another limit. -/
def withLimit (parser : Parser) (maxOperations : Option Nat) : Parser :=
  { parser with options := { parser.options with maxOperations } }

/-- The most steps that the loop of a parse may make. -/
def limit (parser : Parser) : Nat := parser.options.maxOperations.getD maxOperations

variable {parser : Parser} {text : Text} {previous : Option SyntaxTree} {edits : List Edit}
  {count : Nat} {output : ParseOutput}

/-- A parse that runs. -/
theorem parse_of_cursor {reuse : Option ReuseCursor}
    (starts : Earlier.cursor? (parser.considered text previous edits).1 = some reuse) :
    let job : ParseJob := ⟨⟨parser.grammar, parser.external⟩, text⟩
    let outcome := ParseRun.runFor (m := StateM Store) job parser.options.deadline 0 parser.limit
      (.start reuse) (parser.considered text previous edits).2
    (parser.parse text previous edits).1 =
      .ofTree ⟨(outcome.1.1.result (m := StateM Store) job outcome.2).1, parser.grammar⟩ text
        outcome.1.2 outcome.1.1.stats := by
  obtain ⟨grammar, store, external, options, last⟩ := parser
  unfold considered at starts ⊢
  unfold parse
  dsimp only at starts ⊢
  generalize consider grammar options last previous text edits store.trim = pair at starts
  obtain ⟨_ | _ | _, store⟩ := pair <;> cases starts <;> rfl

/-- The loop does not depend on the limit. -/
theorem FinishesAfter.withLimit (finishes : parser.FinishesAfter text previous edits count output)
    (maxOperations : Option Nat) :
    (parser.withLimit maxOperations).FinishesAfter text previous edits count output := by
  cases finishes with
  | unchanged fits => exact .unchanged fits
  | ended starts ends => exact .ended starts ends

/-- A parse that reaches its limit in time. -/
theorem FinishesAfter.status_of_lt (finishes : parser.FinishesAfter text previous edits count output)
    (unhurried : ∀ due ∈ parser.options.deadline, count ≤ due) (short : parser.limit < count) :
    (parser.parse text previous edits).1.status = .cancelled .operationLimit := by
  cases finishes with
  | unchanged fits => exact absurd short (Nat.not_lt_zero _)
  | ended starts ends =>
      rw [← Nat.zero_add count] at unhurried
      rw [parse_of_cursor starts]
      exact ends.runFor_of_lt unhurried short

end Parser

namespace History

variable {nextId : Nat} {parsers : List Parser} {trees : List SyntaxTree} {parser : Parser}

/-- Under any limit the tree of a parse spans the text. -/
theorem length_withLimit (history : History nextId parsers trees) (orderly : Orderly parsers trees)
    (listed : parser ∈ parsers) (text : Text) {previous : Option SyntaxTree}
    (earlier : ∀ tree ∈ previous, tree ∈ trees) (edits : List Edit) (maxOperations : Option Nat) :
    (((parser.continueFrom nextId).withLimit maxOperations).parse text previous
      edits).1.tree.length = text.size :=
  have configured := history.configure { parser.options with maxOperations } listed
  (configured.whole_of_parse List.mem_cons_self (orderly.staysInside listed text)
    (history.whole orderly) earlier edits).2

end History

/-- The trees that parsers return and their edits can all be parsed with: a parse that its limit cuts
short still gives a tree that spans the text. -/
theorem History.ByParsers.limited_spans {nextId : Nat} {parsers : List Parser}
    {trees : List SyntaxTree} (byParsers : ByParsers nextId parsers trees) {parser : Parser}
    (listed : parser ∈ parsers) {text : Text} {previous : Option SyntaxTree}
    (earlier : ∀ tree ∈ previous, tree ∈ trees) {edits : List Edit} {count : Nat}
    {output : ParseOutput}
    (finishes : (parser.continueFrom nextId).FinishesAfter text previous edits count output)
    (unhurried : ∀ due ∈ parser.options.deadline, count ≤ due) {maxOperations : Option Nat} :
    let limiting := (parser.continueFrom nextId).withLimit maxOperations
    let limited := (limiting.parse text previous edits).1
    limiting.limit < count →
      limited.status = .cancelled .operationLimit ∧ limited.tree.length = text.size := by
  intro limiting limited short
  obtain ⟨history, orderly⟩ := byParsers.orderly
  exact ⟨(finishes.withLimit maxOperations).status_of_lt unhurried short,
    history.length_withLimit orderly listed text earlier edits maxOperations⟩

end IncrementalGlr
