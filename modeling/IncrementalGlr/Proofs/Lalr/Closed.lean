import IncrementalGlr.Proofs.Lalr.Closure
import IncrementalGlr.Proofs.Lalr.First

/-!
# Closures are closed

The computation of a closure ends when nothing changes, and then every production of a symbol that
some item calls for is in it, with all terminals that may follow.
-/

namespace IncrementalGlr

namespace Lalr

/-- Whether what follows one item also follows another one. -/
structure Lookahead.Within (small large : Lookahead) : Prop where
  /-- The terminals. -/
  symbols : ∀ symbol, small.symbols.contains symbol = true → large.symbols.contains symbol = true
  /-- What follows the item from which a closure started. -/
  inherits : small.inherits = true → large.inherits = true

namespace Lookahead

variable {string : SymbolSet × Bool} {whole : Lookahead}

theorem contains_before {terminal : Symbol} :
    (before string whole).symbols.contains terminal = true ↔
      string.1.contains terminal = true ∨
        string.2 = true ∧ whole.symbols.contains terminal = true := by
  unfold before
  split
  · next empty => simp [SymbolSet.contains_union, empty]
  · next solid => simp [solid]

theorem inherits_before :
    (before string whole).inherits = true ↔ string.2 = true ∧ whole.inherits = true := by
  unfold before
  split
  · next empty => simp [empty]
  · next solid => simp [solid]

end Lookahead

namespace Context

/-- Whether a closure has a row for each symbol, and only terminals in them. -/
structure Sized (symbols terminals : Nat) (closure : Closure) : Prop where
  /-- There is a row for each symbol. -/
  size : closure.size = symbols
  /-- Only terminals follow anything. -/
  below : ∀ (index : Nat) lookahead, closure[index]? = some (some lookahead) →
    lookahead.symbols.Below terminals

/-- The facts that a closure states of a symbol: that a terminal follows it and, in the two columns
after the last terminal, that it inherits and that its productions are added. -/
def States (terminals : Nat) (closure : Closure) (fact : Nat × Nat) : Prop :=
  ∃ lookahead, closure[fact.1]? = some (some lookahead) ∧
    (lookahead.symbols.mask.testBit fact.2 = true ∨
      fact.2 = terminals ∧ lookahead.inherits = true ∨ fact.2 = terminals + 1)

/-- Whether a closure adds the productions of a symbol with at least what is given. -/
def Calls (closure : Closure) (symbol : Symbol) (lookahead : Lookahead) : Prop :=
  ∃ known, closure[symbol.index]? = some (some known) ∧ lookahead.Within known

section Facts

variable {symbols terminals : Nat} {closure : Closure}

theorem states_follows {index terminal : Nat} (inside : terminal < terminals) :
    States terminals closure (index, terminal) ↔
      ∃ lookahead, closure[index]? = some (some lookahead) ∧
        lookahead.symbols.mask.testBit terminal = true := by
  refine exists_congr fun lookahead => and_congr_right fun _ => or_iff_left ?_
  dsimp only
  omega

theorem states_inherits (sized : Sized symbols terminals closure) {index : Nat} :
    States terminals closure (index, terminals) ↔
      ∃ lookahead, closure[index]? = some (some lookahead) ∧ lookahead.inherits = true := by
  refine exists_congr fun lookahead => and_congr_right fun found => ?_
  have below := sized.below index lookahead found terminals
  dsimp only
  simp only [true_and]
  refine (or_iff_right fun member => Nat.lt_irrefl _ (below member)).trans (or_iff_left ?_)
  omega

theorem states_adds {index : Nat} :
    States terminals closure (index, terminals + 1) ↔ Adds closure index := by
  refine exists_congr fun lookahead => and_iff_left (.inr (.inr rfl))

theorem described_closure (symbols terminals : Nat) :
    Described (Sized symbols terminals) (States terminals)
      (Finset.range symbols ×ˢ Finset.range (terminals + 2)) := by
  constructor
  case ext =>
    intro left right leftSized rightSized same
    refine Array.ext (leftSized.size.trans rightSized.size.symm) fun index inside other => ?_
    have leftFound := Array.getElem?_eq_getElem inside
    have rightFound := Array.getElem?_eq_getElem other
    generalize left[index] = leftRow at leftFound ⊢
    generalize right[index] = rightRow at rightFound ⊢
    have adds := states_adds.symm.trans ((same (index, _)).trans states_adds)
    have inherits := (states_inherits leftSized).symm.trans ((same (index, _)).trans
      (states_inherits rightSized))
    simp only [Adds, leftFound, rightFound, Option.some.injEq] at adds inherits
    cases leftRow with
    | none =>
        cases rightRow with
        | none => rfl
        | some lookahead => simp at adds
    | some first =>
        cases rightRow with
        | none => simp at adds
        | some second =>
            simp only [Option.some.injEq, exists_eq_left'] at inherits
            have follows : first.symbols = second.symbols := by
              refine (leftSized.below index first leftFound).ext
                (rightSized.below index second rightFound) fun terminal less => ?_
              have both := (states_follows less).symm.trans ((same (index, terminal)).trans
                (states_follows less))
              simp only [leftFound, rightFound, Option.some.injEq, exists_eq_left'] at both
              exact Bool.eq_iff_iff.2 both
            have owns : first.inherits = second.inherits := Bool.eq_iff_iff.2 inherits
            cases first
            cases second
            cases follows
            cases owns
            rfl
  case inside =>
    rintro closure sized ⟨index, column⟩ ⟨lookahead, found, known⟩
    have row := (Array.getElem?_eq_some_iff.1 found).1
    have below := sized.below index lookahead found column
    have size := sized.size
    simp only [Finset.mem_product, Finset.mem_range]
    dsimp only at known
    have bound : column < terminals + 2 := by
      rcases known with member | ⟨same, -⟩ | same
      · have := below member
        omega
      · omega
      · omega
    omega

theorem within_merge_left (known lookahead : Lookahead) : known.Within (known.merge lookahead) :=
  ⟨fun _ member => SymbolSet.contains_union.2 (.inl member),
    fun inherits => Bool.or_eq_true_iff.2 (.inl inherits)⟩

theorem within_merge_right (known lookahead : Lookahead) :
    lookahead.Within (known.merge lookahead) :=
  ⟨fun _ member => SymbolSet.contains_union.2 (.inr member),
    fun inherits => Bool.or_eq_true_iff.2 (.inr inherits)⟩

theorem inflates_addSymbol (symbol : Symbol) {lookahead : Lookahead}
    (below : lookahead.symbols.Below terminals) :
    Inflates (Sized symbols terminals) (States terminals)
      fun closure => addSymbol closure symbol lookahead := by
  constructor
  case keeps =>
    intro closure sized
    refine ⟨(size_addSymbol ..).trans sized.size, fun index found here => ?_⟩
    rw [addSymbol, Array.getElem?_modify] at here
    split at here
    · obtain ⟨row, known, same⟩ := Option.map_eq_some_iff.1 here
      cases row with
      | none =>
          cases same
          exact below
      | some old =>
          cases same
          exact (sized.below index old known).union below
    · exact sized.below index found here
  case grows =>
    rintro closure sized ⟨index, column⟩ ⟨known, found, fact⟩
    unfold States
    rw [addSymbol, Array.getElem?_modify, found]
    split
    · refine ⟨known.merge lookahead, rfl, ?_⟩
      rcases fact with member | ⟨last, inherits⟩ | last
      · refine .inl ?_
        rw [Lookahead.merge, SymbolSet.union, Nat.testBit_or, member, Bool.true_or]
      · exact .inr (.inl ⟨last, (within_merge_left known lookahead).inherits inherits⟩)
      · exact .inr (.inr last)
    · exact ⟨known, rfl, fact⟩

theorem calls_addSymbol {symbol : Symbol} (inside : symbol.index < closure.size)
    (lookahead : Lookahead) : Calls (addSymbol closure symbol lookahead) symbol lookahead := by
  unfold Calls
  rw [addSymbol, Array.getElem?_modify, if_pos rfl, Array.getElem?_eq_getElem inside]
  cases closure[symbol.index] with
  | none => exact ⟨lookahead, rfl, fun _ => id, id⟩
  | some known => exact ⟨known.merge lookahead, rfl, within_merge_right known lookahead⟩

/-- What a closure calls for it still calls for after steps that keep its facts. -/
theorem Calls.grows (sized : Sized symbols terminals closure) {step : Closure → Closure}
    (inflates : Inflates (Sized symbols terminals) (States terminals) step) {symbol : Symbol}
    {lookahead : Lookahead} (calls : Calls closure symbol lookahead) :
    Calls (step closure) symbol lookahead := by
  have kept := inflates.keeps sized
  have grown := inflates.grows sized
  obtain ⟨known, found, within⟩ := calls
  obtain ⟨larger, largerFound⟩ := states_adds.1 (grown _ (states_adds.2 ⟨known, found⟩))
  refine ⟨larger, largerFound, fun terminal member => ?_, fun inherits => ?_⟩
  · have bit := within.symbols terminal member
    obtain ⟨other, otherFound, otherBit⟩ :=
      (states_follows (sized.below _ _ found _ bit)).1 (grown (symbol.index, terminal.index)
        ((states_follows (sized.below _ _ found _ bit)).2 ⟨known, found, bit⟩))
    rw [largerFound] at otherFound
    cases otherFound
    exact otherBit
  · obtain ⟨other, otherFound, otherInherits⟩ := (states_inherits kept).1 (grown _
      ((states_inherits sized).2 ⟨known, found, within.inherits inherits⟩))
    rw [largerFound] at otherFound
    cases otherFound
    exact otherInherits

end Facts

/-- Whether a closure adds all that its kernel and its own productions call for. -/
structure Closed (context : Context) (kernel : List (Item × Lookahead)) (closure : Closure) :
    Prop where
  /-- What the items of the kernel call for. -/
  seeds : ∀ seed ∈ kernel, ∀ symbol rest,
    (context.rhs seed.1.production).drop seed.1.dot = symbol :: rest →
      context.grammar.isTerminal symbol = false →
        symbol.index < context.grammar.symbols.length →
          Calls closure symbol (.before (context.sets.ofString rest) seed.2)
  /-- What its productions call for. -/
  leads : ∀ (index : Nat) lookahead, closure[index]? = some (some lookahead) →
    ∀ lead ∈ (context.leads[index]?).getD [],
      lead.symbol.index < context.grammar.symbols.length →
        Calls closure lead.symbol (.before lead.rest lookahead)

theorem below_before {terminals : Nat} {string : SymbolSet × Bool} {whole : Lookahead}
    (begins : string.1.Below terminals) (below : whole.symbols.Below terminals) :
    (Lookahead.before string whole).symbols.Below terminals := by
  unfold Lookahead.before
  split
  · exact begins.union below
  · exact begins

theorem FirstSets.below_ofString {symbols terminals : Nat} {sets : FirstSets}
    (sized : sets.Sized symbols terminals) (string : List Symbol) :
    (sets.ofString string).1.Below terminals := by
  induction string with
  | nil => exact SymbolSet.below_empty
  | cons symbol rest induction =>
      rw [FirstSets.ofString]
      split
      · exact (FirstSets.below_firstOf sized symbol).union induction
      · exact FirstSets.below_firstOf sized symbol

/-- Whether only terminals begin what the tables of a context speak of. -/
structure Bounds (context : Context) : Prop where
  /-- What begins strings. -/
  string : ∀ string, (context.sets.ofString string).1.Below context.grammar.terminalCount
  /-- What begins the rests of leads. -/
  leads : ∀ (index : Nat), ∀ lead ∈ (context.leads[index]?).getD [],
    lead.rest.1.Below context.grammar.terminalCount

section Steps

variable {context : Context} {kernel : List (Item × Lookahead)} {closure : Closure}

theorem inflates_addSeed (bounds : context.Bounds) {seed : Item × Lookahead}
    (below : seed.2.symbols.Below context.grammar.terminalCount) :
    Inflates (Sized context.grammar.symbols.length context.grammar.terminalCount)
      (States context.grammar.terminalCount) fun closure => context.addSeed closure seed := by
  unfold addSeed
  split
  · split
    · exact .id
    · exact inflates_addSymbol _ (below_before (bounds.string _) below)
  · exact .id

theorem inflates_addLeads (bounds : context.Bounds) (index : Nat) :
    Inflates (Sized context.grammar.symbols.length context.grammar.terminalCount)
      (States context.grammar.terminalCount) fun closure => context.addLeads closure index := by
  have each : ∀ lookahead : Lookahead, lookahead.symbols.Below context.grammar.terminalCount →
      Inflates (Sized context.grammar.symbols.length context.grammar.terminalCount)
        (States context.grammar.terminalCount) fun closure =>
          ((context.leads[index]?).getD []).foldl (fun closure lead =>
            addSymbol closure lead.symbol (.before lead.rest lookahead)) closure :=
    fun lookahead below => .foldl fun lead member =>
      inflates_addSymbol lead.symbol (below_before (bounds.leads index lead member) below)
  constructor
  case keeps =>
    intro closure sized
    unfold addLeads
    split
    · next lookahead found =>
        exact (each lookahead (sized.below _ _ (Option.join_eq_some_iff.1 found))).keeps sized
    · exact sized
  case grows =>
    intro closure sized
    unfold addLeads
    split
    · next lookahead found =>
        exact (each lookahead (sized.below _ _ (Option.join_eq_some_iff.1 found))).grows sized
    · exact fun _ held => held

theorem inflates_closureStep (bounds : context.Bounds) :
    Inflates (Sized context.grammar.symbols.length context.grammar.terminalCount)
      (States context.grammar.terminalCount) context.closureStep :=
  .foldl fun index _ => inflates_addLeads bounds index

/-- The closure that the items of a kernel start. -/
theorem sized_start (context : Context) :
    Sized context.grammar.symbols.length context.grammar.terminalCount
      (Array.replicate context.grammar.symbols.length none) := by
  refine ⟨Array.size_replicate, fun index lookahead found => ?_⟩
  rw [Array.getElem?_replicate] at found
  split at found <;> cases found

/-- The closure of a kernel is closed. -/
theorem closed_closure (bounds : context.Bounds)
    (below : ∀ seed ∈ kernel, seed.2.symbols.Below context.grammar.terminalCount) :
    Sized context.grammar.symbols.length context.grammar.terminalCount (context.closure kernel) ∧
      context.Closed kernel (context.closure kernel) := by
  have seeding : ∀ seeds : List (Item × Lookahead), (∀ seed ∈ seeds, seed ∈ kernel) →
      Inflates (Sized context.grammar.symbols.length context.grammar.terminalCount)
        (States context.grammar.terminalCount) fun closure => seeds.foldl context.addSeed closure :=
    fun seeds members => .foldl fun seed member =>
      inflates_addSeed bounds (below seed (members seed member))
  have start := (seeding kernel fun _ => id).keeps (sized_start context)
  have inflates := inflates_closureStep bounds
  have sized := (inflates.untilStable (context.grammar.symbols.length *
    (context.grammar.terminalCount + 2) + 1)).keeps start
  have fixed := inflates.iterateUntilStable_fixed (described_closure _ _) start
    (Nat.lt_succ_of_le (by simp) : _ < context.grammar.symbols.length *
      (context.grammar.terminalCount + 2) + 1)
  change Sized _ _ (context.closure kernel) at sized
  change context.closureStep (context.closure kernel) = context.closure kernel at fixed
  refine ⟨sized, fun seed member symbol rest spelled nonterminal inside => ?_,
    fun index lookahead found lead member inside => ?_⟩
  · -- what is called for when a seed is added stays through the rest of the seeds and all steps
    obtain ⟨before, after, rfl⟩ := List.append_of_mem member
    have first := (seeding before fun other => List.mem_append_left _).keeps (sized_start context)
    have calls : Calls (context.addSeed (before.foldl context.addSeed
        (Array.replicate context.grammar.symbols.length none)) seed) symbol
          (.before (context.sets.ofString rest) seed.2) := by
      rw [addSeed, spelled]
      dsimp only
      rw [if_neg (by rw [nonterminal]; exact Bool.false_ne_true)]
      exact calls_addSymbol (inside.trans_eq first.size.symm) _
    have added := (inflates_addSeed bounds (below seed member)).keeps first
    have rest := calls.grows added (seeding after fun other later =>
      List.mem_append_right _ (List.mem_cons_of_mem seed later))
    rw [← List.foldl_cons, ← List.foldl_append] at rest
    exact rest.grows start (inflates.untilStable _)
  · have below := sized.below index lookahead found
    have known : index ∈ List.range context.grammar.symbols.length := by
      rw [List.mem_range, ← sized.size]
      exact (Array.getElem?_eq_some_iff.1 found).1
    have same := Inflates.foldl_fixed (fun index _ => inflates_addLeads bounds index)
      (described_closure _ _) sized fixed index known
    rw [addLeads, found] at same
    have one := Inflates.foldl_fixed (fun lead member =>
      inflates_addSymbol lead.symbol (below_before (bounds.leads index lead member) below))
      (described_closure _ _) sized same lead member
    rw [← one]
    exact calls_addSymbol (inside.trans_eq sized.size.symm) _

end Steps

section Items

variable {plain : PlainGrammar} {kernel : List (Item × Lookahead)}

theorem bounds_ofGrammar (numbered : plain.Numbered) : (ofGrammar plain).Bounds := by
  have string := FirstSets.below_ofString (FirstSets.sized_ofGrammar numbered)
  refine ⟨string, fun index lead member => ?_⟩
  obtain ⟨-, production, source, -, -, made⟩ := mem_leads member
  obtain ⟨rest, -, begins⟩ := lead?_eq_some made
  exact begins ▸ string rest

/-- The nonterminal that stands first in a production is a lead. -/
theorem lead_listed (numbered : plain.Numbered) {source : PlainProduction}
    (member : source ∈ plain.productions) {symbol : Symbol} {rest : List Symbol}
    (spelled : source.rhs = symbol :: rest) (nonterminal : plain.isTerminal symbol = false) :
    ⟨symbol, (FirstSets.ofGrammar plain).ofString rest⟩ ∈
      ((ofGrammar plain).leads[source.lhs.index]?).getD [] := by
  have table : (ofGrammar plain).leads = plain.productions.foldl
      (fun table production => table.modify production.lhs.index
        (· ++ (lead? plain (FirstSets.ofGrammar plain) production.rhs).toList))
      (Array.replicate plain.symbols.length []) := rfl
  rw [table, mem_foldl_modify, Array.size_replicate]
  refine .inr ⟨numbered.exist source member, source, member, rfl, ?_⟩
  rw [spelled, lead?, nonterminal]
  exact List.mem_singleton_self _

theorem entry_of_calls {symbol : Symbol} {lookahead : Lookahead}
    (calls : Calls ((ofGrammar plain).closure kernel) symbol lookahead) {production : Nat}
    {source : PlainProduction} (found : plain.productions[production]? = some source)
    (lhs : source.lhs = symbol) (numbered : plain.Numbered) :
    ∃ larger, (⟨production, 0⟩, larger) ∈ (ofGrammar plain).closureItems kernel ∧
      lookahead.Within larger := by
  obtain ⟨known, row, within⟩ := calls
  refine ⟨known, entry_closureItems.2 (.inr ⟨symbol.index, row, rfl, ?_⟩), within⟩
  exact mem_byLhs.2 ⟨lhs ▸ numbered.exist source (List.mem_of_getElem? found), source, found,
    congrArg Symbol.index lhs⟩

/-- A closure has all productions of a symbol that one of its items calls for, with all that may
follow the symbol there. -/
theorem exists_entry_of_next (numbered : plain.Numbered)
    (below : ∀ seed ∈ kernel, seed.2.symbols.Below plain.terminalCount) {item : Item}
    {lookahead : Lookahead} (member : (item, lookahead) ∈ (ofGrammar plain).closureItems kernel)
    {symbol : Symbol} {rest : List Symbol}
    (spelled : ((ofGrammar plain).rhs item.production).drop item.dot = symbol :: rest)
    {production : Nat} {source : PlainProduction}
    (found : plain.productions[production]? = some source) (lhs : source.lhs = symbol) :
    ∃ larger, (⟨production, 0⟩, larger) ∈ (ofGrammar plain).closureItems kernel ∧
      (Lookahead.before ((FirstSets.ofGrammar plain).ofString rest) lookahead).Within larger := by
  obtain ⟨-, closed⟩ := closed_closure (bounds_ofGrammar numbered) below
  have listed := List.mem_of_getElem? found
  have nonterminal : plain.isTerminal symbol = false := lhs ▸ numbered.defines source listed
  have inside : symbol.index < plain.symbols.length := lhs ▸ numbered.exist source listed
  refine entry_of_calls ?_ found lhs numbered
  rcases entry_closureItems.1 member with seed | ⟨index, row, dot, productionListed⟩
  · exact closed.seeds _ seed symbol rest spelled nonterminal inside
  · obtain ⟨-, other, otherFound, rfl⟩ := mem_byLhs.1 productionListed
    rw [rhs_ofGrammar otherFound, dot, List.drop_zero] at spelled
    exact closed.leads _ lookahead row _
      (lead_listed numbered (List.mem_of_getElem? otherFound) spelled nonterminal) inside

end Items

end Context

/-- Whether what follows one item follows another one, once it is known what follows the item from
which the closure of the first one started. -/
structure Lookahead.Resolves (own : SymbolSet) (small large : Lookahead) : Prop where
  /-- The terminals. -/
  symbols : ∀ symbol, small.symbols.contains symbol = true → large.symbols.contains symbol = true
  /-- What is known to follow. -/
  inherits : small.inherits = true →
    ∀ symbol, own.contains symbol = true → large.symbols.contains symbol = true

variable {own : SymbolSet}

theorem Lookahead.Resolves.before {small large : Lookahead} (resolves : small.Resolves own large)
    (string : SymbolSet × Bool) :
    (Lookahead.before string small).Resolves own (.before string large) := by
  refine ⟨fun symbol member => ?_, fun inherits symbol member => ?_⟩
  · exact contains_before.2 ((contains_before.1 member).imp_right
      fun behind => ⟨behind.1, resolves.symbols symbol behind.2⟩)
  · obtain ⟨empty, taken⟩ := inherits_before.1 inherits
    exact contains_before.2 (.inr ⟨empty, resolves.inherits taken symbol member⟩)

theorem Lookahead.Resolves.trans {small middle large : Lookahead}
    (resolves : small.Resolves own middle) (within : middle.Within large) :
    small.Resolves own large :=
  ⟨fun symbol member => within.symbols symbol (resolves.symbols symbol member),
    fun inherits symbol member => within.symbols symbol (resolves.inherits inherits symbol member)⟩

namespace Context

section Resolved

/-- Whether each row of a closure is resolved by that of another one. -/
def Resolved (own : SymbolSet) (left right : Closure) : Prop :=
  ∀ (index : Nat) lookahead, left[index]? = some (some lookahead) →
    ∃ larger, right[index]? = some (some larger) ∧ lookahead.Resolves own larger

variable {left right : Closure}

theorem Resolved.addSymbol (resolved : Resolved own left right) {symbol : Symbol}
    {lookahead : Lookahead}
    (calls : symbol.index < left.size →
      ∃ larger, right[symbol.index]? = some (some larger) ∧ lookahead.Resolves own larger) :
    Resolved own (addSymbol left symbol lookahead) right := by
  intro index found here
  rw [Context.addSymbol, Array.getElem?_modify] at here
  split at here
  · next same =>
      subst same
      obtain ⟨row, known, changed⟩ := Option.map_eq_some_iff.1 here
      obtain ⟨larger, largerFound, new⟩ := calls (Array.getElem?_eq_some_iff.1 known).1
      cases row with
      | none =>
          cases changed
          exact ⟨larger, largerFound, new⟩
      | some before =>
          cases changed
          obtain ⟨_, sameFound, old⟩ := resolved _ before known
          cases largerFound.symm.trans sameFound
          refine ⟨larger, largerFound, fun terminal member => ?_, fun inherits => ?_⟩
          · exact (SymbolSet.contains_union.1 member).elim (old.symbols terminal)
              (new.symbols terminal)
          · exact (Bool.or_eq_true_iff.1 inherits).elim old.inherits new.inherits
  · exact resolved index found here

variable {kernel : List (Item × Lookahead)}

theorem Resolved.addLeads {context : Context} (resolved : Resolved own left right)
    (sized : left.size = context.grammar.symbols.length) (closed : context.Closed kernel right)
    (index : Nat) : Resolved own (context.addLeads left index) right := by
  unfold Context.addLeads
  split
  · next lookahead found =>
      obtain ⟨larger, largerFound, resolves⟩ :=
        resolved index lookahead (Option.join_eq_some_iff.1 found)
      have kept : ∀ leads : List Lead,
          (∀ lead ∈ leads, lead ∈ (context.leads[index]?).getD []) →
          ∀ closure : Closure, closure.size = context.grammar.symbols.length →
            Resolved own closure right →
            Resolved own (leads.foldl (fun closure lead =>
              Context.addSymbol closure lead.symbol (.before lead.rest lookahead)) closure) right := by
        intro leads
        induction leads with
        | nil => exact fun _ _ _ => id
        | cons lead rest induction =>
            intro members closure size known
            refine induction (fun other later => members other (List.mem_cons_of_mem lead later)) _
              ((size_addSymbol ..).trans size) (known.addSymbol fun inside => ?_)
            obtain ⟨called, calledFound, within⟩ := closed.leads index larger largerFound lead
              (members lead List.mem_cons_self) (size ▸ inside)
            exact ⟨called, calledFound, (resolves.before lead.rest).trans within⟩
      exact kept _ (fun _ => id) left sized resolved
  · exact resolved

/-- The closure of one item that inherits is resolved by every closure in which the item has what is
known to follow it. -/
theorem resolved_closure {context : Context} {item : Item}
    (closed : context.Closed kernel right) (member : (item, ⟨own, false⟩) ∈ kernel) :
    Resolved own (context.closure [(item, ⟨.empty, true⟩)]) right := by
  refine (@closure_preserves context (fun closure => closure.size = context.grammar.symbols.length ∧
    Resolved own closure right) _ ⟨Array.size_replicate, ?_⟩ ?_ ?_).2
  · intro index lookahead found
    rw [Array.getElem?_replicate] at found
    split at found <;> cases found
  · intro closure seed single known
    obtain rfl := List.mem_singleton.1 single
    refine ⟨(size_addSeed ..).trans known.1, ?_⟩
    unfold addSeed
    split
    · next symbol rest spelled =>
        split
        · exact known.2
        · next nonterminal =>
            refine known.2.addSymbol fun inside => ?_
            rw [known.1] at inside
            obtain ⟨larger, found, within⟩ := closed.seeds _ member symbol rest spelled
              (Bool.eq_false_iff.2 nonterminal) inside
            have first : (⟨.empty, true⟩ : Lookahead).Resolves own ⟨own, false⟩ :=
              ⟨fun symbol never => by simp at never, fun _ _ => id⟩
            exact ⟨larger, found, (first.before _).trans within⟩
    · exact known.2
  · exact fun closure index known =>
      ⟨(size_addLeads closure index).trans known.1, known.2.addLeads known.1 closed index⟩

/-- What follows an item in the closure of one item that inherits also follows it in the closure of a
kernel in which that item has what is known to follow it. -/
theorem exists_entry_of_resolved {plain : PlainGrammar} (numbered : plain.Numbered)
    (below : ∀ seed ∈ kernel, seed.2.symbols.Below plain.terminalCount) {item child : Item}
    (member : (item, ⟨own, false⟩) ∈ kernel) {lookahead : Lookahead}
    (listed : (child, lookahead) ∈ (ofGrammar plain).closureItems [(item, ⟨.empty, true⟩)]) :
    ∃ larger, (child, larger) ∈ (ofGrammar plain).closureItems kernel ∧
      lookahead.Resolves own larger := by
  obtain ⟨-, closed⟩ := closed_closure (bounds_ofGrammar numbered) below
  rcases entry_closureItems.1 listed with seed | ⟨index, row, dot, production⟩
  · cases List.mem_singleton.1 seed
    exact ⟨⟨own, false⟩, entry_closureItems.2 (.inl member),
      fun symbol never => by simp at never, fun _ _ => id⟩
  · obtain ⟨larger, found, resolves⟩ := resolved_closure closed member index lookahead row
    exact ⟨larger, entry_closureItems.2 (.inr ⟨index, found, dot, production⟩), resolves⟩

end Resolved

end Context

end Lalr

end IncrementalGlr
