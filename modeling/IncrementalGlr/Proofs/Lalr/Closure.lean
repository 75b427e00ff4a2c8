import IncrementalGlr.Lalr.Item
import IncrementalGlr.Proofs.FixedPoint
import IncrementalGlr.Proofs.Table.Lookup

/-!
# Items of closures

Which items a closure has depends on the items of its kernel only, not on the terminals that follow
them.  Every item that a closure adds is called for by another item of it, and is followed only by
what follows it there.
-/

namespace IncrementalGlr

namespace Lalr

namespace Context

variable {context : Context}

theorem next?_of_drop {item : Item} {symbol : Symbol} {rest : List Symbol}
    (spelled : (context.rhs item.production).drop item.dot = symbol :: rest) :
    context.next? item = some symbol := by
  rw [next?, ← List.head?_drop, spelled, List.head?_cons]

/-- Whether a closure adds the productions of the symbol of an index. -/
def Adds (closure : Closure) (index : Nat) : Prop :=
  ∃ lookahead, closure[index]? = some (some lookahead)

/-- Whether an item belongs to a kernel or to the productions that a closure adds. -/
def Includes (context : Context) (kernel : List Item) (closure : Closure) (item : Item) : Prop :=
  item ∈ kernel ∨ ∃ index, Adds closure index ∧ item.dot = 0 ∧
    item.production ∈ (context.byLhs[index]?).getD []

theorem adds_addSymbol {closure : Closure} {symbol : Symbol} {lookahead : Lookahead} {index : Nat} :
    Adds (addSymbol closure symbol lookahead) index ↔
      Adds closure index ∨ index = symbol.index ∧ index < closure.size := by
  simp only [Adds, addSymbol, Array.getElem?_modify]
  by_cases here : symbol.index = index
  · subst here
    simp only [if_true, true_and]
    cases found : closure[symbol.index]? with
    | none =>
        have outside := Array.getElem?_eq_none_iff.1 found
        simp [outside]
    | some known =>
        have inside := (Array.getElem?_eq_some_iff.1 found).1
        cases known <;> simp [inside]
  · simp [here, Ne.symm here]

@[simp]
theorem size_addSymbol (closure : Closure) (symbol : Symbol) (lookahead : Lookahead) :
    (addSymbol closure symbol lookahead).size = closure.size :=
  Array.size_modify ..

/-- Whether two closures add the productions of the same symbols. -/
structure Alike (left right : Closure) : Prop where
  /-- They are for grammars of one size. -/
  size : left.size = right.size
  /-- They add the same productions. -/
  adds (index : Nat) : Adds left index ↔ Adds right index

variable {left right : Closure}

theorem Alike.addSymbol (alike : Alike left right) (symbol : Symbol)
    (leftLookahead rightLookahead : Lookahead) :
    Alike (addSymbol left symbol leftLookahead) (addSymbol right symbol rightLookahead) := by
  refine ⟨by simpa using alike.size, fun index => ?_⟩
  rw [adds_addSymbol, adds_addSymbol, alike.adds, alike.size]

theorem Alike.addSeed (alike : Alike left right) (item : Item)
    (leftLookahead rightLookahead : Lookahead) :
    Alike (context.addSeed left (item, leftLookahead))
      (context.addSeed right (item, rightLookahead)) := by
  unfold Context.addSeed
  dsimp only
  split
  · split
    · exact alike
    · exact alike.addSymbol _ _ _
  · exact alike

theorem join_eq_some_iff_adds {closure : Closure} {index : Nat} :
    (∃ lookahead, (closure[index]?).join = some lookahead) ↔ Adds closure index := by
  simp only [Adds, Option.join_eq_some_iff]

theorem Alike.addLeads (alike : Alike left right) (index : Nat) :
    Alike (context.addLeads left index) (context.addLeads right index) := by
  have same := (join_eq_some_iff_adds.trans (alike.adds index)).trans join_eq_some_iff_adds.symm
  unfold Context.addLeads
  cases leftFound : (left[index]?).join with
  | none =>
      cases rightFound : (right[index]?).join with
      | none => exact alike
      | some lookahead =>
          rw [leftFound, rightFound] at same
          obtain ⟨_, never⟩ := same.2 ⟨lookahead, rfl⟩
          cases never
  | some leftLookahead =>
      cases rightFound : (right[index]?).join with
      | none =>
          rw [leftFound, rightFound] at same
          obtain ⟨_, never⟩ := same.1 ⟨leftLookahead, rfl⟩
          cases never
      | some rightLookahead =>
          dsimp only
          generalize (context.leads[index]?).getD [] = leads
          clear same leftFound rightFound
          induction leads generalizing left right with
          | nil => exact alike
          | cons lead rest induction =>
              exact induction (alike.addSymbol lead.symbol (.before lead.rest leftLookahead)
                (.before lead.rest rightLookahead))

theorem Alike.closureStep (alike : Alike left right) :
    Alike (context.closureStep left) (context.closureStep right) := by
  unfold Context.closureStep
  generalize List.range context.grammar.symbols.length = indexes
  induction indexes generalizing left right with
  | nil => exact alike
  | cons index rest induction => exact induction (alike.addLeads index)

theorem Alike.iterate (alike : Alike left right) (count : Nat) :
    Alike (context.closureStep^[count] left) (context.closureStep^[count] right) := by
  induction count generalizing left right with
  | zero => exact alike
  | succ count induction => exact induction alike.closureStep

theorem Alike.addSeeds (alike : Alike left right) {first second : List (Item × Lookahead)}
    (items : first.map Prod.fst = second.map Prod.fst) :
    Alike (first.foldl context.addSeed left) (second.foldl context.addSeed right) := by
  induction first generalizing second left right with
  | nil =>
      obtain rfl := List.map_eq_nil_iff.1 items.symm
      exact alike
  | cons seed rest induction =>
      obtain ⟨⟨_, lookahead⟩, others, rfl, rfl, same⟩ := List.map_eq_cons_iff.1 items.symm
      exact induction (alike.addSeed seed.1 seed.2 lookahead) same.symm

/-- What a closure adds does not depend on the terminals that follow the items of its kernel. -/
theorem alike_closure {first second : List (Item × Lookahead)}
    (items : first.map Prod.fst = second.map Prod.fst) :
    Alike (context.closure first) (context.closure second) := by
  have empty : Alike (Array.replicate context.grammar.symbols.length none)
      (Array.replicate context.grammar.symbols.length none) := ⟨rfl, fun _ => Iff.rfl⟩
  unfold closure
  dsimp only
  rw [iterateUntilStable_eq, iterateUntilStable_eq]
  exact (empty.addSeeds items).iterate _

@[simp]
theorem size_addSeed (closure : Closure) (seed : Item × Lookahead) :
    (context.addSeed closure seed).size = closure.size := by
  unfold addSeed
  split
  · split
    · rfl
    · exact size_addSymbol ..
  · rfl

theorem size_foldl {α : Type} {add : Closure → α → Closure}
    (keeps : ∀ closure value, (add closure value).size = closure.size) (closure : Closure)
    (values : List α) : (values.foldl add closure).size = closure.size := by
  induction values generalizing closure with
  | nil => rfl
  | cons value rest induction => rw [List.foldl_cons, induction, keeps]

@[simp]
theorem size_addLeads (closure : Closure) (index : Nat) :
    (context.addLeads closure index).size = closure.size := by
  unfold addLeads
  split
  · exact size_foldl (fun closure lead => size_addSymbol ..) closure _
  · rfl

/-- What holds of the empty closure and is kept whenever the productions of symbols are added holds
of every closure. -/
theorem closure_preserves {holds : Closure → Prop} {kernel : List (Item × Lookahead)}
    (empty : holds (Array.replicate context.grammar.symbols.length none))
    (seeded : ∀ closure, ∀ seed ∈ kernel, holds closure → holds (context.addSeed closure seed))
    (led : ∀ closure index, holds closure → holds (context.addLeads closure index)) :
    holds (context.closure kernel) := by
  unfold closure
  dsimp only
  rw [iterateUntilStable_eq]
  have start := List.foldlRecOn kernel context.addSeed empty
    fun closure held seed member => seeded closure seed member held
  have stepped : ∀ closure, holds closure → holds (context.closureStep closure) :=
    fun closure held => List.foldlRecOn _ _ held fun closure held index _ => led closure index held
  exact Function.Iterate.rec holds start stepped _

theorem size_closure (kernel : List (Item × Lookahead)) :
    (context.closure kernel).size = context.grammar.symbols.length := by
  refine @closure_preserves context (fun closure => closure.size = context.grammar.symbols.length)
    kernel Array.size_replicate ?_ ?_
  · exact fun closure seed _ same => (size_addSeed closure seed).trans same
  · exact fun closure index same => (size_addLeads closure index).trans same

/-- The items of the closure of a kernel. -/
def items (context : Context) (kernel : List Item) : List Item :=
  (context.closureItems (kernel.map fun item => (item, Lookahead.empty))).map Prod.fst

theorem mem_addedItems {closure : Closure} {index : Nat} {item : Item} :
    item ∈ (context.addedItems closure index).map Prod.fst ↔
      Adds closure index ∧ item.dot = 0 ∧ item.production ∈ (context.byLhs[index]?).getD [] := by
  unfold addedItems
  cases found : (closure[index]?).join with
  | none =>
      have never : ¬ Adds closure index := fun adds => by
        obtain ⟨_, some⟩ := join_eq_some_iff_adds.2 adds
        rw [found] at some
        cases some
      simp [never]
  | some lookahead =>
      have adds : Adds closure index := join_eq_some_iff_adds.1 ⟨lookahead, found⟩
      obtain ⟨production, dot⟩ := item
      simp only [List.map_map, List.mem_map, Function.comp_apply, adds, true_and]
      constructor
      · rintro ⟨number, member, same⟩
        cases same
        exact ⟨rfl, member⟩
      · rintro ⟨rfl, member⟩
        exact ⟨production, member, rfl⟩

theorem mem_closureItems {kernel : List (Item × Lookahead)} {item : Item} :
    item ∈ (context.closureItems kernel).map Prod.fst ↔
      context.Includes (kernel.map Prod.fst) (context.closure kernel) item := by
  have inside : ∀ {index}, Adds (context.closure kernel) index →
      index ∈ List.range context.grammar.symbols.length := by
    rintro index ⟨lookahead, found⟩
    rw [List.mem_range, ← size_closure kernel]
    exact (Array.getElem?_eq_some_iff.1 found).1
  simp only [closureItems, Includes, List.map_append, List.mem_append, List.map_flatMap,
    List.mem_flatMap, mem_addedItems]
  refine or_congr_right (exists_congr fun index => ?_)
  exact ⟨fun ⟨_, rest⟩ => rest, fun rest => ⟨inside rest.1, rest⟩⟩

theorem entry_closureItems {kernel : List (Item × Lookahead)} {item : Item} {lookahead : Lookahead} :
    (item, lookahead) ∈ context.closureItems kernel ↔ (item, lookahead) ∈ kernel ∨
      ∃ index : Nat, (context.closure kernel)[index]? = some (some lookahead) ∧ item.dot = 0 ∧
        item.production ∈ (context.byLhs[index]?).getD [] := by
  rw [closureItems, List.mem_append, List.mem_flatMap]
  refine or_congr_right (exists_congr fun index => ?_)
  unfold addedItems
  constructor
  · rintro ⟨-, member⟩
    split at member
    · next known found =>
        obtain ⟨production, listed, same⟩ := List.mem_map.1 member
        cases same
        exact ⟨Option.join_eq_some_iff.1 found, rfl, listed⟩
    · cases member
  · rintro ⟨found, dot, listed⟩
    refine ⟨?_, ?_⟩
    · rw [List.mem_range, ← size_closure kernel]
      exact (Array.getElem?_eq_some_iff.1 found).1
    · rw [Option.join_eq_some_iff.2 found]
      obtain ⟨production, dotted⟩ := item
      cases dot
      exact List.mem_map.2 ⟨production, listed, rfl⟩

theorem mem_items_of_kernel {kernel : List Item} {item : Item} (member : item ∈ kernel) :
    item ∈ context.items kernel := by
  refine mem_closureItems.2 (.inl ?_)
  rw [List.map_map]
  exact (List.map_id kernel).symm ▸ member

/-- The items of a closure do not depend on the terminals that follow those of its kernel. -/
theorem mem_items_of_closureItems {kernel : List (Item × Lookahead)} {item : Item} :
    item ∈ (context.closureItems kernel).map Prod.fst ↔
      item ∈ context.items (kernel.map Prod.fst) := by
  have same : kernel.map Prod.fst = ((kernel.map Prod.fst).map fun item =>
      (item, Lookahead.empty)).map Prod.fst := by simp
  rw [items, mem_closureItems, mem_closureItems, ← same]
  simp only [Includes, (alike_closure same).adds]

/-- Whether every symbol whose productions a closure adds is called for by one of its items. -/
def Justified (context : Context) (kernel : List Item) (closure : Closure) : Prop :=
  ∀ index, Adds closure index → ∃ item symbol, context.Includes kernel closure item ∧
    context.next? item = some symbol ∧ symbol.index = index

theorem Justified.addSymbol {kernel : List Item} {closure : Closure}
    (justified : context.Justified kernel closure) {item : Item} {symbol : Symbol}
    (member : context.Includes kernel closure item) (next : context.next? item = some symbol)
    (lookahead : Lookahead) : context.Justified kernel (addSymbol closure symbol lookahead) := by
  have grows : ∀ other, context.Includes kernel closure other →
      context.Includes kernel (Context.addSymbol closure symbol lookahead) other := by
    intro other included
    rcases included with old | ⟨index, adds, rest⟩
    · exact .inl old
    · exact .inr ⟨index, adds_addSymbol.2 (.inl adds), rest⟩
  intro index adds
  rcases adds_addSymbol.1 adds with before | ⟨rfl, -⟩
  · obtain ⟨other, called, included, rest⟩ := justified index before
    exact ⟨other, called, grows other included, rest⟩
  · exact ⟨item, symbol, grows item member, next, rfl⟩

theorem Justified.addSeed {kernel : List Item} {closure : Closure}
    (justified : context.Justified kernel closure) {seed : Item × Lookahead}
    (member : seed.1 ∈ kernel) : context.Justified kernel (context.addSeed closure seed) := by
  unfold Context.addSeed
  split
  · next symbol rest found =>
      split
      · exact justified
      · exact justified.addSymbol (.inl member) (next?_of_drop found) _
  · exact justified

section Tables

variable {plain : PlainGrammar}

/-- What a row of a table holds after lists have been appended to the rows. -/
theorem row_foldl_modify {α β : Type} {row : α → Nat} {added : α → List β} {values : List α}
    {table : Array (List β)} {index : Nat} :
    ((values.foldl (fun table value => table.modify (row value) (· ++ added value))
        table)[index]?).getD [] =
      (table[index]?).getD [] ++ if index < table.size then
        (values.filter fun value => row value = index).flatMap added else [] := by
  induction values generalizing table with
  | nil => simp
  | cons value rest induction =>
      rw [List.foldl_cons, induction, Array.size_modify, Array.getElem?_modify]
      by_cases here : row value = index
      · by_cases inside : index < table.size <;> simp [here, inside]
      · simp [here]

theorem mem_foldl_modify {α β : Type} {row : α → Nat} {added : α → List β} {values : List α}
    {table : Array (List β)} {index : Nat} {found : β} :
    found ∈ ((values.foldl (fun table value => table.modify (row value) (· ++ added value))
        table)[index]?).getD [] ↔
      found ∈ (table[index]?).getD [] ∨
        index < table.size ∧ ∃ value ∈ values, row value = index ∧ found ∈ added value := by
  rw [row_foldl_modify, List.mem_append]
  by_cases inside : index < table.size <;> simp [inside, and_assoc]

theorem mem_byLhs {index production : Nat} :
    production ∈ ((ofGrammar plain).byLhs[index]?).getD [] ↔
      index < plain.symbols.length ∧ ∃ source : PlainProduction,
        plain.productions[production]? = some source ∧ source.lhs.index = index := by
  have table : (ofGrammar plain).byLhs = plain.productions.zipIdx.foldl
      (fun table entry => table.modify entry.1.lhs.index (· ++ [entry.2]))
      (Array.replicate plain.symbols.length []) := rfl
  rw [table, mem_foldl_modify, Array.size_replicate, Array.getElem?_replicate]
  have nothing : production ∉
      ((if index < plain.symbols.length then some [] else none : Option (List Nat)).getD []) := by
    split <;> simp
  simp only [nothing, false_or, List.mem_singleton]
  refine and_congr_right fun _ => ?_
  constructor
  · rintro ⟨⟨source, number⟩, member, row, rfl⟩
    exact ⟨source, List.mem_zipIdx_iff_getElem?.1 member, row⟩
  · rintro ⟨source, found, row⟩
    exact ⟨(source, production), List.mem_zipIdx_iff_getElem?.2 found, row, rfl⟩

theorem mem_leads {index : Nat} {lead : Lead}
    (member : lead ∈ ((ofGrammar plain).leads[index]?).getD []) :
    index < plain.symbols.length ∧ ∃ (production : Nat) (source : PlainProduction),
      plain.productions[production]? = some source ∧ source.lhs.index = index ∧
        lead? plain (FirstSets.ofGrammar plain) source.rhs = some lead := by
  have table : (ofGrammar plain).leads = plain.productions.foldl
      (fun table production => table.modify production.lhs.index
        (· ++ (lead? plain (FirstSets.ofGrammar plain) production.rhs).toList))
      (Array.replicate plain.symbols.length []) := rfl
  rw [table, mem_foldl_modify, Array.size_replicate, Array.getElem?_replicate] at member
  rcases member with never | ⟨inside, source, sourceMember, row, found⟩
  · split at never <;> cases never
  · obtain ⟨production, place⟩ := List.mem_iff_getElem?.1 sourceMember
    exact ⟨inside, production, source, place, row, Option.mem_toList.1 found⟩

/-- A lead is the first symbol of a right-hand side with what begins the others. -/
theorem lead?_eq_some {rhs : List Symbol} {lead : Lead}
    (found : lead? plain (FirstSets.ofGrammar plain) rhs = some lead) :
    ∃ rest, rhs = lead.symbol :: rest ∧
      lead.rest = (FirstSets.ofGrammar plain).ofString rest := by
  unfold lead? at found
  split at found
  · next symbol rest =>
      split at found
      · cases found
      · obtain rfl := Option.some.inj found
        exact ⟨rest, rfl, rfl⟩
  · cases found

theorem rhs_ofGrammar {production : Nat} {source : PlainProduction}
    (found : plain.productions[production]? = some source) :
    (ofGrammar plain).rhs production = source.rhs := by
  have inside := (List.getElem?_eq_some_iff.1 found).1
  have table : (ofGrammar plain).rhsTable =
      (plain.productions.map PlainProduction.rhs ++ [[plain.start]]).toArray := rfl
  rw [rhs, table, List.getElem?_toArray, List.getElem?_append_left (by simpa using inside),
    List.getElem?_map, found]
  rfl

theorem rhs_wholeText : (ofGrammar plain).rhs (ofGrammar plain).wholeText = [plain.start] := by
  have table : (ofGrammar plain).rhsTable =
      (plain.productions.map PlainProduction.rhs ++ [[plain.start]]).toArray := rfl
  have last : (ofGrammar plain).wholeText = plain.productions.length := rfl
  rw [rhs, table, last, List.getElem?_toArray, List.getElem?_append_right (by simp)]
  simp

/-- Productions beyond that of whole texts are empty. -/
theorem rhs_beyond {production : Nat} (beyond : (ofGrammar plain).wholeText < production) :
    (ofGrammar plain).rhs production = [] := by
  have table : (ofGrammar plain).rhsTable =
      (plain.productions.map PlainProduction.rhs ++ [[plain.start]]).toArray := rfl
  have last : (ofGrammar plain).wholeText = plain.productions.length := rfl
  rw [last] at beyond
  rw [rhs, table, List.getElem?_toArray,
    List.getElem?_eq_none (by simpa using Nat.succ_le_of_lt beyond)]
  rfl

theorem Justified.addLeads {kernel : List Item} {closure : Closure}
    (justified : (ofGrammar plain).Justified kernel closure) (index : Nat) :
    (ofGrammar plain).Justified kernel ((ofGrammar plain).addLeads closure index) := by
  unfold Context.addLeads
  split
  · next lookahead found =>
      have adds : Adds closure index := join_eq_some_iff_adds.1 ⟨lookahead, found⟩
      have called : ∀ lead ∈ ((ofGrammar plain).leads[index]?).getD [], ∃ production,
          production ∈ ((ofGrammar plain).byLhs[index]?).getD [] ∧
            (ofGrammar plain).next? ⟨production, 0⟩ = some lead.symbol := by
        intro lead member
        obtain ⟨inside, production, source, place, row, made⟩ := mem_leads member
        obtain ⟨rest, spelled, -⟩ := lead?_eq_some made
        refine ⟨production, mem_byLhs.2 ⟨inside, source, place, row⟩, ?_⟩
        rw [next?, rhs_ofGrammar place, spelled, List.getElem?_cons_zero]
      clear found
      generalize ((ofGrammar plain).leads[index]?).getD [] = leads at called
      induction leads generalizing closure with
      | nil => exact justified
      | cons lead rest induction =>
          obtain ⟨production, member, next⟩ := called lead List.mem_cons_self
          refine induction (justified.addSymbol (.inr ⟨index, adds, rfl, member⟩) next _)
            (adds_addSymbol.2 (.inl adds))
            fun other later => called other (List.mem_cons_of_mem lead later)
  · exact justified

theorem justified_closure (kernel : List (Item × Lookahead)) :
    (ofGrammar plain).Justified (kernel.map Prod.fst) ((ofGrammar plain).closure kernel) := by
  refine closure_preserves ?_ (fun closure seed member justified => ?_)
    fun closure index justified => justified.addLeads index
  · rintro index ⟨lookahead, found⟩
    rw [Array.getElem?_replicate] at found
    split at found <;> cases found
  · exact justified.addSeed (List.mem_map_of_mem member)

/-- An item of a closure that is not in its kernel is a production, of which nothing is recognised,
of a symbol that another item calls for. -/
theorem mem_items {kernel : List Item} {item : Item}
    (member : item ∈ (ofGrammar plain).items kernel) :
    item ∈ kernel ∨ item.dot = 0 ∧ ∃ production : PlainProduction,
      plain.productions[item.production]? = some production ∧
        ∃ caller ∈ (ofGrammar plain).items kernel,
          (ofGrammar plain).next? caller = some production.lhs := by
  have same : (kernel.map fun item => (item, Lookahead.empty)).map Prod.fst = kernel := by
    rw [List.map_map]
    exact List.map_id kernel
  rw [items, mem_closureItems, same] at member
  rcases member with old | ⟨index, adds, dot, listed⟩
  · exact .inl old
  · obtain ⟨inside, production, place, row⟩ := mem_byLhs.1 listed
    obtain ⟨caller, symbol, included, next, number⟩ := justified_closure _ index adds
    obtain rfl : symbol = production.lhs := Symbol.index_inj (number.trans row.symm)
    exact .inr ⟨dot, production, place, caller, mem_closureItems.2 included, next⟩

/-- Whether something holds of every row of a closure. -/
def Rows (holds : Nat → Lookahead → Prop) (closure : Closure) : Prop :=
  ∀ (index : Nat) lookahead, closure[index]? = some (some lookahead) → holds index lookahead

theorem rows_replicate {holds : Nat → Lookahead → Prop} {count : Nat} :
    Rows holds (Array.replicate count none) := by
  intro index lookahead found
  rw [Array.getElem?_replicate] at found
  split at found <;> cases found

theorem Rows.addSymbol {holds : Nat → Lookahead → Prop}
    (merged : ∀ {index left right}, holds index left → holds index right →
      holds index (left.merge right)) {closure : Closure} (rows : Rows holds closure)
    {symbol : Symbol} {added : Lookahead} (new : holds symbol.index added) :
    Rows holds (addSymbol closure symbol added) := by
  intro index lookahead found
  rw [Context.addSymbol, Array.getElem?_modify] at found
  split at found
  · next same =>
      subst same
      obtain ⟨row, known, changed⟩ := Option.map_eq_some_iff.1 found
      cases row with
      | none =>
          cases changed
          exact new
      | some before =>
          cases changed
          exact merged (rows symbol.index before known) new
  · exact rows index lookahead found

/-- Whether something holds of all productions of the symbol of an index when they are followed by
what is given. -/
def OfProductions (plain : PlainGrammar) (holds : Item → Lookahead → Prop) (index : Nat)
    (lookahead : Lookahead) : Prop :=
  ∀ (production : Nat) (source : PlainProduction), plain.productions[production]? = some source →
    source.lhs.index = index → holds ⟨production, 0⟩ lookahead

section Induction

variable {holds : Item → Lookahead → Prop}
  (merged : ∀ {item left right}, holds item left → holds item right →
    holds item (left.merge right))
  (called : ∀ {caller lookahead symbol rest production}, holds caller lookahead →
    ((ofGrammar plain).rhs caller.production).drop caller.dot = symbol :: rest →
      ∀ source : PlainProduction, plain.productions[production]? = some source →
        source.lhs = symbol → holds ⟨production, 0⟩
          (.before ((FirstSets.ofGrammar plain).ofString rest) lookahead))

include merged in
theorem OfProductions.merge {index : Nat} {left right : Lookahead}
    (first : OfProductions plain holds index left)
    (second : OfProductions plain holds index right) :
    OfProductions plain holds index (left.merge right) :=
  fun production source found row =>
    merged (first production source found row) (second production source found row)

include called

/-- What an item that something holds of calls for. -/
theorem OfProductions.of_caller {caller : Item} {lookahead : Lookahead} {symbol : Symbol}
    {rest : List Symbol} (held : holds caller lookahead)
    (spelled : ((ofGrammar plain).rhs caller.production).drop caller.dot = symbol :: rest) :
    OfProductions plain holds symbol.index
      (.before ((FirstSets.ofGrammar plain).ofString rest) lookahead) :=
  fun _ source found row => called held spelled source found (Symbol.index_inj row)

include merged

theorem Rows.addSeed {closure : Closure} (rows : Rows (OfProductions plain holds) closure)
    {seed : Item × Lookahead} (held : holds seed.1 seed.2) :
    Rows (OfProductions plain holds) ((ofGrammar plain).addSeed closure seed) := by
  unfold Context.addSeed
  split
  · next symbol rest spelled =>
      split
      · exact rows
      · exact rows.addSymbol (.merge merged) (.of_caller called held spelled)
  · exact rows

theorem Rows.addLeads {closure : Closure} (rows : Rows (OfProductions plain holds) closure)
    (index : Nat) : Rows (OfProductions plain holds) ((ofGrammar plain).addLeads closure index) := by
  unfold Context.addLeads
  split
  · next lookahead found =>
      have row := rows index lookahead (Option.join_eq_some_iff.1 found)
      refine List.foldlRecOn (motive := Rows _) _ _ rows fun closure rows lead member => ?_
      obtain ⟨-, production, source, place, same, made⟩ := mem_leads member
      obtain ⟨rest, spelled, begins⟩ := lead?_eq_some made
      refine rows.addSymbol (.merge merged) ?_
      rw [begins]
      refine .of_caller called (row production source place same) ?_
      rw [rhs_ofGrammar place, List.drop_zero, spelled]
  · exact rows

/-- What holds of the items of a kernel, and of the productions that an item calls for if it holds of
the item, holds of all items of the closure. -/
theorem closureItems_induction {kernel : List (Item × Lookahead)}
    (seeds : ∀ seed ∈ kernel, holds seed.1 seed.2) :
    ∀ entry ∈ (ofGrammar plain).closureItems kernel, holds entry.1 entry.2 := by
  have rows : Rows (OfProductions plain holds) ((ofGrammar plain).closure kernel) :=
    closure_preserves rows_replicate
      (fun _ seed member rows => rows.addSeed merged called (seeds seed member))
      fun _ index rows => rows.addLeads merged called index
  rintro ⟨⟨production, dot⟩, lookahead⟩ member
  rcases entry_closureItems.1 member with old | ⟨index, row, dotted, listed⟩
  · exact seeds _ old
  · obtain ⟨-, source, found, same⟩ := mem_byLhs.1 listed
    cases dotted
    exact rows index lookahead row production source found same

end Induction

end Tables

end Context

end Lalr

end IncrementalGlr
