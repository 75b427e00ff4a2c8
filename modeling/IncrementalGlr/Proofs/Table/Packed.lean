import IncrementalGlr.Proofs.Confinement.Lookups
import Mathlib.Data.List.Induction

/-!
# Tables and lists

The tables of a loaded grammar say what the lists of its contents say, the last entry for a symbol
being the one that counts.  Cells are kept in words of thirty-two and sixteen bits; where starts and
sizes fit these words, the same actions are read from them.
-/

namespace IncrementalGlr

/-- What the last entry for a key says. -/
def lastFor {κ α : Type} [BEq κ] (entries : List (κ × α)) (key : κ) : Option α :=
  entries.reverse.lookup key

section lastFor

variable {κ α : Type} [BEq κ] {key : κ}

@[simp]
theorem lastFor_nil : lastFor ([] : List (κ × α)) key = none := rfl

@[simp]
theorem lastFor_append (before later : List (κ × α)) :
    lastFor (before ++ later) key = (lastFor later key).or (lastFor before key) := by
  rw [lastFor, List.reverse_append, List.lookup_append]
  rfl

variable [LawfulBEq κ]

theorem lastFor_eq_none {entries : List (κ × α)} (absent : ∀ entry ∈ entries, entry.1 ≠ key) :
    lastFor entries key = none := by
  refine List.lookup_eq_none_iff.2 fun entry member => bne_iff_ne.2 ?_
  exact (absent entry (List.mem_reverse.1 member)).symm

theorem mem_of_lastFor {entries : List (κ × α)} {value : α}
    (found : lastFor entries key = some value) : (key, value) ∈ entries := by
  obtain ⟨before, after, parts, -⟩ := List.lookup_eq_some_iff.1 found
  rw [← List.mem_reverse, parts]
  exact List.mem_append_right _ List.mem_cons_self

theorem exists_lastFor {entries : List (κ × α)} {value : α} (member : (key, value) ∈ entries) :
    ∃ last, lastFor entries key = some last ∧ (key, last) ∈ entries := by
  cases found : lastFor entries key with
  | some last => exact ⟨last, rfl, mem_of_lastFor found⟩
  | none =>
      have other := List.lookup_eq_none_iff.1 found (key, value) (List.mem_reverse.2 member)
      exact absurd rfl (bne_iff_ne.1 other)

theorem lastFor_singleton_self (entry : κ × α) : lastFor [entry] entry.1 = some entry.2 := by
  obtain ⟨key, value⟩ := entry
  simp [lastFor]

/-- In a row of a table only entries for the key are found at its place. -/
theorem lastFor_row {column : κ → Nat} {width row other : Nat} {entries : List (κ × α)}
    (inside : ∀ entry ∈ entries, column entry.1 < width) (keyInside : column key < width)
    (apart : ∀ entry ∈ entries, column entry.1 = column key → entry.1 = key) :
    lastFor (entries.map fun entry => (other * width + column entry.1, entry.2))
      (row * width + column key) = if other = row then lastFor entries key else none := by
  induction entries using List.reverseRecOn with
  | nil => simp
  | append_singleton before entry induction =>
      simp only [List.forall_mem_append, List.forall_mem_singleton] at inside apart
      rw [List.map_append, lastFor_append, induction inside.1 apart.1]
      by_cases here : other = row ∧ entry.1 = key
      · obtain ⟨rfl, rfl⟩ := here
        have entered : lastFor [(other * width + column entry.1, entry.2)]
            (other * width + column entry.1) = some entry.2 := lastFor_singleton_self _
        rw [List.map_singleton, entered, Option.some_or, if_pos rfl, lastFor_append,
          lastFor_singleton_self, Option.some_or]
      · have elsewhere : other * width + column entry.1 ≠ row * width + column key := fun same =>
          have ⟨rows, columns⟩ := row_column_inj inside.2 keyInside same
          here ⟨rows, apart.2 columns⟩
        rw [List.map_singleton, lastFor_eq_none (List.forall_mem_singleton.2 elsewhere),
          Option.none_or, lastFor_append]
        split
        · next rows =>
            rw [lastFor_eq_none (List.forall_mem_singleton.2 fun same => here ⟨rows, same⟩),
              Option.none_or]
        · rfl

/-- At a place of a table whose rows lie one behind the other the entry for one row and one key is
found. -/
theorem lastFor_rows {σ : Type} (list : σ → List (κ × α)) (column : κ → Nat) {width row : Nat}
    {rows : List σ} (inside : ∀ source ∈ rows, ∀ entry ∈ list source, column entry.1 < width)
    (keyInside : column key < width)
    (apart : ∀ source ∈ rows, ∀ entry ∈ list source, column entry.1 = column key →
      entry.1 = key) :
    lastFor (rows.zipIdx.flatMap fun (source, index) =>
        (list source).map fun entry => (index * width + column entry.1, entry.2))
      (row * width + column key) = rows[row]?.bind fun source => lastFor (list source) key := by
  induction rows using List.reverseRecOn with
  | nil => simp
  | append_singleton before source induction =>
      simp only [List.forall_mem_append, List.forall_mem_singleton] at inside apart
      rw [List.zipIdx_append, List.flatMap_append, lastFor_append, induction inside.1 apart.1]
      simp only [List.zipIdx_singleton, List.flatMap_singleton, Nat.zero_add]
      rw [lastFor_row inside.2 keyInside apart.2]
      rcases Nat.lt_trichotomy row before.length with earlier | rfl | beyond
      · rw [if_neg (Nat.ne_of_gt earlier), Option.none_or, List.getElem?_append_left earlier]
      · simp
      · rw [if_neg (Nat.ne_of_lt beyond), Option.none_or, List.getElem?_eq_none (Nat.le_of_lt beyond),
          List.getElem?_eq_none (by simp; omega)]

end lastFor

namespace ActionTable

/-- Putting actions into a cell changes what is read there and nowhere else. -/
theorem read_put {done : List (Nat × List Action)} {table : ActionTable} (holds : table.Holds done)
    (entry : Nat × List Action) {position : Nat} (inside : position < table.cells.size) :
    (table.put entry).read position =
      if entry.1 = position then entry.2 else table.read position := by
  unfold read
  rw [put_actions, put, Array.getElem?_setIfInBounds]
  by_cases here : entry.1 = position
  · rw [if_pos here, if_pos here, if_pos (here ▸ inside)]
    simp [Array.extract_append]
  · rw [if_neg here, if_neg here]
    cases found : table.cells[position]? with
    | none => rfl
    | some cell =>
        have bound := (holds position cell found).1
        simp [Array.extract_append, Nat.sub_eq_zero_of_le bound]

/-- After all entries the last one for a cell is read from it. -/
theorem read_putAll {done entries : List (Nat × List Action)} {table : ActionTable}
    (holds : table.Holds done) {position : Nat} (inside : position < table.cells.size) :
    (entries.foldl put table).read position =
      (lastFor entries position).getD (table.read position) := by
  induction entries using List.reverseRecOn with
  | nil => rfl
  | append_singleton before entry induction =>
      rw [List.foldl_append, List.foldl_cons, List.foldl_nil,
        read_put holds.putAll entry (by rwa [size_putAll]), lastFor_append]
      split
      · next here =>
          subst here
          rw [lastFor_singleton_self, Option.some_or, Option.getD_some]
      · next elsewhere =>
          rw [lastFor_eq_none (List.forall_mem_singleton.2 elsewhere), Option.none_or, induction]

theorem read_ofStates {terminals : Nat} {states : List StateData} {position : Nat}
    (inside : position < states.length * terminals) :
    (ofStates terminals states).read position =
      (lastFor (entries terminals states) position).getD [] := by
  have blank : (⟨Array.replicate (states.length * terminals) Cell.empty, #[]⟩ :
      ActionTable).read position = [] := by
    rw [read, Array.getElem?_replicate, if_pos inside]
    rfl
  rw [ofStates_eq, read_putAll (holds_empty _) (by rwa [Array.size_replicate]), blank]

end ActionTable

/-- After all entries the last one for a place stands there. -/
theorem GotoTable.enter_eq {entries : List (Nat × StateId)} {table : Array (Option StateId)}
    {position : Nat} (inside : position < table.size) :
    ((entries.foldl (fun table entry => table.setIfInBounds entry.1 (some entry.2))
      table)[position]?).join = (lastFor entries position).or (table[position]?).join := by
  induction entries using List.reverseRecOn with
  | nil => rfl
  | append_singleton before entry induction =>
      rw [List.foldl_append, List.foldl_cons, List.foldl_nil, Array.getElem?_setIfInBounds,
        lastFor_append]
      by_cases here : entry.1 = position
      · have entered : position < (before.foldl (fun table entry =>
            table.setIfInBounds entry.1 (some entry.2)) table).size := by
          rwa [size_enter]
        subst here
        rw [if_pos rfl, if_pos entered, lastFor_singleton_self, Option.some_or]
        rfl
      · rw [if_neg here, lastFor_eq_none (List.forall_mem_singleton.2 here), Option.none_or,
          induction]

theorem GotoTable.ofStates_eq_lastFor {terminals nonterminals position : Nat}
    {states : List StateData} (inside : position < states.length * nonterminals) :
    ((ofStates terminals nonterminals states)[position]?).join =
      lastFor (entries terminals nonterminals states) position := by
  rw [ofStates_eq, enter_eq (by rwa [Array.size_replicate]), Array.getElem?_replicate,
    if_pos inside, Option.join_some, Option.or_none]

/-! ## Words -/

/-- A cell as it is kept: thirty-two bits for where its actions start and sixteen for their
number. -/
structure PackedCell where
  /-- Position of the first action. -/
  start : UInt32
  /-- Number of actions. -/
  size : UInt16
  deriving DecidableEq, Inhabited

/-- The words for a cell, what does not fit them being lost. -/
def Cell.pack (cell : Cell) : PackedCell := ⟨.ofNat cell.start, .ofNat cell.size⟩

/-- The actions of all states with cells that are kept in words. -/
structure PackedTable where
  /-- A cell for each state and terminal, state by state. -/
  cells : Array PackedCell
  /-- The actions of all cells. -/
  actions : Array Action

namespace PackedTable

/-- Adds the actions of one state on one terminal; they replace earlier ones. -/
def insert (terminals state : Nat) (table : PackedTable) (entry : Symbol × List Action) :
    PackedTable where
  cells := table.cells.setIfInBounds (state * terminals + entry.1.index)
    ⟨.ofNat table.actions.size, .ofNat entry.2.length⟩
  actions := table.actions ++ entry.2

/-- The table of the given states. -/
def ofStates (terminals : Nat) (states : List StateData) : PackedTable :=
  states.zipIdx.foldl
    (fun table (state, index) => state.actions.foldl (insert terminals index) table)
    ⟨Array.replicate (states.length * terminals) ⟨0, 0⟩, #[]⟩

/-- The actions in a cell. -/
def read (table : PackedTable) (position : Nat) : List Action :=
  match table.cells[position]? with
  | some cell =>
    (table.actions.extract cell.start.toNat (cell.start.toNat + cell.size.toNat)).toList
  | none => []

end PackedTable

namespace ActionTable

/-- A table with its cells in words. -/
def pack (table : ActionTable) : PackedTable := ⟨table.cells.map Cell.pack, table.actions⟩

theorem pack_insert (terminals state : Nat) (table : ActionTable) (entry : Symbol × List Action) :
    (table.insert terminals state entry).pack = table.pack.insert terminals state entry := by
  simp [insert, PackedTable.insert, pack, Cell.pack, Array.map_setIfInBounds]

theorem pack_ofStates (terminals : Nat) (states : List StateData) :
    (ofStates terminals states).pack = PackedTable.ofStates terminals states := by
  unfold ofStates PackedTable.ofStates
  have blank : (⟨Array.replicate (states.length * terminals) Cell.empty, #[]⟩ : ActionTable).pack =
      ⟨Array.replicate (states.length * terminals) ⟨0, 0⟩, #[]⟩ := by
    simp [pack, Cell.pack, Cell.empty]
  rw [← blank]
  refine (List.foldl_hom pack fun table entry => ?_).symm
  obtain ⟨state, index⟩ := entry
  exact List.foldl_hom pack fun table entry => (pack_insert terminals index table entry).symm

/-- The same actions are read from words if the cells fit them. -/
theorem read_pack {table : ActionTable} (fits : table.FitsWords) (position : Nat) :
    table.pack.read position = table.read position := by
  unfold read PackedTable.read pack
  rw [Array.getElem?_map]
  cases found : table.cells[position]? with
  | none => rfl
  | some cell =>
      obtain ⟨start, size⟩ := fits cell (Array.mem_of_getElem? found)
      simp only [Option.map_some, Cell.pack, UInt32.toNat_ofNat_of_lt' start,
        UInt16.toNat_ofNat_of_lt' size]

end ActionTable

namespace GrammarData

/-- The actions that the contents of a grammar list for a state and a symbol. -/
def listedActions (data : GrammarData) (state : StateId) (symbol : Symbol) : List Action :=
  (data.states[state.index]?.bind fun source => lastFor source.actions symbol).getD []

/-- The goto that they list. -/
def listedGoto? (data : GrammarData) (state : StateId) (symbol : Symbol) : Option StateId :=
  data.states[state.index]?.bind fun source => lastFor source.gotos symbol

end GrammarData

/-- The actions of a state on a symbol as they are read from a table whose cells are words. -/
def Grammar.packedActions (grammar : Grammar) (state : StateId) (symbol : Symbol) : List Action :=
  if grammar.terminalCount ≤ symbol.index then []
  else (PackedTable.ofStates grammar.terminalCount grammar.data.states).read
    (state.index * grammar.terminalCount + symbol.index)

namespace Grammar

namespace IsLoaded

variable {grammar : Grammar} (loaded : grammar.IsLoaded) (state : StateId) (symbol : Symbol)

include loaded

theorem actions_eq_listed :
    grammar.actions state symbol = grammar.data.listedActions state symbol := by
  have terminals : grammar.terminalCount = grammar.data.terminalCount.toNat := rfl
  have columns : ∀ source ∈ grammar.data.states, ∀ entry ∈ source.actions,
      entry.1.index < grammar.data.terminalCount.toNat := by
    simpa [GrammarData.isTerminal] using loaded.sound.actions
  unfold actions GrammarData.listedActions
  rcases Nat.lt_or_ge symbol.index grammar.terminalCount with terminal | nonterminal
  · rw [if_neg (Nat.not_le.2 terminal), loaded.actionTable, terminals]
    rw [terminals] at terminal
    rcases Nat.lt_or_ge state.index grammar.data.states.length with known | unknown
    · rw [ActionTable.read_ofStates (row_column_lt known terminal), ActionTable.entries]
      exact congrArg (Option.getD · []) (lastFor_rows StateData.actions Symbol.index columns terminal
        fun source member entry listed => Symbol.index_inj)
    · have outside : grammar.data.states.length * grammar.data.terminalCount.toNat ≤
          state.index * grammar.data.terminalCount.toNat + symbol.index :=
        Nat.le_add_right_of_le (Nat.mul_le_mul_right _ unknown)
      rw [ActionTable.read, Array.getElem?_eq_none (by rwa [ActionTable.size_cells_ofStates]),
        List.getElem?_eq_none unknown]
      rfl
  · rw [if_pos nonterminal]
    cases found : grammar.data.states[state.index]? with
    | none => rfl
    | some source =>
        have absent : lastFor source.actions symbol = none :=
          lastFor_eq_none fun entry listed same => by
            have inside := columns source (List.mem_of_getElem? found) entry listed
            rw [same] at inside
            omega
        rw [Option.bind_some, absent, Option.getD_none]

theorem goto?_eq_listed : grammar.goto? state symbol = grammar.data.listedGoto? state symbol := by
  have terminals : grammar.terminalCount = grammar.data.terminalCount.toNat := rfl
  have nonterminals := loaded.nonterminalCount
  have columns : ∀ source ∈ grammar.data.states, ∀ entry ∈ source.gotos,
      grammar.data.terminalCount.toNat ≤ entry.1.index ∧
        entry.1.index < grammar.data.symbols.length := by
    simpa [GrammarData.isNonterminal] using loaded.sound.gotos
  unfold goto? GrammarData.listedGoto?
  by_cases inside : grammar.data.terminalCount.toNat ≤ symbol.index ∧
      symbol.index < grammar.data.symbols.length
  · have column : symbol.index - grammar.data.terminalCount.toNat <
        grammar.data.symbols.length - grammar.data.terminalCount.toNat := by omega
    dsimp only
    rw [if_neg (by omega), if_neg (by omega), loaded.gotoTable, nonterminals, terminals]
    rcases Nat.lt_or_ge state.index grammar.data.states.length with known | unknown
    · rw [GotoTable.ofStates_eq_lastFor (row_column_lt known column), GotoTable.entries]
      refine lastFor_rows StateData.gotos
        (fun symbol => symbol.index - grammar.data.terminalCount.toNat) ?_ column ?_
      · intro source member entry listed
        have := columns source member entry listed
        omega
      · intro source member entry listed same
        have := columns source member entry listed
        exact Symbol.index_inj (by omega)
    · have outside := Nat.le_add_right_of_le (k := symbol.index - grammar.data.terminalCount.toNat)
        (Nat.mul_le_mul_right
          (grammar.data.symbols.length - grammar.data.terminalCount.toNat) unknown)
      rw [Array.getElem?_eq_none (by rwa [GotoTable.size_ofStates]),
        List.getElem?_eq_none unknown]
      rfl
  · have absent : ∀ source ∈ grammar.data.states, lastFor source.gotos symbol = none :=
      fun source member => lastFor_eq_none fun entry listed same =>
        inside (same ▸ columns source member entry listed)
    have nothing : grammar.data.states[state.index]?.bind
        (fun source => lastFor source.gotos symbol) = none :=
      Option.bind_eq_none_iff.2 fun source found => absent source (List.mem_of_getElem? found)
    rw [nothing]
    dsimp only
    split
    · rfl
    · rw [if_pos (by omega)]

end IsLoaded

/-- The lookups of a loaded grammar find what its contents list last for a symbol, and nothing for
ids that are out of range.  If the contents fit the words of a table, the same actions are found
where cells are kept in words. -/
theorem lookups_eq_listed {data : GrammarData} {checksum : UInt32} {grammar : Grammar}
    (made : withChecksum data checksum = .ok grammar) (fits : data.FitsWords) (state : StateId)
    (symbol : Symbol) :
    grammar.packedActions state symbol = data.listedActions state symbol ∧
      grammar.actions state symbol = data.listedActions state symbol ∧
      grammar.action? state symbol = (data.listedActions state symbol).head? ∧
      grammar.goto? state symbol = data.listedGoto? state symbol ∧
      (data.states.length ≤ state.index ∨ data.symbols.length ≤ symbol.index →
        data.listedActions state symbol = [] ∧ data.listedGoto? state symbol = none) := by
  obtain ⟨rfl, loaded⟩ := isLoaded_of_withChecksum made
  have actions := loaded.actions_eq_listed state symbol
  have goto := loaded.goto?_eq_listed state symbol
  refine ⟨?_, actions, congrArg List.head? actions, goto, fun outside => ?_⟩
  · rw [← actions, packedActions, Grammar.actions, loaded.actionTable, terminalCount,
      ← ActionTable.pack_ofStates, ActionTable.read_pack (ActionTable.fitsWords_ofStates fits _)]
  · rcases outside with unknown | unknown
    · rw [GrammarData.listedActions, GrammarData.listedGoto?, List.getElem?_eq_none unknown]
      exact ⟨rfl, rfl⟩
    · have beyond : grammar.terminalCount ≤ symbol.index :=
        Nat.le_trans loaded.sound.terminals unknown
      have size : grammar.symbolCount = grammar.data.symbols.length := by
        rw [symbolCount, loaded.symbols, List.size_toArray]
      rw [← actions, ← goto, Grammar.actions, if_pos beyond, goto?]
      refine ⟨rfl, ?_⟩
      rw [if_neg (by omega), if_pos (by omega)]

end Grammar

/-- Contents with two entries for the same terminal and two for the same nonterminal. -/
def GrammarData.twice : GrammarData where
  name := "twice"
  symbols := [⟨"end", .endOfInput, false, true, false⟩, ⟨"x", .terminal, true, false, false⟩,
    ⟨"s", .nonterminal, true, true, false⟩, ⟨"t", .nonterminal, true, true, false⟩]
  terminalCount := 2
  startSymbol := ⟨2⟩
  lexRules := [⟨⟨1⟩, .literal "x", 0⟩]
  productions := [⟨⟨2⟩, 1, 0⟩, ⟨⟨3⟩, 1, 0⟩]
  lexStates := [[⟨0⟩, ⟨1⟩]]
  states := [⟨⟨0⟩, [(⟨1⟩, [.reduce ⟨0⟩]), (⟨0⟩, [.accept]), (⟨1⟩, [.shift ⟨1⟩, .reduce ⟨1⟩])],
    [(⟨3⟩, ⟨0⟩), (⟨2⟩, ⟨1⟩), (⟨3⟩, ⟨1⟩)]⟩, ⟨⟨0⟩, [(⟨0⟩, [.reduce ⟨0⟩])], []⟩]

/-- The later entries count. -/
theorem Grammar.lookups_eq_listed_twice : ∃ grammar, ofData .twice = .ok grammar ∧
    grammar.packedActions ⟨0⟩ ⟨1⟩ = [.shift ⟨1⟩, .reduce ⟨1⟩] ∧
      grammar.action? ⟨0⟩ ⟨1⟩ = some (.shift ⟨1⟩) ∧ grammar.goto? ⟨0⟩ ⟨3⟩ = some ⟨1⟩ ∧
        grammar.actions ⟨1⟩ ⟨1⟩ = [] ∧ grammar.goto? ⟨1⟩ ⟨2⟩ = none := by
  have valid : (ofData GrammarData.twice).isOk = true := by decide +kernel
  obtain ⟨grammar, loaded⟩ := Except.exists_of_isOk valid
  have fits : GrammarData.FitsWords GrammarData.twice := ⟨by decide, by decide⟩
  obtain ⟨packed, -, first, -⟩ := lookups_eq_listed loaded fits ⟨0⟩ ⟨1⟩
  obtain ⟨-, -, -, entered, -⟩ := lookups_eq_listed loaded fits ⟨0⟩ ⟨3⟩
  obtain ⟨-, none_, -⟩ := lookups_eq_listed loaded fits ⟨1⟩ ⟨1⟩
  obtain ⟨-, -, -, nowhere, -⟩ := lookups_eq_listed loaded fits ⟨1⟩ ⟨2⟩
  exact ⟨grammar, loaded, packed, first, entered, none_, nowhere⟩

end IncrementalGlr
