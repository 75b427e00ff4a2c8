import IncrementalGlr.Proofs.Derivation.Stack
import IncrementalGlr.Proofs.Plain.Language
import IncrementalGlr.Proofs.Table.Lookup
import Mathlib.Algebra.Order.BigOperators.Group.List
import Mathlib.Data.Set.Card

/-!
# Empty subtrees on a stack

A stack that spells what its items have recognised holds few empty subtrees in a row if there is no
hidden left recursion: an item that begins among them is called for by one that has come past some
of them, so its symbol is hidden by that of the other item.
-/

namespace IncrementalGlr

/-! ## Recursion of plain grammars

A parser makes reductions without end only if a symbol can be derived from itself alone, or from
itself behind symbols that vanish.  If no symbol can, symbols have ranks: what remains of a
production when the rest of it vanishes has a smaller rank than the symbol of the production, and so
has a symbol that hides another one.
-/

namespace Symbol

instance : Finite Symbol :=
  .of_injective (fun symbol => (⟨symbol.index, symbol.index_lt⟩ : Fin 65536))
    fun _ _ same => index_inj (congrArg Fin.val same)

/-- Number of symbols to which a relation leads from a symbol. -/
noncomputable def rank (leads : Symbol → Symbol → Prop) (symbol : Symbol) : Nat :=
  {other | Relation.TransGen leads symbol other}.ncard

variable {leads : Symbol → Symbol → Prop} {left right : Symbol}

theorem rank_lt (acyclic : ∀ symbol, ¬ Relation.TransGen leads symbol symbol)
    (step : leads left right) : rank leads right < rank leads left := by
  refine Set.ncard_lt_ncard ⟨fun other reached => .head step reached, fun all => ?_⟩
  exact acyclic right (all (.single step))

theorem rank_le (symbol : Symbol) : rank leads symbol ≤ Nat.card Symbol := Set.ncard_le_card _

end Symbol

namespace PlainGrammar

variable {plain : PlainGrammar} {left right : Symbol}

/-- Whether no symbol can be replaced, in any number of steps, by itself alone. -/
def Acyclic (plain : PlainGrammar) : Prop :=
  ∀ symbol, ¬ Relation.TransGen plain.Produces [symbol] [symbol]

/-- Whether no symbol can be replaced by a sequence in which it stands behind other symbols from
which the empty sequence can be derived. -/
def NoHiddenLeftRecursion (plain : PlainGrammar) : Prop :=
  ∀ (symbol : Symbol) (before after : List Symbol), before ≠ [] → plain.Derives before [] →
    ¬ Relation.TransGen plain.Produces [symbol] (before ++ symbol :: after)

/-- Whether a symbol remains of a production of another one when the rest of it vanishes. -/
def Narrows (plain : PlainGrammar) (left right : Symbol) : Prop :=
  ∃ production ∈ plain.productions, production.lhs = left ∧ ∃ before after,
    production.rhs = before ++ right :: after ∧ plain.Derives before [] ∧ plain.Derives after []

/-- Whether a symbol stands first in a production of another one. -/
def Begins (plain : PlainGrammar) (left right : Symbol) : Prop :=
  ∃ production ∈ plain.productions, production.lhs = left ∧ ∃ rest, production.rhs = right :: rest

/-- Whether a symbol begins what stands behind a vanishing part of a production of another one. -/
def Hides (plain : PlainGrammar) (left right : Symbol) : Prop :=
  ∃ production ∈ plain.productions, production.lhs = left ∧ ∃ before next after,
    production.rhs = before ++ next :: after ∧ before ≠ [] ∧ plain.Derives before [] ∧
      Relation.ReflTransGen plain.Begins next right

/-- Number of symbols on the right of all productions. -/
def width (plain : PlainGrammar) : Nat :=
  (plain.productions.map fun production => production.rhs.length).sum

theorem length_le_width {production : PlainProduction} (member : production ∈ plain.productions) :
    production.rhs.length ≤ plain.width :=
  List.le_sum_of_mem (List.mem_map_of_mem member)

theorem Narrows.produces (narrows : plain.Narrows left right) :
    Relation.TransGen plain.Produces [left] [right] := by
  obtain ⟨production, member, rfl, before, after, spelled, first, last⟩ := narrows
  have kept : plain.Derives [right] [right] := .refl
  have remains := first.concat (kept.concat last)
  rw [List.singleton_append, ← spelled] at remains
  exact .trans_left (.single (.of_mem member)) remains

/-- Without cycles what remains of a production has a smaller rank. -/
theorem Acyclic.rank_lt (acyclic : plain.Acyclic) (narrows : plain.Narrows left right) :
    Symbol.rank plain.Narrows right < Symbol.rank plain.Narrows left :=
  Symbol.rank_lt (fun symbol cycle =>
    acyclic symbol (cycle.lift' (fun other => [other]) fun _ _ => Narrows.produces)) narrows

theorem derives_of_begins (begins : Relation.ReflTransGen plain.Begins left right) :
    ∃ rest, plain.Derives [left] (right :: rest) := by
  induction begins with
  | refl => exact ⟨[], .refl⟩
  | tail _ begins induction =>
      obtain ⟨rest, derives⟩ := induction
      obtain ⟨production, member, rfl, others, spelled⟩ := begins
      have replaced := (Produces.of_mem member).append [] rest
      rw [List.nil_append, List.singleton_append, spelled] at replaced
      exact ⟨others ++ rest, derives.tail replaced⟩

/-- A symbol that is hidden stands behind symbols that vanish. -/
theorem produces_of_hides (hides : Relation.TransGen plain.Hides left right) :
    ∃ before after, before ≠ [] ∧ plain.Derives before [] ∧
      Relation.TransGen plain.Produces [left] (before ++ right :: after) := by
  have step : ∀ {left right}, plain.Hides left right → ∃ before after, before ≠ [] ∧
      plain.Derives before [] ∧
        Relation.TransGen plain.Produces [left] (before ++ right :: after) := by
    rintro _ right ⟨production, member, rfl, before, next, after, spelled, some_, vanishes, begins⟩
    obtain ⟨rest, derives⟩ := derives_of_begins begins
    have replaced := derives.append before after
    rw [List.append_assoc, List.singleton_append, ← spelled, List.append_assoc] at replaced
    exact ⟨before, rest ++ after, some_, vanishes, .trans_left (.single (.of_mem member)) replaced⟩
  induction hides with
  | single hides => exact step hides
  | tail _ hides induction =>
      obtain ⟨before, after, some_, vanishes, produces⟩ := induction
      obtain ⟨inner, rest, -, innerVanishes, produced⟩ := step hides
      have derives : plain.Derives _ _ := produced.to_reflTransGen
      have replaced := derives.append before after
      refine ⟨before ++ inner, rest ++ after, List.append_ne_nil_of_left_ne_nil some_ inner,
        vanishes.concat innerVanishes, .trans_left produces (?_ : plain.Derives _ _)⟩
      simpa using replaced

/-- Without hidden left recursion a symbol that hides another one has a smaller rank. -/
theorem NoHiddenLeftRecursion.rank_lt (visible : plain.NoHiddenLeftRecursion)
    (hides : plain.Hides left right) :
    Symbol.rank (Function.swap plain.Hides) left < Symbol.rank (Function.swap plain.Hides) right := by
  refine Symbol.rank_lt (fun symbol cycle => ?_) hides
  rw [Relation.transGen_swap] at cycle
  obtain ⟨before, after, some_, vanishes, produces⟩ := produces_of_hides cycle
  exact visible symbol before after some_ vanishes produces

/-- What replaces one symbol is the right side of one of its productions. -/
theorem exists_of_produces_singleton {word : List Symbol} (produces : plain.Produces [left] word) :
    ∃ production ∈ plain.productions, production.lhs = left ∧ word = production.rhs := by
  generalize same : [left] = first at produces
  obtain @⟨production, before, after, member⟩ := produces
  cases before with
  | nil =>
      obtain ⟨rfl, rfl⟩ := List.cons.inj same
      exact ⟨production, member, rfl, List.append_nil _⟩
  | cons first rest =>
      have lengths := congrArg List.length same
      simp at lengths

section Full

variable (full : ∀ production ∈ plain.productions, production.rhs ≠ [])

include full

/-- Without empty productions nothing becomes shorter. -/
theorem Derives.length_le {first last : List Symbol} (derives : plain.Derives first last) :
    first.length ≤ last.length := by
  induction derives with
  | refl => exact Nat.le_refl _
  | tail _ produces induction =>
      obtain ⟨before, after, member⟩ := produces
      have positive := List.length_pos_of_ne_nil (full _ member)
      simp only [List.length_append, List.length_cons] at induction ⊢
      omega

theorem noHiddenLeftRecursion_of_full : plain.NoHiddenLeftRecursion := by
  intro symbol before after some_ vanishes
  have shorter := vanishes.length_le full
  exact absurd (List.eq_nil_of_length_eq_zero (Nat.le_zero.1 shorter)) some_

/-- Without empty productions there are no cycles if the productions of one symbol descend. -/
theorem acyclic_of_full {height : Symbol → Nat}
    (descends : ∀ production ∈ plain.productions, production.rhs.length = 1 →
      ∀ symbol ∈ production.rhs, height symbol < height production.lhs) : plain.Acyclic := by
  have down : ∀ {first last}, Relation.TransGen plain.Produces first last →
      ∀ left right, first = [left] → last = [right] → height right < height left := by
    intro first last produces
    induction produces using Relation.TransGen.head_induction_on with
    | single produces =>
        rintro left right rfl rfl
        obtain ⟨production, member, rfl, spelled⟩ := exists_of_produces_singleton produces
        refine descends production member ?_ right ?_ <;> rw [← spelled]
        exacts [rfl, List.mem_singleton_self right]
    | head produces rest induction =>
        rintro left right rfl rfl
        obtain ⟨production, member, rfl, rfl⟩ := exists_of_produces_singleton produces
        have shorter := Derives.length_le full rest.to_reflTransGen
        have positive := List.length_pos_of_ne_nil (full production member)
        rw [List.length_singleton] at shorter
        have single := Nat.le_antisymm shorter positive
        obtain ⟨middle, spelled⟩ := List.length_eq_one_iff.1 single
        have first := descends production member single middle
          (spelled ▸ List.mem_singleton_self middle)
        exact Nat.lt_trans (induction middle right spelled rfl) first
  exact fun symbol cycle => Nat.lt_irrefl _ (down cycle symbol symbol rfl rfl)

end Full

end PlainGrammar

/-! ## Empty subtrees in a row -/

open Lalr (Context Item)
open Grammar.ComesFrom (ItemsOf)

namespace Lalr.Context

/-- An item of a closure that is not in its kernel is a production, of which nothing is recognised,
of a symbol that begins what the kernel calls for. -/
theorem called_of_mem_items {plain : PlainGrammar} {kernel : List Item} {item : Item}
    (member : item ∈ (ofGrammar plain).items kernel) :
    item ∈ kernel ∨ item.dot = 0 ∧ ∃ production : PlainProduction,
      plain.productions[item.production]? = some production ∧
        ∃ caller ∈ kernel, ∃ called, (ofGrammar plain).next? caller = some called ∧
          Relation.ReflTransGen plain.Begins called production.lhs := by
  obtain ⟨entry, listed, rfl⟩ := List.mem_map.1 member
  refine @closureItems_induction plain (fun item _ => item ∈ kernel ∨ item.dot = 0 ∧ ∃ production,
    plain.productions[item.production]? = some production ∧ ∃ caller ∈ kernel, ∃ called,
      (ofGrammar plain).next? caller = some called ∧
        Relation.ReflTransGen plain.Begins called production.lhs) (fun _ => id) ?_ _ ?_ entry listed
  · rintro caller _ _ rest production known spelled source found rfl
    have next := next?_of_drop spelled
    refine .inr ⟨rfl, source, found, ?_⟩
    rcases known with old | ⟨dot, own, ownFound, origin, old, called, originNext, begins⟩
    · exact ⟨caller, old, source.lhs, next, .refl⟩
    · rw [rhs_ofGrammar ownFound, dot, List.drop_zero] at spelled
      have first : plain.Begins own.lhs source.lhs :=
        ⟨own, List.mem_of_getElem? ownFound, rfl, rest, spelled⟩
      exact ⟨origin, old, called, originNext, begins.tail first⟩
  · rintro _ seed
    obtain ⟨other, old, rfl⟩ := List.mem_map.1 seed
    exact .inl old

end Lalr.Context

namespace Grammar.ComesFrom

variable {plain : PlainGrammar} {table : Lalr.Table} {automaton : Lalr.Automaton}

/-- Except at the start every item is a production of a symbol that begins what is called for by an
item that has recognised something. -/
theorem exists_caller (made : table.MadeFrom plain automaton) {state : StateId}
    (started : state ≠ .start) {production : Nat} {source : PlainProduction}
    (found : plain.productions[production]? = some source)
    (member : ItemsOf plain automaton state ⟨production, 0⟩) :
    ∃ caller dot other called, ItemsOf plain automaton state ⟨caller, dot + 1⟩ ∧
      plain.productions[caller]? = some other ∧ other.rhs[dot + 1]? = some called ∧
        Relation.ReflTransGen plain.Begins called source.lhs := by
  obtain ⟨kernel, kernelFound, inside⟩ := member
  have advanced : ∀ item ∈ kernel, ∃ dot, item.dot = dot + 1 := by
    intro item old
    rcases origin_of_kernel made.complete kernelFound old with rfl | ⟨origin, -, -, rfl⟩
    · exact absurd (start_of_whole made ⟨kernel, kernelFound, Context.mem_items_of_kernel old⟩)
        started
    · exact ⟨origin.dot, rfl⟩
  rcases Context.called_of_mem_items inside with
    old | ⟨-, own, ownFound, caller, old, called, next, begins⟩
  · obtain ⟨dot, never⟩ := advanced _ old
    cases never
  · cases found.symm.trans ownFound
    obtain ⟨number, dot⟩ := caller
    obtain ⟨dot, rfl⟩ := advanced _ old
    have listed : ItemsOf plain automaton state ⟨number, dot + 1⟩ :=
      ⟨kernel, kernelFound, Context.mem_items_of_kernel old⟩
    rw [Context.next?] at next
    dsimp only at next
    rcases production_of_item made.complete listed with whole | ⟨other, otherFound⟩
    · rw [show number = _ from whole, Context.rhs_wholeText] at next
      cases next
    · rw [Context.rhs_ofGrammar otherFound] at next
      exact ⟨number, dot, other, called, listed, otherFound, next, begins⟩

end Grammar.ComesFrom

namespace ParseStack

/-- Number of empty subtrees, extras apart, above the topmost subtree that is not empty. -/
def hollow : ParseStack → Nat
  | [] => 0
  | entry :: below =>
    if 0 < entry.subtree.length then 0
    else if entry.subtree.isExtra then hollow below
    else hollow below + 1

/-- Whether the empty sequence can be derived from the symbol of every empty subtree. -/
def Vanishing (plain : PlainGrammar) (stack : ParseStack) : Prop :=
  ∀ subtree ∈ stack.subtrees, subtree.isExtra = false → subtree.length = 0 →
    plain.Derives [subtree.symbol] []

variable {plain : PlainGrammar} {items : StateId → Item → Prop} {stack : ParseStack}

theorem Vanishing.below {entry : StackEntry} (vanishing : Vanishing plain (entry :: stack)) :
    stack.Vanishing plain := by
  intro subtree member
  refine vanishing subtree ?_
  rw [subtrees_cons]
  exact List.mem_append_left _ member

theorem Vanishing.top {entry : StackEntry} (vanishing : Vanishing plain (entry :: stack))
    (notExtra : entry.subtree.isExtra = false) (empty : entry.subtree.length = 0) :
    plain.Derives [entry.subtree.symbol] [] := by
  refine vanishing entry.subtree ?_ notExtra empty
  rw [subtrees_cons]
  exact List.mem_append_right _ (List.mem_singleton_self _)

/-- Either an item reaches below the empty subtrees at the top of a stack, or what it has recognised
vanishes. -/
theorem Spells.hollow_take (path : stack.Spells plain items) (vanishing : stack.Vanishing plain)
    {production dot : Nat} (item : items stack.state ⟨production, dot⟩) :
    stack.hollow ≤ dot ∨ ∃ below : ParseStack, below.Spells plain items ∧ below.Vanishing plain ∧
      stack.hollow = below.hollow + dot ∧ items below.state ⟨production, 0⟩ ∧
      plain.Derives (((Context.ofGrammar plain).rhs production).take dot) [] := by
  induction path generalizing dot with
  | nil => exact .inl (Nat.zero_le dot)
  | @extra below subtree path isExtra induction =>
      rw [hollow]
      split
      · exact .inl (Nat.zero_le dot)
      · exact induction vanishing.below item
  | @enter below subtree state path notExtra enters induction =>
      cases dot with
      | zero =>
          exact .inr ⟨_, .enter path notExtra enters, vanishing, rfl, item, .refl⟩
      | succ dot =>
          rw [hollow]
          split
          · exact .inl (Nat.zero_le _)
          · next empty =>
              simp only [notExtra, Bool.false_eq_true, if_false]
              obtain ⟨origin, spelled⟩ := enters.origin item
              rcases induction vanishing.below origin with short | ⟨under, underPath, underVanishing,
                same, first, derives⟩
              · exact .inl (Nat.succ_le_succ short)
              · refine .inr ⟨under, underPath, underVanishing, congrArg (· + 1) same, first, ?_⟩
                rw [List.take_add_one, spelled]
                exact derives.concat (vanishing.top notExtra (Nat.eq_zero_of_not_pos empty))

/-- The start state is above no empty subtrees. -/
theorem Spells.hollow_start (first : ∀ {item}, items .start item → item.dot = 0)
    (path : stack.Spells plain items) (start : stack.state = .start) : stack.hollow = 0 := by
  induction path with
  | nil => rfl
  | extra path isExtra induction =>
      rw [hollow]
      split
      · rfl
      · exact induction start
  | enter path notExtra enters induction =>
      obtain ⟨production, dot, advanced⟩ := enters.advanced
      obtain rfl : _ = StateId.start := start
      cases first advanced

section Bound

variable {table : Lalr.Table} {automaton : Lalr.Automaton}
  (made : table.MadeFrom plain automaton) (visible : plain.NoHiddenLeftRecursion)

include made visible

/-- There are few empty subtrees above an item that has recognised something, the fewer the smaller
the rank of its symbol is. -/
theorem Spells.hollow_le_of_item (path : stack.Spells plain (ItemsOf plain automaton))
    (vanishing : stack.Vanishing plain) {production dot : Nat} {source : PlainProduction}
    (found : plain.productions[production]? = some source)
    (item : ItemsOf plain automaton stack.state ⟨production, dot + 1⟩) :
    stack.hollow ≤ dot + 1 +
      plain.width * (Symbol.rank (Function.swap plain.Hides) source.lhs + 1) := by
  generalize same : stack.hollow = count
  induction count using Nat.strong_induction_on generalizing stack production dot source with
  | _ count induction =>
      rcases path.hollow_take vanishing item with
        short | ⟨below, belowPath, belowVanishing, split, first, -⟩
      · omega
      · by_cases none : below.hollow = 0
        · omega
        · have started : below.state ≠ .start := fun start =>
            none (belowPath.hollow_start (Grammar.ComesFrom.dot_of_start made) start)
          obtain ⟨caller, past, other, called, listed, otherFound, next, begins⟩ :=
            Grammar.ComesFrom.exists_caller made started found first
          have member := List.mem_of_getElem? otherFound
          have inside : past + 1 < other.rhs.length := (List.getElem?_eq_some_iff.1 next).1
          have bound := PlainGrammar.length_le_width member
          rcases belowPath.hollow_take belowVanishing listed with few | ⟨-, -, -, -, -, vanishes⟩
          · have wide : plain.width ≤
                plain.width * (Symbol.rank (Function.swap plain.Hides) source.lhs + 1) :=
              Nat.le_mul_of_pos_right _ (Nat.succ_pos _)
            omega
          · rw [Context.rhs_ofGrammar otherFound] at vanishes
            have hides : plain.Hides other.lhs source.lhs := by
              refine ⟨other, member, rfl, other.rhs.take (past + 1), called,
                other.rhs.drop (past + 1 + 1), ?_, ?_, vanishes, begins⟩
              · rw [← (List.getElem?_eq_some_iff.1 next).2, List.getElem_cons_drop,
                  List.take_append_drop]
              · exact List.ne_nil_of_length_pos (by rw [List.length_take]; omega)
            have less := Nat.mul_le_mul_left plain.width (visible.rank_lt hides)
            have inner := induction below.hollow (by omega) belowPath belowVanishing otherFound
              listed rfl
            rw [Nat.mul_succ] at inner ⊢
            rw [Nat.mul_succ] at less
            omega

end Bound

end ParseStack

/-- Number of empty subtrees in a row that no stack exceeds. -/
noncomputable def PlainGrammar.maxHollow (plain : PlainGrammar) : Nat :=
  plain.width * (Nat.card Symbol + 2) + 1

namespace ParseStack

variable {plain : PlainGrammar} {table : Lalr.Table} {automaton : Lalr.Automaton}
  {stack : ParseStack}

/-- Without hidden left recursion no stack holds many empty subtrees in a row. -/
theorem Spells.hollow_le (made : table.MadeFrom plain automaton)
    (visible : plain.NoHiddenLeftRecursion) (path : stack.Spells plain (ItemsOf plain automaton))
    (vanishing : stack.Vanishing plain) : stack.hollow ≤ plain.maxHollow := by
  induction path with
  | nil => exact Nat.zero_le _
  | extra path isExtra induction =>
      rw [hollow]
      split
      · exact Nat.zero_le _
      · exact induction vanishing.below
  | @enter below subtree state path notExtra enters induction =>
      clear induction
      obtain ⟨production, dot, advanced⟩ := enters.advanced
      have bound := Grammar.ComesFrom.dot_le made.complete advanced
      have whole : Spells plain (ItemsOf plain automaton) (⟨state, subtree⟩ :: below) :=
        .enter path notExtra enters
      rcases Grammar.ComesFrom.production_of_item made.complete advanced with
        rfl | ⟨source, found⟩
      · -- the whole text is recognised above the start state only
        rw [Context.rhs_wholeText] at bound
        obtain rfl : dot = 0 := Nat.eq_zero_of_le_zero (Nat.le_of_succ_le_succ bound)
        have one : 1 ≤ plain.maxHollow := Nat.le_add_left 1 _
        rcases whole.hollow_take vanishing advanced with short | ⟨under, underPath, -, same, first, -⟩
        · exact Nat.le_trans short one
        · have start := Grammar.ComesFrom.start_of_whole made first
          rw [underPath.hollow_start (Grammar.ComesFrom.dot_of_start made) start] at same
          exact same.trans_le one
      · have few := whole.hollow_le_of_item made visible vanishing found advanced
        have rank := @Symbol.rank_le (Function.swap plain.Hides) source.lhs
        rw [Context.rhs_ofGrammar found] at bound
        have short : dot + 1 ≤ plain.width :=
          Nat.le_trans bound (PlainGrammar.length_le_width (List.mem_of_getElem? found))
        have sum : plain.maxHollow = plain.width * (Nat.card Symbol + 1) + plain.width + 1 := rfl
        have more := Nat.mul_le_mul_left plain.width (Nat.succ_le_succ rank)
        rw [Nat.succ_eq_add_one, Nat.succ_eq_add_one] at more
        omega

end ParseStack

end IncrementalGlr
