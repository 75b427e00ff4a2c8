import IncrementalGlr.Proofs.Lookahead.Scan
import IncrementalGlr.Proofs.Scanning.Characters
import Mathlib.Data.List.Nodup

/-!
# The matches of a scan

A scan reports at every offset the rules that are complete there and goes on with the threads into
which its threads develop.  So it reports exactly the matches of its patterns that are not empty,
each once, and those that end first come first.
-/

namespace IncrementalGlr

/-! ## What threads lead to

A thread leads to the matches that what is left of its pattern has from the thread's offset on, or
from the end of the character on that it is in.  Reading a byte keeps the matches that end later,
and the threads that are complete are those that lead to a match that ends where they are.
-/

namespace Thread

/-- Whether a thread at an offset of a text leads to a match of a rule that ends at another one. -/
def Leads (text : Text) (offset rule stop : Nat) : Thread → Prop
  | between own rest => own = rule ∧ rest.Matches text offset stop
  | inside own char set rest => own = rule ∧ ∃ value next, set.contains value = true ∧
      PartialChar.Spells text value char offset next ∧ rest.Matches text next stop

/-- Whether a thread may stand at an offset of a text. -/
def Valid (text : Text) (offset : Nat) : Thread → Prop
  | between _ rest => rest.Satisfiable
  | inside _ char _ rest =>
    rest.Satisfiable ∧ 0 < char.missing ∧ char.Shortest text offset

variable {text : Text} {offset rule stop : Nat}

/-- After a byte of a character, a thread leads to what the pattern matches behind the character,
if it becomes a member of the set. -/
theorem leads_afterByte_iff {own : Nat} {char : Option PartialChar}
    (shortest : ∀ begun ∈ char, begun.Shortest text offset) {set : CharSet} {rest : Pattern} :
    (∃ next ∈ afterByte own char set rest, next.Leads text offset rule stop) ↔
      own = rule ∧ ∃ begun ∈ char, ∃ value next, set.contains value = true ∧
        PartialChar.Spells text value begun offset next ∧ rest.Matches text next stop := by
  cases char with
  | none => exact ⟨nofun, nofun⟩
  | some begun =>
    have least := shortest begun rfl
    simp only [Option.mem_def, Option.some.injEq, exists_eq_left']
    rw [afterByte]
    split
    · next never =>
      refine ⟨nofun, fun ⟨_, value, next, member, spells, _⟩ => ?_⟩
      rw [spells.canBeIn (least value next spells) member] at never
      cases never
    · next possible =>
      have canBeIn : begun.canBeIn set = true := by simpa using possible
      split
      · next complete =>
        have done : PartialChar.Spells text begun.value begun offset offset := .done complete rfl
        simp only [Option.some.injEq, exists_eq_left', Leads]
        refine and_congr_right fun _ => ⟨fun matched => ⟨_, _, ?_, done, matched⟩, ?_⟩
        · exact (PartialChar.canBeIn_iff complete (least _ _ done)).1 canBeIn
        · rintro ⟨value, next, -, spells, matched⟩
          exact (spells.unique done).2 ▸ matched
      · simp only [Option.some.injEq, exists_eq_left', Leads]

theorem valid_of_afterByte {own : Nat} {char : Option PartialChar}
    (shortest : ∀ begun ∈ char, begun.Shortest text offset) {set : CharSet} {rest : Pattern}
    (satisfiable : rest.Satisfiable) :
    ∀ next ∈ afterByte own char set rest, next.Valid text offset := by
  intro next after
  unfold afterByte at after
  split at after
  · cases after
  · next begun =>
    split at after
    · cases after
    · split at after
      · obtain rfl := Option.some.inj after
        exact satisfiable
      · next missing =>
        obtain rfl := Option.some.inj after
        exact ⟨satisfiable, Nat.pos_of_ne_zero missing, shortest begun rfl⟩

/-! ### Reading a byte -/

section Read

variable {source : String} {byte : UInt8}

/-- A byte that begins a character of a head leads to the matches that begin with it. -/
theorem leads_head_iff (found : (Text.ofString source).byte? offset = some byte) {own : Nat}
    (head : CharSet × Pattern) :
    (∃ next ∈ afterByte own (PartialChar.begin byte) head.1 head.2,
        next.Leads (.ofString source) (offset + 1) rule stop) ↔
      own = rule ∧ Pattern.HeadMatches (.ofString source) offset stop head := by
  rw [leads_afterByte_iff fun begun begins => Text.shortest_of_begin found begins]
  refine and_congr_right fun _ => ⟨?_, ?_⟩
  · rintro ⟨begun, begins, value, next, member, spells, matched⟩
    obtain ⟨c, inside, stands⟩ :=
      (Text.exists_hasChar_iff found).2 ⟨begun, begins, value, member, spells⟩
    exact ⟨c, inside, next, stands, matched⟩
  · rintro ⟨c, inside, next, stands, matched⟩
    obtain ⟨begun, begins, value, member, spells⟩ :=
      (Text.exists_hasChar_iff found).1 ⟨c, inside, stands⟩
    exact ⟨begun, begins, value, next, member, spells, matched⟩

/-- A thread leads to what the threads lead to into which it develops, as far as it ends later. -/
theorem leads_read_iff {thread : Thread} (valid : thread.Valid (.ofString source) offset)
    (found : (Text.ofString source).byte? offset = some byte) (further : offset < stop) :
    (∃ next ∈ thread.read ((Text.ofString source).place offset) byte,
        next.Leads (.ofString source) (offset + 1) rule stop) ↔
      thread.Leads (.ofString source) offset rule stop := by
  cases thread with
  | between own rest =>
    rw [Leads, Pattern.matches_iff_heads valid further]
    constructor
    · rintro ⟨next, member, leads⟩
      obtain ⟨head, inside, after⟩ := List.mem_filterMap.1 member
      obtain ⟨same, matched⟩ := (leads_head_iff found head).1 ⟨next, after, leads⟩
      exact ⟨same, head, inside, matched⟩
    · rintro ⟨same, head, inside, matched⟩
      obtain ⟨next, after, leads⟩ := (leads_head_iff found head).2 ⟨same, matched⟩
      exact ⟨next, List.mem_filterMap.2 ⟨head, inside, after⟩, leads⟩
  | inside own char set rest =>
    obtain ⟨-, missing, shortest⟩ := valid
    simp only [read, Option.mem_toList]
    refine (leads_afterByte_iff fun begun extended =>
      shortest.extend missing found extended).trans (and_congr_right fun _ => ⟨?_, ?_⟩)
    · rintro ⟨begun, extended, value, next, member, spells, matched⟩
      exact ⟨value, next, member, .more missing found extended spells, matched⟩
    · rintro ⟨value, next, member, spells, matched⟩
      cases spells with
      | done complete => exact absurd complete (Nat.ne_of_gt missing)
      | more _ sameFound extended spells =>
        obtain rfl := Option.some.inj (found.symm.trans sameFound)
        exact ⟨_, extended, value, next, member, spells, matched⟩

theorem valid_of_mem_read {thread : Thread} (valid : thread.Valid (.ofString source) offset)
    (found : (Text.ofString source).byte? offset = some byte) (place : Place) :
    ∀ next ∈ thread.read place byte, next.Valid (.ofString source) (offset + 1) := by
  intro next member
  cases thread with
  | between own rest =>
    obtain ⟨head, inside, after⟩ := List.mem_filterMap.1 member
    exact valid_of_afterByte (fun begun begins => Text.shortest_of_begin found begins)
      (Pattern.satisfiable_of_mem_heads valid inside) next after
  | inside own char set rest =>
    obtain ⟨satisfiable, missing, shortest⟩ := valid
    exact valid_of_afterByte (fun begun extended => shortest.extend missing found extended)
      satisfiable next (Option.mem_toList.1 member)

end Read

/-- A thread is complete where it leads to a match that ends there. -/
theorem completed?_eq_some_iff {thread : Thread} (valid : thread.Valid text offset) :
    thread.completed? (text.place offset) = some rule ↔ thread.Leads text offset rule offset := by
  cases thread with
  | between own rest =>
    rw [completed?, Leads, ← Pattern.acceptsEmpty_iff valid]
    split
    · next empty => simp [empty]
    · next never => simp [never]
  | inside own char set rest =>
    constructor
    · intro never
      cases never
    rintro ⟨-, value, next, -, spells, matched⟩
    have last := spells.stop_eq
    have missing := valid.2.1
    have order := matched.le
    omega

theorem mem_completed_iff {threads : List Thread}
    (valid : ∀ thread ∈ threads, thread.Valid text offset) :
    rule ∈ completed (text.place offset) threads ↔
      ∃ thread ∈ threads, thread.Leads text offset rule offset := by
  rw [completed, List.mem_eraseDups, List.mem_filterMap]
  exact exists_congr fun thread => and_congr_right fun member =>
    completed?_eq_some_iff (valid thread member)

/-- At the end of a text no thread leads further. -/
theorem not_leads_of_byte?_eq_none {thread : Thread} (valid : thread.Valid text offset)
    (ended : text.byte? offset = none) (further : offset < stop) :
    ¬thread.Leads text offset rule stop := by
  cases thread with
  | between own rest =>
    rintro ⟨-, matched⟩
    obtain ⟨head, -, c, -, next, stands, -⟩ := (Pattern.matches_iff_heads valid further).1 matched
    obtain ⟨byte, -, found, -⟩ := stands.spells
    rw [ended] at found
    cases found
  | inside own char set rest =>
    rintro ⟨-, value, next, -, spells, -⟩
    cases spells with
    | done complete => exact absurd complete (Nat.ne_of_gt valid.2.1)
    | more _ found =>
      rw [ended] at found
      cases found

end Thread

/-! ## All threads of a scan -/

theorem nodup_eraseDups {α : Type} [BEq α] [LawfulBEq α] (entries : List α) :
    entries.eraseDups.Nodup := by
  induction size : entries.length using Nat.strongRecOn generalizing entries with
  | ind size induction =>
    cases entries with
    | nil => exact List.nodup_nil
    | cons first rest =>
      rw [List.eraseDups_cons, List.nodup_cons, List.mem_eraseDups]
      refine ⟨by simp, induction _ ?_ _ rfl⟩
      rw [← size]
      exact Nat.lt_succ_of_le (List.length_filter_le _ _)

namespace Thread

theorem leads_readAll_iff {source : String} {offset rule stop : Nat} {byte : UInt8}
    {threads : List Thread} (valid : ∀ thread ∈ threads, thread.Valid (.ofString source) offset)
    (found : (Text.ofString source).byte? offset = some byte) (further : offset < stop) :
    (∃ next ∈ readAll ((Text.ofString source).place offset) byte threads,
        next.Leads (.ofString source) (offset + 1) rule stop) ↔
      ∃ thread ∈ threads, thread.Leads (.ofString source) offset rule stop := by
  simp only [readAll, List.mem_eraseDups, List.mem_flatMap]
  constructor
  · rintro ⟨next, ⟨thread, member, inside⟩, leads⟩
    exact ⟨thread, member, (leads_read_iff (valid thread member) found further).1
      ⟨next, inside, leads⟩⟩
  · rintro ⟨thread, member, leads⟩
    obtain ⟨next, inside, later⟩ := (leads_read_iff (valid thread member) found further).2 leads
    exact ⟨next, ⟨thread, member, inside⟩, later⟩

theorem valid_of_mem_readAll {source : String} {offset : Nat} {byte : UInt8}
    {threads : List Thread} (valid : ∀ thread ∈ threads, thread.Valid (.ofString source) offset)
    (found : (Text.ofString source).byte? offset = some byte) (place : Place) :
    ∀ next ∈ readAll place byte threads, next.Valid (.ofString source) (offset + 1) := by
  intro next member
  simp only [readAll, List.mem_eraseDups, List.mem_flatMap] at member
  obtain ⟨thread, known, inside⟩ := member
  exact valid_of_mem_read (valid thread known) found place next inside

end Thread

namespace Scan

variable {text : Text} {start offset rule stop remaining : Nat} {threads : List Thread}

theorem mem_reported_iff {rules : List Nat} :
    (rule, stop) ∈ reported start offset rules ↔ start < stop ∧ offset = stop ∧ rule ∈ rules := by
  unfold reported
  split
  · simp only [List.mem_map, Prod.mk.injEq]
    constructor
    · rintro ⟨_, member, rfl, rfl⟩
      exact ⟨‹_›, rfl, member⟩
    · rintro ⟨-, rfl, member⟩
      exact ⟨rule, member, rfl, rfl⟩
  · refine ⟨fun never => absurd never List.not_mem_nil, ?_⟩
    rintro ⟨further, rfl, -⟩
    contradiction

theorem matched_runFrom_zero (ended : text.byte? offset = none) :
    (runFrom text start offset threads 0).matched =
      reported start offset (Thread.completed (text.place offset) threads) := by
  rw [runFrom, Text.place, ended]
  rfl

/-- No threads find nothing. -/
theorem matched_runFrom_nil : (runFrom text start offset [] remaining).matched = [] := by
  cases remaining with
  | zero =>
    rw [runFrom]
    exact ite_self _
  | succ remaining => rw [runFrom_of_stops rfl ⟨rfl, rfl⟩]

/-- A scan that comes to nothing could as well go on. -/
theorem matched_runFrom_succ {byte : UInt8} (found : text.byte? offset = some byte) :
    (runFrom text start offset threads (remaining + 1)).matched =
      reported start offset (Thread.completed (text.place offset) threads) ++
        (runFrom text start (offset + 1)
          (Thread.readAll (text.place offset) byte threads) remaining).matched := by
  have here : (text.byte? offset).getD 0 = byte := by rw [found, Option.getD_some]
  rw [Text.place, found]
  by_cases stops : Stops text offset byte threads
  · rw [runFrom_of_stops here stops, stops.1, stops.2, matched_runFrom_nil, List.append_nil]
    exact (ite_self []).symm
  · rw [runFrom_of_goes here stops]

/-- The bytes that remain are those from the offset on. -/
theorem exists_byte_of_remaining (room : remaining + 1 = text.size - offset) :
    ∃ byte, text.byte? offset = some byte :=
  Text.lt_size_iff.1 (by omega)

theorem le_of_mem_runFrom (room : remaining = text.size - offset)
    (member : (rule, stop) ∈ (runFrom text start offset threads remaining).matched) :
    offset ≤ stop := by
  induction remaining generalizing offset threads with
  | zero =>
    rw [matched_runFrom_zero (Text.byte?_eq_none_iff.2 (by omega))] at member
    exact Nat.le_of_eq (mem_reported_iff.1 member).2.1
  | succ remaining induction =>
    obtain ⟨byte, found⟩ := exists_byte_of_remaining room
    rw [matched_runFrom_succ found, List.mem_append] at member
    rcases member with here | later
    · exact Nat.le_of_eq (mem_reported_iff.1 here).2.1
    · exact Nat.le_of_succ_le (induction (by omega) later)

theorem mem_reported_completed_iff (valid : ∀ thread ∈ threads, thread.Valid text offset) :
    (rule, stop) ∈ reported start offset (Thread.completed (text.place offset) threads) ↔
      start < stop ∧ offset = stop ∧ ∃ thread ∈ threads, thread.Leads text offset rule stop := by
  rw [mem_reported_iff, Thread.mem_completed_iff valid]
  refine and_congr_right fun _ => and_congr_right fun same => ?_
  rw [same]

/-- A run reports the matches to which its threads lead. -/
theorem mem_runFrom_iff {source : String}
    (valid : ∀ thread ∈ threads, thread.Valid (.ofString source) offset)
    (room : remaining = (Text.ofString source).size - offset) :
    (rule, stop) ∈ (runFrom (.ofString source) start offset threads remaining).matched ↔
      start < stop ∧ offset ≤ stop ∧
        ∃ thread ∈ threads, thread.Leads (.ofString source) offset rule stop := by
  induction remaining generalizing offset threads with
  | zero =>
    have ended : (Text.ofString source).byte? offset = none :=
      Text.byte?_eq_none_iff.2 (by omega)
    rw [matched_runFrom_zero ended, mem_reported_completed_iff valid]
    refine and_congr_right fun _ => ⟨fun ⟨same, leads⟩ => ⟨Nat.le_of_eq same, leads⟩, ?_⟩
    rintro ⟨order, thread, member, leads⟩
    refine ⟨Nat.le_antisymm order (Nat.le_of_not_lt fun further => ?_), thread, member, leads⟩
    exact Thread.not_leads_of_byte?_eq_none (valid thread member) ended further leads
  | succ remaining induction =>
    obtain ⟨byte, found⟩ := exists_byte_of_remaining room
    rw [matched_runFrom_succ found, List.mem_append, mem_reported_completed_iff valid,
      induction (Thread.valid_of_mem_readAll valid found _) (by omega), ← and_or_left]
    refine and_congr_right fun _ => ?_
    constructor
    · rintro (⟨same, leads⟩ | ⟨further, leads⟩)
      · exact ⟨Nat.le_of_eq same, leads⟩
      · exact ⟨Nat.le_of_succ_le further, (Thread.leads_readAll_iff valid found further).1 leads⟩
    · rintro ⟨order, leads⟩
      rcases Nat.eq_or_lt_of_le order with same | further
      · exact .inl ⟨same, leads⟩
      · exact .inr ⟨further, (Thread.leads_readAll_iff valid found further).2 leads⟩

/-- A run reports no match twice, and those that end first come first. -/
theorem ordered_runFrom (room : remaining = text.size - offset) :
    (runFrom text start offset threads remaining).matched.Nodup ∧
      (runFrom text start offset threads remaining).matched.Pairwise fun first second =>
        first.2 ≤ second.2 := by
  have here : ∀ (offset : Nat) (place : Place) (threads : List Thread),
      (reported start offset (Thread.completed place threads)).Nodup ∧
        (reported start offset (Thread.completed place threads)).Pairwise
          fun first second => first.2 ≤ second.2 := by
    intro offset place threads
    unfold reported
    split
    · exact ⟨List.Nodup.map (fun _ _ same => (Prod.mk.inj same).1) (nodup_eraseDups _),
        List.pairwise_map.2 (List.pairwise_of_forall fun _ _ => Nat.le_refl offset)⟩
    · exact ⟨List.nodup_nil, List.Pairwise.nil⟩
  induction remaining generalizing offset threads with
  | zero =>
    rw [matched_runFrom_zero (Text.byte?_eq_none_iff.2 (by omega))]
    exact here offset _ threads
  | succ remaining induction =>
    obtain ⟨byte, found⟩ := exists_byte_of_remaining room
    rw [matched_runFrom_succ found]
    obtain ⟨distinct, order⟩ := here offset (text.place offset) threads
    obtain ⟨laterDistinct, laterOrder⟩ := @induction (offset + 1)
      (Thread.readAll (text.place offset) byte threads) (by omega)
    have apart : ∀ first ∈ reported start offset (Thread.completed (text.place offset) threads),
        ∀ second ∈ (runFrom text start (offset + 1)
          (Thread.readAll (text.place offset) byte threads) remaining).matched,
        first.2 < second.2 := by
      intro first member second later
      have same := (mem_reported_iff.1 member).2.1
      have further := le_of_mem_runFrom (by omega) later
      omega
    exact ⟨List.nodup_append.2 ⟨distinct, laterDistinct, fun first member second later same =>
        absurd (congrArg Prod.snd same) (Nat.ne_of_lt (apart first member second later))⟩,
      List.pairwise_append.2 ⟨order, laterOrder, fun first member second later =>
        Nat.le_of_lt (apart first member second later)⟩⟩

/-- A scan reports exactly the matches of its patterns that are not empty, each once and those that
end first before the others. -/
theorem run_exact {patterns : List Pattern}
    (satisfiable : ∀ pattern ∈ patterns, pattern.Satisfiable) (source : String) (offset : Nat) :
    (∀ rule stop, (rule, stop) ∈ (run patterns (.ofString source) offset).matched ↔
        offset < stop ∧ ∃ pattern, patterns[rule]? = some pattern ∧
          pattern.Matches (.ofString source) offset stop) ∧
      (run patterns (.ofString source) offset).matched.Nodup ∧
      (run patterns (.ofString source) offset).matched.Pairwise fun first second =>
        first.2 ≤ second.2 := by
  unfold run
  split
  · next none =>
    obtain rfl := List.isEmpty_iff.1 none
    exact ⟨fun rule stop => ⟨fun never => absurd never List.not_mem_nil, nofun⟩, List.nodup_nil,
      List.Pairwise.nil⟩
  · refine ⟨fun rule stop => ?_, ordered_runFrom rfl⟩
    have valid : ∀ thread ∈ startThreads patterns, thread.Valid (.ofString source) offset := by
      intro thread member
      obtain ⟨⟨pattern, own⟩, entry, rfl⟩ := List.mem_map.1 member
      exact satisfiable pattern (List.mem_of_getElem? (List.mk_mem_zipIdx_iff_getElem?.1 entry))
    rw [mem_runFrom_iff valid rfl]
    refine and_congr_right fun further => ⟨?_, ?_⟩
    · rintro ⟨-, thread, member, leads⟩
      obtain ⟨⟨pattern, own⟩, entry, rfl⟩ := List.mem_map.1 member
      obtain ⟨rfl, matched⟩ := leads
      exact ⟨pattern, List.mk_mem_zipIdx_iff_getElem?.1 entry, matched⟩
    · rintro ⟨pattern, known, matched⟩
      exact ⟨Nat.le_of_lt further, .between rule pattern,
        List.mem_map.2 ⟨(pattern, rule), List.mk_mem_zipIdx_iff_getElem?.2 known, rfl⟩,
        rfl, matched⟩

end Scan

end IncrementalGlr
