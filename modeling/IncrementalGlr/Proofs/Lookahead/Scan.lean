import IncrementalGlr.Pattern.Scan
import Mathlib.Data.List.Basic

/-!
# What decides a scan

Patterns that do not look behind a place are matched by what stands after it.  A scan of such
patterns says how far it has looked, and nothing after that matters: where the same bytes stand as
far as it has looked, the same matches are found.
-/

namespace IncrementalGlr

/-- Whether the same stands after two places. -/
structure Place.SameAhead (left right : Place) : Prop where
  /-- The bytes after the places are the same. -/
  after : left.after = right.after
  /-- The characters after the places are alike. -/
  wordAfter : left.wordAfter = right.wordAfter

namespace Assertion

/-- Whether the assertion depends on what stands before the place.  A line end does if the line feed
of a line that ends with two characters must not be taken for a line end of its own. -/
def looksBehind : Assertion → Bool
  | textEnd => false
  | lineEnd => false
  | word .stopHalf _ => false
  | _ => true

theorem holds_congr {assertion : Assertion} (ahead : assertion.looksBehind = false)
    {left right : Place} (same : left.SameAhead right) :
    assertion.holds left = assertion.holds right := by
  cases assertion with
  | textEnd => exact congrArg (· == none) same.after
  | lineEnd => simp only [holds, same.after]
  | word edge allScripts =>
      cases edge <;> cases ahead
      cases allScripts
      · exact congrArg (fun after => !Place.isWordAt after) same.after
      · exact congrArg (!·) same.wordAfter
  | textStart => cases ahead
  | lineStart => cases ahead
  | returnLineStart => cases ahead
  | returnLineEnd => cases ahead

/-- The assertions that look behind are those that tell places apart of which the same stands after
them. -/
theorem looksBehind_iff {assertion : Assertion} : assertion.looksBehind = true ↔
    ∃ before other after, assertion.holds (.ofBytes before after) ≠
      assertion.holds (.ofBytes other after) := by
  constructor
  · intro behind
    cases assertion with
    | textEnd => cases behind
    | lineEnd => cases behind
    | textStart => exact ⟨none, some 97, none, by decide⟩
    | lineStart => exact ⟨none, some 97, none, by decide⟩
    | returnLineStart => exact ⟨none, some 97, none, by decide⟩
    | returnLineEnd => exact ⟨some 13, some 97, some 10, by decide⟩
    | word edge allScripts =>
        cases edge with
        | stopHalf => cases behind
        | start => exact ⟨none, some 97, some 97, by cases allScripts <;> decide⟩
        | boundary => exact ⟨none, some 97, none, by cases allScripts <;> decide⟩
        | interior => exact ⟨none, some 97, none, by cases allScripts <;> decide⟩
        | stop => exact ⟨none, some 97, none, by cases allScripts <;> decide⟩
        | startHalf => exact ⟨none, some 97, none, by cases allScripts <;> decide⟩
  · rintro ⟨before, other, after, differ⟩
    rw [← Bool.not_eq_false]
    exact fun ahead => differ (holds_congr ahead ⟨rfl, rfl⟩)

end Assertion

namespace Pattern

/-- Whether an assertion of the pattern looks behind its place. -/
def looksBehind : Pattern → Bool
  | empty => false
  | chars _ => false
  | look assertion => assertion.looksBehind
  | seq first second => first.looksBehind || second.looksBehind
  | either first second => first.looksBehind || second.looksBehind
  | repetition _ _ body => body.looksBehind

theorem looksBehind_followedBy {first second : Pattern} (firstAhead : first.looksBehind = false)
    (secondAhead : second.looksBehind = false) : (first.followedBy second).looksBehind = false := by
  unfold followedBy
  split
  · exact secondAhead
  · exact firstAhead
  · rw [looksBehind, firstAhead, secondAhead]
    rfl

theorem looksBehind_repeated {body : Pattern} (ahead : body.looksBehind = false) (least : Nat)
    (greatest : Option Nat) : (body.repeated least greatest).looksBehind = false := by
  unfold repeated
  split
  · rfl
  · split
    · exact ahead
    · exact ahead

variable {left right : Place}

theorem acceptsEmpty_congr {pattern : Pattern} (ahead : pattern.looksBehind = false)
    (same : left.SameAhead right) : pattern.acceptsEmpty left = pattern.acceptsEmpty right := by
  induction pattern with
  | empty => rfl
  | chars set => rfl
  | look assertion => exact Assertion.holds_congr ahead same
  | seq first second firstSame secondSame =>
      rw [looksBehind, Bool.or_eq_false_iff] at ahead
      rw [acceptsEmpty, acceptsEmpty, firstSame ahead.1, secondSame ahead.2]
  | either first second firstSame secondSame =>
      rw [looksBehind, Bool.or_eq_false_iff] at ahead
      rw [acceptsEmpty, acceptsEmpty, firstSame ahead.1, secondSame ahead.2]
  | repetition least greatest body bodySame =>
      rw [acceptsEmpty, acceptsEmpty, bodySame ahead]

theorem heads_congr {pattern : Pattern} (ahead : pattern.looksBehind = false)
    (same : left.SameAhead right) : pattern.heads left = pattern.heads right := by
  induction pattern with
  | empty => rfl
  | chars set => rfl
  | look assertion => rfl
  | seq first second firstSame secondSame =>
      rw [looksBehind, Bool.or_eq_false_iff] at ahead
      rw [heads, heads, firstSame ahead.1, secondSame ahead.2, acceptsEmpty_congr ahead.1 same]
  | either first second firstSame secondSame =>
      rw [looksBehind, Bool.or_eq_false_iff] at ahead
      rw [heads, heads, firstSame ahead.1, secondSame ahead.2]
  | repetition least greatest body bodySame =>
      have bodyAhead : body.looksBehind = false := ahead
      rw [heads, heads, bodySame bodyAhead, acceptsEmpty_congr bodyAhead same]

/-- What is left of a pattern after its first character does not look behind either. -/
theorem looksBehind_of_mem_heads {pattern : Pattern} (ahead : pattern.looksBehind = false)
    {place : Place} {head : CharSet × Pattern} (member : head ∈ pattern.heads place) :
    head.2.looksBehind = false := by
  induction pattern generalizing head with
  | empty => exact absurd member List.not_mem_nil
  | chars set =>
      rw [heads, List.mem_singleton] at member
      rw [member]
      rfl
  | look assertion => exact absurd member List.not_mem_nil
  | seq first second ofFirst ofSecond =>
      rw [looksBehind, Bool.or_eq_false_iff] at ahead
      rw [heads, List.mem_append, List.mem_map] at member
      rcases member with ⟨inner, innerMember, rfl⟩ | member
      · exact looksBehind_followedBy (ofFirst ahead.1 innerMember) ahead.2
      · split at member
        · exact ofSecond ahead.2 member
        · exact absurd member List.not_mem_nil
  | either first second ofFirst ofSecond =>
      rw [looksBehind, Bool.or_eq_false_iff] at ahead
      rw [heads, List.mem_append] at member
      exact member.elim (ofFirst ahead.1) (ofSecond ahead.2)
  | repetition least greatest body ofBody =>
      rw [heads] at member
      split at member
      · exact absurd member List.not_mem_nil
      · obtain ⟨inner, innerMember, rfl⟩ := List.mem_map.1 member
        have bodyAhead : body.looksBehind = false := ahead
        exact looksBehind_followedBy (ofBody bodyAhead innerMember)
          (looksBehind_repeated bodyAhead _ _)

end Pattern

namespace Thread

/-- What a thread still has to match. -/
def rest : Thread → Pattern
  | between _ rest => rest
  | inside _ _ _ rest => rest

/-- Whether no thread looks behind its place. -/
def AllAhead (threads : List Thread) : Prop := ∀ thread ∈ threads, thread.rest.looksBehind = false

theorem rest_of_afterByte {rule : Nat} {char : Option PartialChar} {set : CharSet}
    {pattern : Pattern} {next : Thread} (after : afterByte rule char set pattern = some next) :
    next.rest = pattern := by
  unfold afterByte at after
  split at after
  · cases after
  · split at after
    · cases after
    · split at after
      · rw [← Option.some.inj after]
        rfl
      · rw [← Option.some.inj after]
        rfl

variable {left right : Place} {threads : List Thread}

theorem completed_congr (ahead : AllAhead threads) (same : left.SameAhead right) :
    completed left threads = completed right threads := by
  unfold completed
  refine congrArg List.eraseDups (List.filterMap_congr fun thread member => ?_)
  cases thread with
  | between rule rest =>
      have restAhead : rest.looksBehind = false := ahead _ member
      rw [completed?, completed?, Pattern.acceptsEmpty_congr restAhead same]
  | inside rule char set rest => rfl

theorem readAll_congr (ahead : AllAhead threads) (same : left.SameAhead right) (byte : UInt8) :
    readAll left byte threads = readAll right byte threads := by
  unfold readAll
  refine congrArg List.eraseDups (List.flatMap_congr fun thread member => ?_)
  cases thread with
  | between rule rest =>
      have restAhead : rest.looksBehind = false := ahead _ member
      rw [read, read, Pattern.heads_congr restAhead same]
  | inside rule char set rest => rfl

theorem AllAhead.readAll (ahead : AllAhead threads) (place : Place) (byte : UInt8) :
    AllAhead (readAll place byte threads) := by
  intro next member
  simp only [Thread.readAll, List.mem_eraseDups, List.mem_flatMap] at member
  obtain ⟨thread, threadMember, inside⟩ := member
  cases thread with
  | between rule rest =>
      simp only [read, List.mem_filterMap] at inside
      obtain ⟨head, headMember, after⟩ := inside
      rw [rest_of_afterByte after]
      exact Pattern.looksBehind_of_mem_heads (ahead _ threadMember) headMember
  | inside rule char set rest =>
      simp only [read, Option.mem_toList] at inside
      rw [rest_of_afterByte inside]
      exact ahead _ threadMember

end Thread

namespace Text

/-- Whether two texts agree on a number of bytes from two offsets on; the ends of both count like
bytes. -/
def Agree (left : Text) (offset : Nat) (right : Text) (other count : Nat) : Prop :=
  ∀ index < count, left.byte? (offset + index) = right.byte? (other + index)

variable {left right : Text} {offset other count : Nat}

theorem Agree.take (agree : left.Agree offset right other count) {fewer : Nat}
    (less : fewer ≤ count) : left.Agree offset right other fewer :=
  fun index inside => agree index (Nat.lt_of_lt_of_le inside less)

theorem Agree.first (agree : left.Agree offset right other count) (some_ : 0 < count) :
    left.byte? offset = right.byte? other :=
  agree 0 some_

theorem Agree.next (agree : left.Agree offset right other count) :
    left.Agree (offset + 1) right (other + 1) (count - 1) := by
  intro index inside
  rw [Nat.add_right_comm offset, Nat.add_right_comm other]
  exact agree (index + 1) (Nat.add_lt_of_lt_sub inside)

theorem byte?_eq_none_iff : left.byte? offset = none ↔ left.size ≤ offset := by
  simp [byte?, size]

theorem lt_size_iff : offset < left.size ↔ ∃ byte, left.byte? offset = some byte := by
  rw [← Option.isSome_iff_exists, Option.isSome_iff_ne_none, ne_eq, byte?_eq_none_iff, Nat.not_le]

end Text

namespace Scan

variable {text left right : Text} {start offset otherStart other remaining : Nat}
  {threads : List Thread}

theorem placeAt_sameAhead (left right : Text) (offset other : Nat) (after : Option UInt8) :
    (placeAt left offset after).SameAhead (placeAt right other after) :=
  ⟨rfl, rfl⟩

/-- The matches of rules that end at an offset; empty ones are left out. -/
def reported (start offset : Nat) (rules : List Nat) : List (Nat × Nat) :=
  if start < offset then rules.map (·, offset) else []

section Step

variable {byte : UInt8}

/-- Whether threads come to nothing at a byte: none is complete before it and none goes on. -/
def Stops (text : Text) (offset : Nat) (byte : UInt8) (threads : List Thread) : Prop :=
  Thread.completed (placeAt text offset (some byte)) threads = [] ∧
    Thread.readAll (placeAt text offset (some byte)) byte threads = []

theorem runFrom_of_stops (here : (text.byte? offset).getD 0 = byte)
    (stops : Stops text offset byte threads) :
    runFrom text start offset threads (remaining + 1) =
      ⟨[], if isFutile text offset threads then offset else offset + 1⟩ := by
  rw [runFrom]
  simp only [here, stops.1, stops.2, List.isEmpty_nil, Bool.and_self, if_true, List.map_nil,
    ite_self]

theorem runFrom_of_goes (here : (text.byte? offset).getD 0 = byte)
    (goes : ¬Stops text offset byte threads) :
    runFrom text start offset threads (remaining + 1) =
      let later := runFrom text start (offset + 1)
        (Thread.readAll (placeAt text offset (some byte)) byte threads) remaining
      ⟨reported start offset (Thread.completed (placeAt text offset (some byte)) threads) ++
        later.matched, later.examined⟩ := by
  rw [runFrom, here]
  dsimp only
  rw [if_neg]
  · rfl
  · rwa [Bool.and_eq_true, List.isEmpty_iff, List.isEmpty_iff]

end Step

/-- A scan has looked at least as far as it has come. -/
theorem le_examined_runFrom : offset ≤ (runFrom text start offset threads remaining).examined := by
  induction remaining generalizing offset threads with
  | zero => exact Nat.le_succ offset
  | succ remaining induction =>
      by_cases stops : Stops text offset ((text.byte? offset).getD 0) threads
      · rw [runFrom_of_stops rfl stops]
        dsimp only
        split
        · exact Nat.le_refl offset
        · exact Nat.le_succ offset
      · rw [runFrom_of_goes rfl stops]
        exact Nat.le_of_succ_le induction

/-- A match lies in what has been looked at. -/
theorem le_examined_of_matched {found : Nat × Nat}
    (member : found ∈ (runFrom text start offset threads remaining).matched) :
    found.2 ≤ (runFrom text start offset threads remaining).examined := by
  have here : ∀ {offset : Nat} {rules : List Nat}, found ∈ reported start offset rules →
      found.2 = offset := by
    intro offset rules member
    unfold reported at member
    split at member
    · obtain ⟨rule, -, rfl⟩ := List.mem_map.1 member
      rfl
    · exact absurd member List.not_mem_nil
  induction remaining generalizing offset threads with
  | zero =>
      have same : found.2 = offset := here member
      exact same ▸ Nat.le_succ offset
  | succ remaining induction =>
      by_cases stops : Stops text offset ((text.byte? offset).getD 0) threads
      · rw [runFrom_of_stops rfl stops] at member
        exact absurd member List.not_mem_nil
      · rw [runFrom_of_goes rfl stops] at member ⊢
        rcases List.mem_append.1 member with reported | later
        · rw [here reported]
          exact Nat.le_of_succ_le le_examined_runFrom
        · exact induction later

/-- If no byte and not even the end of the text makes a difference to threads, nothing is found with
them. -/
theorem matched_of_futile (ahead : Thread.AllAhead threads)
    (futile : isFutile left offset threads = true) :
    (runFrom right otherStart other threads remaining).matched = [] := by
  unfold isFutile at futile
  rw [Bool.and_eq_true, List.isEmpty_iff, List.all_eq_true] at futile
  obtain ⟨atEnd, atByte⟩ := futile
  cases remaining with
  | zero =>
      rw [Thread.completed_congr ahead (placeAt_sameAhead left right offset other none)] at atEnd
      unfold runFrom
      rw [atEnd]
      exact ite_self []
  | succ remaining =>
      generalize here : (right.byte? other).getD 0 = byte
      have nothing := atByte byte.toNat (List.mem_range.2 byte.toNat_lt)
      rw [UInt8.ofNat_toNat, Bool.and_eq_true, List.isEmpty_iff, List.isEmpty_iff] at nothing
      have places := placeAt_sameAhead left right offset other (some byte)
      have stops : Stops right other byte threads :=
        ⟨Thread.completed_congr ahead places ▸ nothing.1,
          Thread.readAll_congr ahead places byte ▸ nothing.2⟩
      rw [runFrom_of_stops here stops]

/-- A scan that more of the text may influence has looked at the next byte. -/
theorem lt_examined_runFrom (decisive : isFutile text offset threads = false) :
    offset < (runFrom text start offset threads remaining).examined := by
  cases remaining with
  | zero => exact Nat.lt_succ_self offset
  | succ remaining =>
      by_cases stops : Stops text offset ((text.byte? offset).getD 0) threads
      · rw [runFrom_of_stops rfl stops, decisive]
        exact Nat.lt_succ_self offset
      · rw [runFrom_of_goes rfl stops]
        exact le_examined_runFrom

/-- A match moved along with the start of the scan. -/
def moved (start otherStart : Nat) (found : Nat × Nat) : Nat × Nat :=
  (found.1, found.2 - start + otherStart)

theorem reported_moved (start otherStart distance : Nat) (rules : List Nat) :
    reported otherStart (otherStart + distance) rules =
      (reported start (start + distance) rules).map (moved start otherStart) := by
  unfold reported
  cases distance with
  | zero => simp
  | succ distance =>
      rw [if_pos (Nat.lt_add_of_pos_right (Nat.succ_pos distance)),
        if_pos (Nat.lt_add_of_pos_right (Nat.succ_pos distance)), List.map_map]
      refine List.map_congr_left fun rule _ => ?_
      rw [Function.comp_apply, moved, Nat.add_sub_cancel_left, Nat.add_comm]

/-- Where a text agrees with another one as far as a scan of the latter has looked, the same matches
are found. -/
theorem runFrom_matched_eq (ahead : Thread.AllAhead threads) {distance : Nat}
    (agree : left.Agree (start + distance) right (otherStart + distance)
      ((runFrom left start (start + distance) threads remaining).examined - (start + distance)))
    (inside : left.size = start + distance + remaining) :
    (runFrom right otherStart (otherStart + distance) threads
        (right.size - (otherStart + distance))).matched =
      (runFrom left start (start + distance) threads remaining).matched.map
        (moved start otherStart) := by
  induction remaining generalizing distance threads with
  | zero =>
      have ended := agree.first (Nat.sub_pos_of_lt (Nat.lt_succ_self _))
      rw [Text.byte?_eq_none_iff.2 (Nat.le_of_eq inside : _ ≤ start + distance), eq_comm,
        Text.byte?_eq_none_iff] at ended
      rw [Nat.sub_eq_zero_of_le ended]
      unfold runFrom
      rw [Thread.completed_congr ahead (placeAt_sameAhead right left _ (start + distance) none)]
      exact reported_moved start otherStart distance _
  | succ remaining induction =>
      cases futile : isFutile left (start + distance) threads with
      | true => rw [matched_of_futile ahead futile, matched_of_futile ahead futile]; rfl
      | false =>
          -- The next byte has been looked at, so both texts have it.
          have same := agree.first (Nat.sub_pos_of_lt (lt_examined_runFrom futile))
          obtain ⟨byte, here⟩ := Text.lt_size_iff.1 (show start + distance < left.size by omega)
          have there := same.symm.trans here
          have further : right.size - (otherStart + distance) =
              right.size - (otherStart + (distance + 1)) + 1 := by
            have := Text.lt_size_iff.2 ⟨byte, there⟩
            omega
          replace here : (left.byte? (start + distance)).getD 0 = byte := by rw [here]; rfl
          replace there : (right.byte? (otherStart + distance)).getD 0 = byte := by rw [there]; rfl
          have places := placeAt_sameAhead right left (otherStart + distance) (start + distance)
            (some byte)
          have found := Thread.completed_congr ahead places
          have next := Thread.readAll_congr ahead places byte
          have alike : Stops right (otherStart + distance) byte threads ↔
              Stops left (start + distance) byte threads := by
            unfold Stops
            rw [found, next]
          rw [further]
          by_cases stops : Stops left (start + distance) byte threads
          · rw [runFrom_of_stops here stops, runFrom_of_stops there (alike.2 stops)]
            rfl
          · rw [runFrom_of_goes here stops] at agree ⊢
            rw [runFrom_of_goes there (mt alike.1 stops)]
            dsimp only at agree ⊢
            rw [found, next, List.map_append, ← reported_moved]
            have size : left.size = start + (distance + 1) + remaining := by omega
            exact congrArg _ (induction (ahead.readAll _ byte) agree.next size)

theorem allAhead_startThreads {patterns : List Pattern}
    (ahead : ∀ pattern ∈ patterns, pattern.looksBehind = false) :
    Thread.AllAhead (startThreads patterns) := by
  intro thread member
  obtain ⟨⟨pattern, rule⟩, entry, rfl⟩ := List.mem_map.1 member
  exact ahead pattern (List.fst_mem_of_mem_zipIdx entry)

/-- A scan of patterns that do not look behind depends on nothing but what it has looked at. -/
theorem run_matched_eq {patterns : List Pattern}
    (ahead : ∀ pattern ∈ patterns, pattern.looksBehind = false) (inside : start ≤ left.size)
    (agree : left.Agree start right otherStart ((run patterns left start).examined - start)) :
    (run patterns right otherStart).matched =
      (run patterns left start).matched.map (moved start otherStart) := by
  unfold run at agree ⊢
  split
  · rfl
  · next some_ =>
      rw [if_neg some_] at agree
      have fromStart : left.Agree (start + 0) right (otherStart + 0) _ := agree
      exact runFrom_matched_eq (allAhead_startThreads ahead) fromStart (by omega)

theorem le_examined_of_mem_run {patterns : List Pattern} {found : Nat × Nat}
    (member : found ∈ (run patterns text start).matched) :
    found.2 ≤ (run patterns text start).examined := by
  unfold run at member ⊢
  split at member
  · exact absurd member List.not_mem_nil
  · next some_ =>
      rw [if_neg some_]
      exact le_examined_of_matched member

end Scan

end IncrementalGlr
