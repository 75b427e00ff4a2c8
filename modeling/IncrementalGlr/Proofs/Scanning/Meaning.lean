import IncrementalGlr.Pattern.Scan
import Mathlib.Data.List.Basic

/-!
# What patterns match

A pattern matches a part of a text between two offsets.  Its derivatives tell the same: it matches
the empty part at a place if it accepts the empty text there, and a match that is not empty begins
with a character of one of its heads and goes on with what follows that head.
-/

namespace IncrementalGlr

/-- Whether a relation between offsets leads from one to another in a number of steps. -/
def Iterates (relation : Nat → Nat → Prop) : Nat → Nat → Nat → Prop
  | 0, start, stop => start = stop
  | count + 1, start, stop =>
    ∃ middle, relation start middle ∧ Iterates relation count middle stop

namespace Text

/-- Whether the encoding of a character stands between two offsets of a text. -/
def HasChar (text : Text) (c : Char) (start stop : Nat) : Prop :=
  stop = start + (String.utf8EncodeChar c).length ∧
    String.utf8EncodeChar c <+: text.bytes.data.toList.drop start

/-- The place at an offset of a text. -/
def place (text : Text) (offset : Nat) : Place := Scan.placeAt text offset (text.byte? offset)

theorem HasChar.lt {text : Text} {c : Char} {start stop : Nat}
    (stands : text.HasChar c start stop) : start < stop := by
  rw [stands.1]
  exact Nat.lt_add_of_pos_right (List.length_pos_of_ne_nil String.utf8EncodeChar_ne_nil)

end Text

namespace Pattern

/-- Whether the pattern matches the part of a text between two offsets. -/
def Matches (text : Text) : Pattern → Nat → Nat → Prop
  | empty, start, stop => start = stop
  | chars set, start, stop => ∃ c : Char, set.contains c.toNat = true ∧ text.HasChar c start stop
  | look assertion, start, stop => start = stop ∧ assertion.holds (text.place start) = true
  | seq first second, start, stop =>
    ∃ middle, first.Matches text start middle ∧ second.Matches text middle stop
  | either first second, start, stop =>
    first.Matches text start stop ∨ second.Matches text start stop
  | repetition least greatest body, start, stop =>
    ∃ count, (least ≤ count ∧ ∀ most ∈ greatest, count ≤ most) ∧
      Iterates (body.Matches text) count start stop

/-- Whether every repetition in the pattern can have as many matches as it needs. -/
def Satisfiable : Pattern → Prop
  | empty => True
  | chars _ => True
  | look _ => True
  | seq first second => first.Satisfiable ∧ second.Satisfiable
  | either first second => first.Satisfiable ∧ second.Satisfiable
  | repetition least greatest body => (∀ most ∈ greatest, least ≤ most) ∧ body.Satisfiable

end Pattern

/-! ## Steps one after the other -/

namespace Iterates

variable {relation : Nat → Nat → Prop} {count start stop : Nat}

theorem one_iff : Iterates relation 1 start stop ↔ relation start stop :=
  ⟨fun ⟨_, first, same⟩ => same ▸ first, fun first => ⟨stop, first, rfl⟩⟩

theorem le (forward : ∀ first last, relation first last → first ≤ last)
    (iterates : Iterates relation count start stop) : start ≤ stop := by
  induction count generalizing start with
  | zero => exact Nat.le_of_eq iterates
  | succ count induction =>
    obtain ⟨middle, first, rest⟩ := iterates
    exact Nat.le_trans (forward start middle first) (induction rest)

/-- Steps that stay where they are can be repeated. -/
theorem stays (stay : relation start start) (more : Nat)
    (iterates : Iterates relation count start stop) :
    Iterates relation (more + count) start stop := by
  induction more with
  | zero => rwa [Nat.zero_add]
  | succ more induction =>
    rw [Nat.succ_add]
    exact ⟨start, stay, induction⟩

/-- Of forward steps that get on, some stay where they are, the next one does not. -/
theorem exists_first (forward : ∀ first last, relation first last → first ≤ last)
    (iterates : Iterates relation count start stop) (further : start < stop) :
    ∃ idle later middle, idle + 1 + later = count ∧ (idle = 0 ∨ relation start start) ∧
      relation start middle ∧ start < middle ∧ Iterates relation later middle stop := by
  induction count with
  | zero => exact absurd iterates (Nat.ne_of_lt further)
  | succ count induction =>
    obtain ⟨middle, first, rest⟩ := iterates
    rcases Nat.eq_or_lt_of_le (forward start middle first) with rfl | moves
    · obtain ⟨idle, later, next, total, -, moved⟩ := induction rest
      exact ⟨idle + 1, later, next, by omega, .inr first, moved⟩
    · exact ⟨0, count, middle, by omega, .inl rfl, first, moves, rest⟩

end Iterates

namespace Pattern

variable {text : Text} {start stop : Nat}

theorem Matches.le {pattern : Pattern} (matched : pattern.Matches text start stop) :
    start ≤ stop := by
  induction pattern generalizing start stop with
  | empty => exact Nat.le_of_eq matched
  | chars set =>
    obtain ⟨_, _, stands⟩ := matched
    exact Nat.le_of_lt stands.lt
  | look assertion => exact Nat.le_of_eq matched.1
  | seq first second ofFirst ofSecond =>
    obtain ⟨middle, left, right⟩ := matched
    exact Nat.le_trans (ofFirst left) (ofSecond right)
  | either first second ofFirst ofSecond => exact matched.elim ofFirst ofSecond
  | repetition least greatest body ofBody =>
    obtain ⟨count, -, iterates⟩ := matched
    exact iterates.le fun _ _ => ofBody

theorem matches_followedBy (first second : Pattern) :
    (first.followedBy second).Matches text start stop ↔
      ∃ middle, first.Matches text start middle ∧ second.Matches text middle stop := by
  unfold followedBy
  split
  · exact ⟨fun matched => ⟨start, rfl, matched⟩, fun ⟨_, same, matched⟩ => same ▸ matched⟩
  · exact ⟨fun matched => ⟨stop, matched, rfl⟩, fun ⟨_, matched, same⟩ => same ▸ matched⟩
  · exact Iff.rfl

theorem matches_repeated (body : Pattern) {least : Nat} {greatest : Option Nat}
    (satisfiable : ∀ most ∈ greatest, least ≤ most) :
    (body.repeated least greatest).Matches text start stop ↔
      ∃ count, (least ≤ count ∧ ∀ most ∈ greatest, count ≤ most) ∧
        Iterates (body.Matches text) count start stop := by
  unfold repeated
  split
  · next none =>
    subst none
    refine ⟨fun same => ⟨0, ⟨satisfiable 0 rfl, fun _ _ => Nat.zero_le _⟩, same⟩, ?_⟩
    rintro ⟨count, ⟨-, few⟩, iterates⟩
    obtain rfl := Nat.le_zero.1 (few 0 rfl)
    exact iterates
  · split
    · next single =>
      obtain ⟨rfl, rfl⟩ := single
      refine ⟨fun matched => ⟨1, ⟨Nat.le_refl 1, satisfiable⟩, Iterates.one_iff.2 matched⟩, ?_⟩
      rintro ⟨count, ⟨many, few⟩, iterates⟩
      obtain rfl := Nat.le_antisymm (few 1 rfl) many
      exact Iterates.one_iff.1 iterates
    · exact Iff.rfl

theorem satisfiable_followedBy {first second : Pattern} (left : first.Satisfiable)
    (right : second.Satisfiable) : (first.followedBy second).Satisfiable := by
  unfold followedBy
  split
  · exact right
  · exact left
  · exact ⟨left, right⟩

theorem satisfiable_repeated {body : Pattern} (satisfiable : body.Satisfiable) {least : Nat}
    {greatest : Option Nat} (enough : ∀ most ∈ greatest, least ≤ most) :
    (body.repeated least greatest).Satisfiable := by
  unfold repeated
  split
  · trivial
  · split
    · exact satisfiable
    · exact ⟨enough, satisfiable⟩

/-! ## Empty matches -/

theorem acceptsEmpty_iff {pattern : Pattern} (satisfiable : pattern.Satisfiable) :
    pattern.acceptsEmpty (text.place start) = true ↔ pattern.Matches text start start := by
  induction pattern with
  | empty => exact ⟨fun _ => rfl, fun _ => rfl⟩
  | chars set =>
    exact ⟨nofun, fun ⟨_, _, stands⟩ => absurd stands.lt (Nat.lt_irrefl _)⟩
  | look assertion => exact ⟨fun holds => ⟨rfl, holds⟩, And.right⟩
  | seq first second ofFirst ofSecond =>
    rw [acceptsEmpty, Bool.and_eq_true, ofFirst satisfiable.1, ofSecond satisfiable.2]
    refine ⟨fun ⟨left, right⟩ => ⟨start, left, right⟩, fun ⟨middle, left, right⟩ => ?_⟩
    obtain rfl := Nat.le_antisymm left.le right.le
    exact ⟨left, right⟩
  | either first second ofFirst ofSecond =>
    rw [acceptsEmpty, Bool.or_eq_true, ofFirst satisfiable.1, ofSecond satisfiable.2]
    exact Iff.rfl
  | repetition least greatest body ofBody =>
    rw [acceptsEmpty, Bool.or_eq_true, beq_iff_eq, ofBody satisfiable.2]
    constructor
    · rintro (rfl | stay)
      · exact ⟨0, ⟨Nat.le_refl 0, fun _ _ => Nat.zero_le _⟩, rfl⟩
      · exact ⟨least, ⟨Nat.le_refl _, satisfiable.1⟩,
          Iterates.stays stay least (show Iterates _ 0 start start from rfl)⟩
    · rintro ⟨_ | count, ⟨many, -⟩, iterates⟩
      · exact .inl (Nat.le_zero.1 many)
      · obtain ⟨middle, first, rest⟩ := iterates
        obtain rfl := Nat.le_antisymm first.le (rest.le fun _ _ => Matches.le)
        exact .inr first

/-! ## Matches that begin with a character -/

/-- Whether a match between two offsets begins with a character of the head's set and goes on with
the head's rest. -/
def HeadMatches (text : Text) (start stop : Nat) (head : CharSet × Pattern) : Prop :=
  ∃ c : Char, head.1.contains c.toNat = true ∧
    ∃ next, text.HasChar c start next ∧ head.2.Matches text next stop

/-- What follows a head may be longer. -/
theorem headMatches_followedBy {set : CharSet} {rest : Pattern} (later : Pattern) :
    HeadMatches text start stop (set, rest.followedBy later) ↔
      ∃ middle, HeadMatches text start middle (set, rest) ∧ later.Matches text middle stop := by
  simp only [HeadMatches, matches_followedBy]
  constructor
  · rintro ⟨c, member, next, stands, middle, first, second⟩
    exact ⟨middle, ⟨c, member, next, stands, first⟩, second⟩
  · rintro ⟨middle, ⟨c, member, next, stands, first⟩, second⟩
    exact ⟨c, member, next, stands, middle, first, second⟩

theorem HeadMatches.lt {head : CharSet × Pattern} (matched : HeadMatches text start stop head) :
    start < stop := by
  obtain ⟨c, -, next, stands, rest⟩ := matched
  exact Nat.lt_of_lt_of_le stands.lt rest.le

theorem mem_heads_repetition {least : Nat} {greatest : Option Nat} {body : Pattern} {place : Place}
    {head : CharSet × Pattern} :
    head ∈ (repetition least greatest body).heads place ↔
      greatest ≠ some 0 ∧ ∃ inner ∈ body.heads place,
        (inner.1, inner.2.followedBy (body.repeated
          (if body.acceptsEmpty place then 0 else least - 1) (greatest.map (· - 1)))) = head := by
  rw [heads]
  split
  · next unused =>
    exact ⟨fun never => absurd never List.not_mem_nil, fun ⟨used, _⟩ => absurd unused used⟩
  · next used => exact List.mem_map.trans (and_iff_right used).symm

/-- A match of a repetition's body leaves fewer matches to find, but no fewer than there may be. -/
theorem needed_le {least : Nat} {greatest : Option Nat} (enough : ∀ most ∈ greatest, least ≤ most)
    (stays : Bool) : ∀ most ∈ greatest.map (· - 1), (if stays then 0 else least - 1) ≤ most := by
  intro most member
  obtain ⟨bound, known, rfl⟩ := Option.map_eq_some_iff.1 member
  have room := enough bound known
  split <;> omega

/-- A repetition that gets on has one match of its body that gets on, and then as many others as
are still needed and allowed.  The needed ones may stay in the first place if they can. -/
theorem iterates_iff {body : Pattern} {least : Nat} {greatest : Option Nat}
    (enough : ∀ most ∈ greatest, least ≤ most) (used : greatest ≠ some 0) {stays : Bool}
    (idles : stays = true ↔ body.Matches text start start) (further : start < stop) :
    (∃ count, (least ≤ count ∧ ∀ most ∈ greatest, count ≤ most) ∧
        Iterates (body.Matches text) count start stop) ↔
      ∃ middle, (start < middle ∧ body.Matches text start middle) ∧
        (body.repeated (if stays then 0 else least - 1) (greatest.map (· - 1))).Matches text
          middle stop := by
  simp only [matches_repeated body (needed_le enough stays)]
  constructor
  · rintro ⟨count, ⟨many, few⟩, iterates⟩
    obtain ⟨idle, later, middle, total, idling, first, moves, rest⟩ :=
      iterates.exists_first (fun _ _ => Matches.le) further
    refine ⟨middle, ⟨moves, first⟩, later, ⟨?_, fun most member => ?_⟩, rest⟩
    · cases stays with
      | true => exact Nat.zero_le _
      | false =>
        have first : idle = 0 := idling.resolve_right fun stay => nomatch idles.2 stay
        change least - 1 ≤ later
        omega
    · obtain ⟨bound, known, rfl⟩ := Option.map_eq_some_iff.1 member
      have room := few bound known
      omega
  · rintro ⟨middle, ⟨-, first⟩, count, ⟨many, few⟩, rest⟩
    have room : ∀ most ∈ greatest, count + 1 ≤ most := by
      intro most known
      have left := few (most - 1) (Option.map_eq_some_iff.2 ⟨most, known, rfl⟩)
      have nonzero : most ≠ 0 := fun zero => used (zero ▸ known)
      omega
    have iterates : Iterates (body.Matches text) (count + 1) start stop := ⟨middle, first, rest⟩
    cases stays with
    | true =>
      refine ⟨(least - (count + 1)) + (count + 1), ⟨by omega, fun most known => ?_⟩,
        iterates.stays (idles.1 rfl) _⟩
      have lower := enough most known
      have upper := room most known
      omega
    | false =>
      change least - 1 ≤ count at many
      exact ⟨count + 1, ⟨by omega, room⟩, iterates⟩

theorem satisfiable_of_mem_heads {pattern : Pattern} (satisfiable : pattern.Satisfiable)
    {place : Place} {head : CharSet × Pattern} (member : head ∈ pattern.heads place) :
    head.2.Satisfiable := by
  induction pattern generalizing head with
  | empty => exact absurd member List.not_mem_nil
  | chars set =>
    obtain rfl := List.mem_singleton.1 member
    trivial
  | look assertion => exact absurd member List.not_mem_nil
  | seq first second ofFirst ofSecond =>
    rw [heads, List.mem_append] at member
    rcases member with inFirst | inSecond
    · obtain ⟨inner, inside, rfl⟩ := List.mem_map.1 inFirst
      exact satisfiable_followedBy (ofFirst satisfiable.1 inside) satisfiable.2
    · split at inSecond
      · exact ofSecond satisfiable.2 inSecond
      · exact absurd inSecond List.not_mem_nil
  | either first second ofFirst ofSecond =>
    rw [heads, List.mem_append] at member
    exact member.elim (ofFirst satisfiable.1) (ofSecond satisfiable.2)
  | repetition least greatest body ofBody =>
    obtain ⟨-, inner, inside, rfl⟩ := mem_heads_repetition.1 member
    exact satisfiable_followedBy (ofBody satisfiable.2 inside)
      (satisfiable_repeated satisfiable.2 (needed_le satisfiable.1 _))

/-- A match that is not empty begins with one of the heads. -/
theorem matches_iff_heads {pattern : Pattern} (satisfiable : pattern.Satisfiable)
    (further : start < stop) :
    pattern.Matches text start stop ↔
      ∃ head ∈ pattern.heads (text.place start), HeadMatches text start stop head := by
  induction pattern generalizing stop with
  | empty =>
    exact ⟨fun same => absurd same (Nat.ne_of_lt further),
      fun ⟨_, never, _⟩ => absurd never List.not_mem_nil⟩
  | chars set =>
    simp only [heads, List.mem_singleton, exists_eq_left, HeadMatches]
    exact ⟨fun ⟨c, member, stands⟩ => ⟨c, member, stop, stands, rfl⟩,
      fun ⟨c, member, _, stands, same⟩ => ⟨c, member, same ▸ stands⟩⟩
  | look assertion =>
    exact ⟨fun ⟨same, _⟩ => absurd same (Nat.ne_of_lt further),
      fun ⟨_, never, _⟩ => absurd never List.not_mem_nil⟩
  | seq first second ofFirst ofSecond =>
    constructor
    · rintro ⟨middle, left, right⟩
      rw [heads]
      rcases Nat.eq_or_lt_of_le left.le with rfl | moves
      · obtain ⟨head, inside, matched⟩ := (ofSecond satisfiable.2 further).1 right
        refine ⟨head, List.mem_append_right _ ?_, matched⟩
        rwa [if_pos ((acceptsEmpty_iff satisfiable.1).2 left)]
      · obtain ⟨⟨set, rest⟩, inside, matched⟩ := (ofFirst satisfiable.1 moves).1 left
        exact ⟨_, List.mem_append_left _ (List.mem_map.2 ⟨_, inside, rfl⟩),
          (headMatches_followedBy second).2 ⟨middle, matched, right⟩⟩
    · rintro ⟨head, member, matched⟩
      rw [heads, List.mem_append] at member
      rcases member with inFirst | inSecond
      · obtain ⟨⟨set, rest⟩, inside, rfl⟩ := List.mem_map.1 inFirst
        obtain ⟨middle, left, right⟩ := (headMatches_followedBy second).1 matched
        exact ⟨middle, (ofFirst satisfiable.1 left.lt).2 ⟨_, inside, left⟩, right⟩
      · split at inSecond
        · next empty =>
          exact ⟨start, (acceptsEmpty_iff satisfiable.1).1 empty,
            (ofSecond satisfiable.2 further).2 ⟨head, inSecond, matched⟩⟩
        · exact absurd inSecond List.not_mem_nil
  | either first second ofFirst ofSecond =>
    simp only [heads, List.mem_append, or_and_right, exists_or]
    exact or_congr (ofFirst satisfiable.1 further) (ofSecond satisfiable.2 further)
  | repetition least greatest body ofBody =>
    have idles := @acceptsEmpty_iff text start body satisfiable.2
    constructor
    · intro matched
      have used : greatest ≠ some 0 := by
        rintro rfl
        obtain ⟨count, ⟨-, few⟩, iterates⟩ := matched
        obtain rfl := Nat.le_zero.1 (few 0 rfl)
        exact absurd iterates (Nat.ne_of_lt further)
      obtain ⟨middle, ⟨moves, first⟩, rest⟩ :=
        (iterates_iff satisfiable.1 used idles further).1 matched
      obtain ⟨⟨set, tail⟩, inside, begun⟩ := (ofBody satisfiable.2 moves).1 first
      exact ⟨_, mem_heads_repetition.2 ⟨used, _, inside, rfl⟩,
        (headMatches_followedBy _).2 ⟨middle, begun, rest⟩⟩
    · rintro ⟨head, member, matched⟩
      obtain ⟨used, ⟨set, tail⟩, inside, rfl⟩ := mem_heads_repetition.1 member
      obtain ⟨middle, begun, rest⟩ := (headMatches_followedBy _).1 matched
      have first := (ofBody satisfiable.2 begun.lt).2 ⟨_, inside, begun⟩
      exact (iterates_iff satisfiable.1 used idles further).2 ⟨middle, ⟨begun.lt, first⟩, rest⟩

end Pattern

end IncrementalGlr
