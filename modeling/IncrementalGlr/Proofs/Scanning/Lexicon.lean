import IncrementalGlr.Grammar.Table
import IncrementalGlr.Proofs.Scanning.Matches
import IncrementalGlr.Proofs.Scanning.Meaning
import IncrementalGlr.Proofs.Table.Loaded
import Mathlib

/-!
# What lexical rules match

A plain text matches where it stands, and an expression where the pattern read from it does.  The
pattern into which a rule is compiled matches the same, so a scan with compiled rules reports what
the rules match.
-/

namespace IncrementalGlr

/-! ## Repetitions of read expressions

The reader refuses counts of which the greatest is less than the least.  So every repetition in a
pattern that comes from a lexical rule can have as many matches as it needs.
-/

namespace Expression

/-- Whether every repetition in the expression can have as many matches as it needs. -/
def Satisfiable : Expression → Prop
  | repetition body least greatest => (∀ most ∈ greatest, least ≤ most) ∧ body.Satisfiable
  | group _ body => body.Satisfiable
  | seq first second => first.Satisfiable ∧ second.Satisfiable
  | either first second => first.Satisfiable ∧ second.Satisfiable
  | _ => True

/-- What a satisfiable expression means is satisfiable. -/
theorem satisfiable_of_meaning? {expression : Expression} (satisfiable : expression.Satisfiable)
    {flags after : PatternFlags} {pattern : Pattern}
    (meant : expression.meaning? flags = some (pattern, after)) : pattern.Satisfiable := by
  induction expression generalizing flags after pattern with
  | repetition body least greatest ofBody =>
    obtain ⟨⟨inner, innerFlags⟩, innerMeant, same⟩ := Option.bind_eq_some_iff.1 meant
    obtain ⟨rfl, rfl⟩ := Prod.mk.inj (Option.some.inj same)
    exact Pattern.satisfiable_repeated (ofBody satisfiable.2 innerMeant) satisfiable.1
  | group changes body ofBody =>
    obtain ⟨⟨inner, innerFlags⟩, innerMeant, same⟩ := Option.bind_eq_some_iff.1 meant
    obtain ⟨rfl, rfl⟩ := Prod.mk.inj (Option.some.inj same)
    exact ofBody satisfiable innerMeant
  | seq first second ofFirst ofSecond =>
    obtain ⟨⟨left, middle⟩, firstMeant, rest⟩ := Option.bind_eq_some_iff.1 meant
    obtain ⟨⟨right, last⟩, secondMeant, same⟩ := Option.bind_eq_some_iff.1 rest
    obtain ⟨rfl, rfl⟩ := Prod.mk.inj (Option.some.inj same)
    exact Pattern.satisfiable_followedBy (ofFirst satisfiable.1 firstMeant)
      (ofSecond satisfiable.2 secondMeant)
  | either first second ofFirst ofSecond =>
    obtain ⟨⟨left, middle⟩, firstMeant, rest⟩ := Option.bind_eq_some_iff.1 meant
    obtain ⟨⟨right, last⟩, secondMeant, same⟩ := Option.bind_eq_some_iff.1 rest
    obtain ⟨rfl, rfl⟩ := Prod.mk.inj (Option.some.inj same)
    exact ⟨ofFirst satisfiable.1 firstMeant, ofSecond satisfiable.2 secondMeant⟩
  | empty | flags _ | assertion _ =>
    obtain ⟨rfl, -⟩ := Prod.mk.inj (Option.some.inj meant)
    trivial
  | literal c isByte =>
    rw [meaning?] at meant
    split at meant
    · cases meant
    · obtain ⟨rfl, -⟩ := Prod.mk.inj (Option.some.inj meant)
      trivial
  | dot =>
    rw [meaning?] at meant
    split at meant
    · obtain ⟨rfl, -⟩ := Prod.mk.inj (Option.some.inj meant)
      trivial
    · cases meant
  | letter _ _ | property _ _ =>
    obtain ⟨set, -, same⟩ := Option.bind_eq_some_iff.1 meant
    obtain ⟨rfl, -⟩ := Prod.mk.inj (Option.some.inj same)
    trivial
  | bracket negated body =>
    obtain ⟨set, -, rest⟩ := Option.bind_eq_some_iff.1 meant
    obtain ⟨folded, -, same⟩ := Option.bind_eq_some_iff.1 rest
    obtain ⟨rfl, -⟩ := Prod.mk.inj (Option.some.inj same)
    trivial

namespace Reader

variable {α β : Type} {holds : α → Prop}

/-- Whether all values that a step of reading yields have a property. -/
def Yields (holds : α → Prop) (reader : Reader α) : Prop :=
  ∀ cursor value after, reader.run cursor = some (value, after) → holds value

theorem yields_pure {value : α} (good : holds value) : Yields holds (pure value) := by
  intro cursor same after read
  obtain ⟨rfl, -⟩ := Prod.mk.inj (Option.some.inj read)
  exact good

theorem yields_failure : Yields holds failure := fun _ _ _ read => nomatch read

theorem Yields.bind {better : β → Prop} {first : Reader α} {next : α → Reader β}
    (yields : Yields holds first) (onward : ∀ value, holds value → Yields better (next value)) :
    Yields better (first >>= next) := by
  intro cursor value after read
  obtain ⟨⟨middle, rest⟩, began, went⟩ := Option.bind_eq_some_iff.1 read
  exact onward middle (yields cursor middle rest began) rest value after went

/-- What comes first may be anything. -/
theorem yields_bind {better : β → Prop} {first : Reader α} {next : α → Reader β}
    (onward : ∀ value, Yields better (next value)) : Yields better (first >>= next) :=
  Yields.bind (fun _ _ _ _ => trivial) fun value (_ : True) => onward value

/-- Nothing follows a failure. -/
theorem yields_failure_bind {better : β → Prop} {next : α → Reader β} :
    Yields better (failure >>= next) := fun _ _ _ read => nomatch read

theorem yields_propertyEscape (negated : Bool) : Yields Satisfiable (propertyEscape negated) := by
  refine yields_bind fun _ => yields_bind fun c => ?_
  split
  · exact yields_bind fun _ => yields_bind fun _ => yields_bind fun _ => yields_bind fun _ =>
      yields_pure trivial
  · split
    · exact yields_failure
    · exact yields_bind fun _ => yields_pure trivial

theorem yields_escape : Yields Satisfiable escape := by
  refine yields_bind fun _ => yields_bind fun c => ?_
  split
  -- the last case is a character that stands for itself or has a name of one letter
  case h_12 =>
    refine yields_bind fun _ => ?_
    split
    · exact yields_pure trivial
    · split <;> first
        | exact yields_pure trivial
        | exact yields_failure
        | exact yields_bind fun _ => yields_pure trivial
  all_goals first
    | exact yields_propertyEscape _
    | exact yields_bind fun _ => yields_pure trivial

theorem yields_primitive : Yields Satisfiable primitive := by
  refine yields_bind fun c => ?_
  split
  · exact yields_escape
  · refine yields_bind fun _ => ?_
    split <;> exact yields_pure trivial

theorem yields_bracket : Yields (fun read => read.value.Satisfiable) bracket := by
  refine yields_bind fun _ => yields_bind fun (negated, items) => yields_bind fun set => ?_
  split
  · exact yields_pure trivial
  · exact yields_failure

/-! ### Items -/

/-- Whether all items read so far are satisfiable. -/
def AllSatisfiable (items : List (Nested Expression)) : Prop :=
  ∀ item ∈ items, item.value.Satisfiable

theorem AllSatisfiable.reverse {items : List (Nested Expression)} (all : AllSatisfiable items) :
    AllSatisfiable items.reverse := fun item member => all item (List.mem_reverse.1 member)

theorem satisfiable_foldl {join : Expression → Expression → Expression}
    (both : ∀ {left right : Expression}, left.Satisfiable → right.Satisfiable →
      (join left right).Satisfiable)
    {parts : List (Nested Expression)} (all : AllSatisfiable parts) {first : Expression}
    (start : first.Satisfiable) : ((parts.map Nested.value).foldl join first).Satisfiable := by
  induction parts generalizing first with
  | nil => exact start
  | cons part parts induction =>
    obtain ⟨here, rest⟩ := List.forall_mem_cons.1 all
    exact induction rest (both start here)

theorem satisfiable_combine {nothing : Expression} (none : nothing.Satisfiable)
    {join : Expression → Expression → Expression}
    (both : ∀ {left right : Expression}, left.Satisfiable → right.Satisfiable →
      (join left right).Satisfiable)
    {parts : List (Nested Expression)} (all : AllSatisfiable parts) :
    (Nested.combine nothing join parts).value.Satisfiable := by
  match parts, all with
  | [], _ => exact none
  | [one], all => exact all one List.mem_cons_self
  | first :: second :: rest, all =>
    obtain ⟨start, others⟩ := List.forall_mem_cons.1 all
    exact satisfiable_foldl both others start

theorem satisfiable_sequenceOf {items : List (Nested Expression)} (all : AllSatisfiable items) :
    (sequenceOf items).value.Satisfiable :=
  satisfiable_combine (show Satisfiable .empty from trivial)
    (fun left right => show Satisfiable (.seq _ _) from ⟨left, right⟩) all.reverse

theorem satisfiable_alternationOf {items : List (Nested Expression)} (all : AllSatisfiable items) :
    (alternationOf items).value.Satisfiable :=
  satisfiable_combine (show Satisfiable .empty from trivial)
    (fun left right => show Satisfiable (.either _ _) from ⟨left, right⟩) all.reverse

theorem yields_popRepeatable {items : List (Nested Expression)} (all : AllSatisfiable items) :
    Yields (fun popped => popped.1.value.Satisfiable ∧ AllSatisfiable popped.2)
      (popRepeatable items) := by
  unfold popRepeatable
  split
  · split
    · exact yields_pure (List.forall_mem_cons.1 all)
    · exact yields_failure
  · exact yields_failure

theorem AllSatisfiable.pushRepetition {item : Nested Expression} {items : List (Nested Expression)}
    (popped : item.value.Satisfiable ∧ AllSatisfiable items) {least : Nat} {greatest : Option Nat}
    (enough : ∀ most ∈ greatest, least ≤ most) :
    AllSatisfiable (pushRepetition item least greatest items) :=
  List.forall_mem_cons.2 ⟨⟨enough, popped.1⟩, popped.2⟩

theorem yields_markedRepetition {items : List (Nested Expression)} (all : AllSatisfiable items)
    {least : Nat} {greatest : Option Nat} (enough : ∀ most ∈ greatest, least ≤ most) :
    Yields AllSatisfiable (markedRepetition least greatest items) :=
  (yields_popRepeatable all).bind fun _ popped => yields_bind fun _ => yields_bind fun _ =>
    yields_pure (.pushRepetition popped enough)

theorem yields_countedRepetition {items : List (Nested Expression)} (all : AllSatisfiable items) :
    Yields AllSatisfiable (countedRepetition items) := by
  refine (yields_popRepeatable all).bind fun (item, items) popped => ?_
  refine yields_bind fun _ => yields_bind fun least => yields_bind fun mark => ?_
  extract_lets closing
  have closed : ∀ greatest, Yields AllSatisfiable (closing greatest) := by
    intro greatest
    refine yields_bind fun last => ?_
    dsimp only
    split
    · exact yields_failure_bind
    · refine yields_bind fun _ => yields_bind fun _ => ?_
      split
      · exact yields_failure_bind
      · next enough =>
        refine yields_pure (.pushRepetition popped fun most known => ?_)
        subst known
        simpa using enough
  split
  · refine yields_bind fun _ => yields_bind fun _ => ?_
    split
    · exact yields_bind closed
    · exact yields_bind fun _ => yields_bind closed
  · exact yields_bind closed

/-! ### Whole expressions -/

theorem yields_alternatives {branches items : List (Nested Expression)}
    (branchesHold : AllSatisfiable branches) (itemsHold : AllSatisfiable items) (budget : Nat) :
    Yields (fun read => read.value.Satisfiable) (alternatives branches items budget) := by
  induction budget generalizing branches items with
  | zero => exact yields_failure
  | succ budget induction =>
    have nothing : AllSatisfiable [] := fun _ none => absurd none List.not_mem_nil
    have finished : AllSatisfiable (sequenceOf items :: branches) :=
      List.forall_mem_cons.2 ⟨satisfiable_sequenceOf itemsHold, branchesHold⟩
    refine yields_bind fun _ => yields_bind fun next => ?_
    split
    · exact yields_pure (satisfiable_alternationOf finished)
    · exact yields_pure (satisfiable_alternationOf finished)
    · exact yields_bind fun _ => induction finished nothing
    · refine yields_bind fun outer => yields_bind fun opening => ?_
      split
      · exact yields_bind fun _ => induction branchesHold
          (List.forall_mem_cons.2 ⟨trivial, itemsHold⟩)
      · refine yields_bind fun _ => Yields.bind (induction nothing nothing) fun body holds => ?_
        exact yields_bind fun _ => yields_bind fun _ => induction branchesHold
          (List.forall_mem_cons.2 ⟨holds, itemsHold⟩)
    · exact yields_bracket.bind fun item holds =>
        induction branchesHold (List.forall_mem_cons.2 ⟨holds, itemsHold⟩)
    · exact (yields_markedRepetition itemsHold (by simp)).bind fun items holds =>
        induction branchesHold holds
    · exact (yields_markedRepetition itemsHold (by simp)).bind fun items holds =>
        induction branchesHold holds
    · exact (yields_markedRepetition itemsHold (by simp)).bind fun items holds =>
        induction branchesHold holds
    · exact (yields_countedRepetition itemsHold).bind fun items holds =>
        induction branchesHold holds
    · exact yields_primitive.bind fun item holds =>
        induction branchesHold (List.forall_mem_cons.2 ⟨holds, itemsHold⟩)

theorem yields_whole : Yields Satisfiable whole := by
  have nothing : AllSatisfiable [] := fun _ none => absurd none List.not_mem_nil
  refine yields_bind fun cursor => (yields_alternatives nothing nothing _).bind fun read holds =>
    yields_bind fun next => ?_
  dsimp only
  split
  · exact yields_failure_bind
  · exact yields_pure holds

end Reader

end Expression

namespace Pattern

theorem satisfiable_of_read? {source : String} {pattern : Pattern}
    (read : read? source = some pattern) : pattern.Satisfiable := by
  obtain ⟨expression, written, rest⟩ := Option.bind_eq_some_iff.1 read
  obtain ⟨⟨meant, flags⟩, meaning, same⟩ := Option.bind_eq_some_iff.1 rest
  obtain rfl := Option.some.inj same
  obtain ⟨⟨found, after⟩, ran, rfl⟩ := Option.map_eq_some_iff.1 written
  exact Expression.satisfiable_of_meaning?
    (Expression.Reader.yields_whole _ found after ran) meaning

theorem satisfiable_ofChars (text : List Char) : (ofChars text).Satisfiable := by
  induction text with
  | nil => trivial
  | cons c text induction =>
    exact satisfiable_followedBy (show Satisfiable (.chars _) from trivial) induction

end Pattern

theorem TokenPattern.satisfiable_of_compile? {source : TokenPattern} {pattern : Pattern}
    (compiled : source.compile? = some pattern) : pattern.Satisfiable := by
  cases source with
  | literal text =>
    obtain rfl := Option.some.inj compiled
    exact Pattern.satisfiable_ofChars text.toList
  | regex text => exact Pattern.satisfiable_of_read? compiled

/-! ## Plain texts -/

namespace Pattern

theorem matches_singleton_iff {text : Text} {c : Char} {start stop : Nat} :
    (chars (.singleton c)).Matches text start stop ↔ text.HasChar c start stop := by
  have only : ∀ other : Char, (CharSet.singleton c).contains other.toNat = true ↔ other = c := by
    intro other
    rw [CharSet.contains, CharSet.singleton, List.any_cons, List.any_nil, Bool.or_false,
      Bool.and_eq_true, decide_eq_true_iff, decide_eq_true_iff, ← Nat.eq_iff_le_and_ge, eq_comm]
    exact Char.toNat_inj
  constructor
  · rintro ⟨other, inside, stands⟩
    exact (only other).1 inside ▸ stands
  · exact fun stands => ⟨c, (only c).2 rfl, stands⟩

/-- Characters match where their encodings stand one after the other. -/
theorem matches_ofChars_iff {text : Text} {written : List Char} {start stop : Nat} :
    (ofChars written).Matches text start stop ↔
      stop = start + (written.flatMap String.utf8EncodeChar).length ∧
        written.flatMap String.utf8EncodeChar <+: text.bytes.data.toList.drop start := by
  induction written generalizing start with
  | nil =>
    show start = stop ↔ _
    simp [eq_comm]
  | cons c written induction =>
    have split : ofChars (c :: written) = (chars (.singleton c)).followedBy (ofChars written) := rfl
    rw [split, matches_followedBy, List.flatMap_cons, List.length_append, ← Nat.add_assoc]
    simp only [matches_singleton_iff, induction, Text.HasChar]
    constructor
    · rintro ⟨_, ⟨rfl, here⟩, rfl, later⟩
      refine ⟨rfl, ?_⟩
      obtain ⟨rest, same⟩ := here
      rw [← List.drop_drop, ← same, List.drop_left] at later
      rw [← same]
      exact (List.prefix_append_right_inj _).2 later
    · rintro ⟨rfl, all⟩
      obtain ⟨rest, same⟩ := all
      refine ⟨_, ⟨rfl, (List.prefix_append _ _).trans ⟨rest, same⟩⟩, rfl, ?_⟩
      rw [← List.drop_drop, ← same, List.append_assoc, List.drop_left]
      exact List.prefix_append _ _

end Pattern

namespace TokenPattern

/-- Whether the token pattern matches the part of a text between two offsets.  A plain text matches
where it stands, whatever its characters mean in expressions. -/
def Matches (text : Text) : TokenPattern → Nat → Nat → Prop
  | literal written, start, stop =>
    stop = start + (Text.ofString written).size ∧
      (Text.ofString written).bytes.data.toList <+: text.bytes.data.toList.drop start
  | regex source, start, stop =>
    ∃ pattern, Pattern.read? source = some pattern ∧ pattern.Matches text start stop

/-- A token pattern matches what the pattern it means does. -/
theorem matches_iff {source : TokenPattern} {text : Text} {start stop : Nat} :
    source.Matches text start stop ↔
      ∃ pattern, source.compile? = some pattern ∧ pattern.Matches text start stop := by
  cases source with
  | literal written =>
    have size : (Text.ofString written).size =
        (written.toList.flatMap String.utf8EncodeChar).length := by
      rw [← Text.toList_ofString]
      rfl
    rw [Matches, size, Text.toList_ofString, ← Pattern.matches_ofChars_iff]
    exact ⟨fun matched => ⟨_, rfl, matched⟩,
      fun ⟨_, meant, matched⟩ => Option.some.inj meant ▸ matched⟩
  | regex written => exact Iff.rfl

end TokenPattern

/-! ## Compiled rules -/

namespace Lexicon

variable {nameOf : Symbol → String} {rules : List LexRule} {lexicon : Lexicon}

/-- The pattern at a place is what the pattern of the rule there means. -/
theorem getElem?_patterns (compiled : compile nameOf rules = .ok lexicon) (rule : Nat) :
    lexicon.patterns[rule]? = rules[rule]?.bind fun lexRule => lexRule.pattern.compile? := by
  have pairs := forall₂_patterns compiled
  clear compiled
  generalize lexicon.patterns = patterns at pairs
  induction pairs generalizing rule with
  | nil => rfl
  | cons meant _ induction =>
    cases rule with
    | zero => exact meant.symm
    | succ rule => exact induction rule

/-- A scan with compiled rules reports exactly the matches of the rules that are not empty, each
once and those that end first before the others. -/
theorem scan_exact (compiled : compile nameOf rules = .ok lexicon) (source : String)
    (offset : Nat) :
    (∀ rule stop, (rule, stop) ∈ (lexicon.scan (.ofString source) offset).matched ↔
        offset < stop ∧ ∃ lexRule, rules[rule]? = some lexRule ∧
          lexRule.pattern.Matches (.ofString source) offset stop) ∧
      (lexicon.scan (.ofString source) offset).matched.Nodup ∧
      (lexicon.scan (.ofString source) offset).matched.Pairwise fun first second =>
        first.2 ≤ second.2 := by
  have satisfiable : ∀ pattern ∈ lexicon.patterns, pattern.Satisfiable := by
    intro pattern member
    obtain ⟨rule, known⟩ := List.mem_iff_getElem?.1 member
    rw [getElem?_patterns compiled] at known
    obtain ⟨lexRule, -, meant⟩ := Option.bind_eq_some_iff.1 known
    exact TokenPattern.satisfiable_of_compile? meant
  obtain ⟨reported, distinct, order⟩ := Scan.run_exact satisfiable source offset
  refine ⟨fun rule stop => (reported rule stop).trans (and_congr_right fun _ => ?_), distinct,
    order⟩
  simp only [getElem?_patterns compiled, Option.bind_eq_some_iff, TokenPattern.matches_iff]
  constructor
  · rintro ⟨pattern, ⟨lexRule, known, meant⟩, matched⟩
    exact ⟨lexRule, known, pattern, meant, matched⟩
  · rintro ⟨lexRule, known, pattern, meant, matched⟩
    exact ⟨pattern, ⟨lexRule, known, meant⟩, matched⟩

/-- Names, the word `if`, and `if` as the last word of a text. -/
def words : List LexRule :=
  [⟨⟨1⟩, .regex "[a-zß]+", 0⟩, ⟨⟨2⟩, .literal "if", 0⟩, ⟨⟨3⟩, .regex "if$", 0⟩]

/-- What the rules for words mean. -/
def wordPatterns : Lexicon :=
  let word : Pattern := .seq (.chars (.singleton 'i')) (.chars (.singleton 'f'))
  ⟨[.repetition 1 none (.chars ⟨[(97, 122), (223, 223)]⟩), word, .seq word (.look .textEnd)]⟩

theorem compile_words : compile (fun _ => "word") words = .ok wordPatterns := by cbv

/-- Three rules match the last word of a text, and one of them its first letter. -/
theorem scan_exact_words :
    compile (fun _ => "word") words = .ok wordPatterns ∧
      (∀ rule stop, (rule, stop) ∈ (wordPatterns.scan (.ofString "iß if") 4).matched ↔
        4 < stop ∧ ∃ lexRule, words[rule]? = some lexRule ∧
          lexRule.pattern.Matches (.ofString "iß if") 4 stop) ∧
      (wordPatterns.scan (.ofString "iß if") 4).matched = [(0, 5), (0, 6), (1, 6), (2, 6)] := by
  obtain ⟨reported, -⟩ := scan_exact compile_words "iß if" 4
  exact ⟨compile_words, reported, by rfl⟩

end Lexicon

end IncrementalGlr
