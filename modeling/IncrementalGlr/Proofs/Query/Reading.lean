import IncrementalGlr.Proofs.Outcome
import IncrementalGlr.Proofs.Query.Drafts

/-!
# Reading a query

What is read of a query is what its tokens write.  How steps are written is said here without their
reader, together with the names of the captures after the steps.  Captures in predicates are not
among these.
-/

namespace IncrementalGlr

/-! ## Written steps -/

/-- Whether marks say how often a step may match, if anything. -/
inductive WritesMark : List QueryTokenKind → List String → Prop
  /-- No mark. -/
  | none : WritesMark [] []
  /-- A mark. -/
  | mark {kind : QueryTokenKind} {quantifier : Quantifier} :
    QueryReader.quantifier? kind = some quantifier → WritesMark [kind] []

/-- Whether marks are captures of the given names. -/
inductive WritesCaptures : List QueryTokenKind → List String → Prop
  /-- No captures. -/
  | nil : WritesCaptures [] []
  /-- A capture first. -/
  | cons (name : String) {kinds : List QueryTokenKind} {names : List String} :
    WritesCaptures kinds names → WritesCaptures (.capture name :: kinds) (name :: names)

/-- Whether marks say how often a step may match, and then what it is recorded under. -/
inductive WritesEnding : List QueryTokenKind → List String → Prop
  /-- A mark, if any, and captures. -/
  | intro {mark captures : List QueryTokenKind} {none names : List String} :
    WritesMark mark none → WritesCaptures captures names →
    WritesEnding (mark ++ captures) (none ++ names)

/-- Whether marks are a predicate. -/
inductive WritesPredicate : List QueryTokenKind → List String → Prop
  /-- A name, and captures and texts as arguments. -/
  | intro (name : String) {arguments : List QueryTokenKind} :
    (∀ kind ∈ arguments, (∃ name, kind = .capture name) ∨ ∃ value, kind = .text value) →
    WritesPredicate (.openParen :: .predicate name :: (arguments ++ [.closeParen])) []

mutual

/-- Whether marks are a single step, with captures of the given names after the steps inside. -/
inductive WritesAtom : List QueryTokenKind → List String → Prop
  /-- Any node. -/
  | wildcard : WritesAtom [.name "_"] []
  /-- An anonymous node. -/
  | text (value : String) : WritesAtom [.text value] []
  /-- Alternatives. -/
  | alternation {kinds : List QueryTokenKind} {names : List String} :
    WritesItems kinds names → WritesAtom (.openBracket :: (kinds ++ [.closeBracket])) names
  /-- A node with children. -/
  | node (name : String) {kinds : List QueryTokenKind} {names : List String} :
    WritesItems kinds names →
    WritesAtom (.openParen :: .name name :: (kinds ++ [.closeParen])) names
  /-- Siblings. -/
  | group {kinds : List QueryTokenKind} {names : List String} :
    WritesItems kinds names → WritesAtom (.openParen :: (kinds ++ [.closeParen])) names

/-- Whether marks are a step with its repetition and its captures. -/
inductive WritesItem : List QueryTokenKind → List String → Prop
  /-- A step and what follows it. -/
  | intro {step ending : List QueryTokenKind} {names own : List String} :
    WritesAtom step names → WritesEnding ending own → WritesItem (step ++ ending) (names ++ own)

/-- Whether marks are steps and predicates, one after the other. -/
inductive WritesItems : List QueryTokenKind → List String → Prop
  /-- Nothing more. -/
  | nil : WritesItems [] []
  /-- A predicate first. -/
  | predicate {first rest : List QueryTokenKind} {none names : List String} :
    WritesPredicate first none → WritesItems rest names →
    WritesItems (first ++ rest) (none ++ names)
  /-- A step first. -/
  | step {first rest : List QueryTokenKind} {names others : List String} :
    WritesItem first names → WritesItems rest others → WritesItems (first ++ rest) (names ++ others)

end

/-- Whether marks are a pattern, with captures of the given names after its steps. -/
inductive WritesPattern : List QueryTokenKind → List String → Prop
  /-- A step or siblings, and what the first of them is recorded under. -/
  | intro {step captures : List QueryTokenKind} {names own : List String} :
    WritesAtom step names → WritesCaptures captures own →
    WritesPattern (step ++ captures) (names ++ own)

namespace QueryReader

/-! ## Tokens read -/

/-- Whether tokens write something up to a rest, and a draft goes on with its captures. -/
def Reads (writes : List QueryTokenKind → List String → Prop) (tokens : List QueryToken)
    (before : QueryDraft) (rest : List QueryToken) (after : QueryDraft) : Prop :=
  ∃ stretch names, tokens = stretch ++ rest ∧ writes (stretch.map QueryToken.kind) names ∧
    before.Continues after names

/-- Whether tokens lie inside a text that ends at an offset. -/
def Within (stop : Nat) (tokens : List QueryToken) : Prop := ∀ token ∈ tokens, token.start ≤ stop

section

variable {writes others both : List QueryTokenKind → List String → Prop} {stop : Nat}
  {tokens rest last : List QueryToken} {before between after : QueryDraft}

theorem within_cons {token : QueryToken} :
    Within stop (token :: rest) ↔ token.start ≤ stop ∧ Within stop rest :=
  List.forall_mem_cons

theorem Within.offset_le (inside : Within stop tokens) : offset stop tokens ≤ stop := by
  cases tokens with
  | nil => exact Nat.le_refl stop
  | cons token rest => exact inside token List.mem_cons_self

theorem Reads.within (reads : Reads writes tokens before rest after) (inside : Within stop tokens) :
    Within stop rest := by
  obtain ⟨stretch, names, rfl, -, -⟩ := reads
  exact fun token member => inside token (List.mem_append_right stretch member)

theorem Reads.append (first : Reads writes tokens before rest between)
    (second : Reads others rest between last after)
    (allowed : ∀ {kinds names more further}, writes kinds names → others more further →
      both (kinds ++ more) (names ++ further)) : Reads both tokens before last after := by
  obtain ⟨stretch, names, rfl, written, goesOn⟩ := first
  obtain ⟨next, further, rfl, writtenNext, goesOnNext⟩ := second
  refine ⟨stretch ++ next, names ++ further, (List.append_assoc ..).symm, ?_,
    goesOn.trans goesOnNext⟩
  rw [List.map_append]
  exact allowed written writtenNext

/-- What is read between marks is read with them. -/
theorem Reads.enclosed {closing : QueryToken} (reads : Reads writes tokens before rest after)
    (opening : List QueryToken) (closed : rest = closing :: last)
    (allowed : ∀ {kinds names}, writes kinds names →
      others (opening.map QueryToken.kind ++ (kinds ++ [closing.kind])) names) :
    Reads others (opening ++ tokens) before last after := by
  obtain ⟨stretch, names, rfl, written, goesOn⟩ := reads
  refine ⟨opening ++ (stretch ++ [closing]), names, ?_, ?_, goesOn⟩
  · simp only [closed, List.append_assoc, List.singleton_append]
  · rw [List.map_append, List.map_append]
    exact allowed written

/-- A step that is made of what was read has no captures yet. -/
theorem Reads.push (reads : Reads writes tokens before rest after) (step : FlatStep) :
    Reads writes tokens before rest (after.push step) := by
  obtain ⟨stretch, names, same, written, goesOn⟩ := reads
  exact ⟨stretch, names, same, written,
    names.append_nil ▸ goesOn.trans (QueryDraft.continues_push after step)⟩

end

/-- Whether an outcome is a part that tokens write, with steps that are roots of the draft from
then on, or an error inside the text. -/
def Understands (grammar : Grammar) (stop : Nat)
    (writes : List QueryTokenKind → List String → Prop) (tokens : List QueryToken)
    (draft : QueryDraft) (roots : List Nat) {limit : Nat} {α : Type} (steps : α → List Nat) :
    Except QueryError (QueryPart limit α) → Prop :=
  Except.Meets
    (fun part => Reads writes tokens draft part.rest part.draft ∧
      part.draft.Sound grammar stop (steps part.value ++ roots))
    (fun error => error.offset ≤ stop)

variable {grammar : Grammar} {stop : Nat} {tokens : List QueryToken} {draft : QueryDraft}
  {roots : List Nat} {limit : Nat}

/-! ## Parts without steps inside -/

/-- A closing mark that is passed came next. -/
theorem close_meets {kind : QueryTokenKind} {fault : QueryFault} (inside : Within stop tokens) :
    Except.Meets (fun rest => ∃ start, tokens = ⟨kind, start⟩ :: rest.val)
      (fun error => error.offset ≤ stop) (close stop kind fault tokens) := by
  cases tokens with
  | nil => exact Nat.le_refl stop
  | cons token rest =>
      rw [close]
      split
      · next same => exact ⟨token.start, same ▸ rfl⟩
      · exact inside token List.mem_cons_self

/-- The captures after a step are added to it. -/
theorem captures_reads (step : Nat) (fewer : tokens.length < limit)
    (sound : draft.Sound grammar stop roots) :
    (captures step tokens fewer draft).value = step ∧
      Reads WritesCaptures tokens draft (captures step tokens fewer draft).rest
        (captures step tokens fewer draft).draft ∧
      (captures step tokens fewer draft).draft.Sound grammar stop roots := by
  fun_induction captures step tokens fewer draft with
  | case1 name start rest fewer draft induction =>
      obtain ⟨same, ⟨stretch, names, split, written, goesOn⟩, kept⟩ :=
        induction (sound.capture step name)
      refine ⟨same, ⟨⟨.capture name, start⟩ :: stretch, name :: names, ?_, .cons name written, ?_⟩,
        kept⟩
      · exact congrArg _ split
      · exact (QueryDraft.continues_capture draft step name).trans goesOn
  | case2 tokens fewer draft _ => exact ⟨rfl, ⟨[], [], rfl, .nil, .refl draft⟩, sound⟩

/-- A mark after a step makes a further step of it. -/
theorem quantified_reads {step : Nat} (fewer : tokens.length < limit)
    (sound : draft.Sound grammar stop (step :: roots)) :
    Reads WritesMark tokens draft (quantified step tokens fewer draft).rest
        (quantified step tokens fewer draft).draft ∧
      (quantified step tokens fewer draft).draft.Sound grammar stop
        ((quantified step tokens fewer draft).value :: roots) := by
  cases tokens with
  | nil => exact ⟨⟨[], [], rfl, .none, .refl draft⟩, sound⟩
  | cons token rest =>
      rw [quantified]
      split
      · next quantifier mark =>
          exact ⟨⟨[token], [], rfl, .mark mark, QueryDraft.continues_push draft _⟩,
            sound.push rfl nofun⟩
      · exact ⟨⟨[], [], rfl, .none, .refl draft⟩, sound⟩

/-- A predicate is written with its name and its arguments, and is no step. -/
theorem predicate_meets {name : String} {start inner : Nat} {rest : List QueryToken}
    (written : tokens = ⟨.openParen, start⟩ :: ⟨.predicate name, inner⟩ :: rest)
    (inside : Within stop tokens) (sound : draft.Sound grammar stop roots) :
    Understands grammar stop WritesPredicate tokens draft roots (fun _ => [])
      (predicate stop name start rest draft) := by
  subst written
  rw [within_cons, within_cons] at inside
  obtain ⟨before, -, behind⟩ := inside
  have whole := List.takeWhile_append_dropWhile (p := isArgument) (l := rest)
  have arguments : Within stop (rest.takeWhile isArgument) := fun token member =>
    behind token ((List.takeWhile_prefix isArgument).subset member)
  have others : Within stop (rest.dropWhile isArgument) := fun token member =>
    behind token ((List.dropWhile_suffix isArgument).subset member)
  refine (close_meets others).bind ?_
  rintro ⟨last, closed⟩ ⟨ending, same⟩
  refine ⟨⟨⟨.openParen, start⟩ :: ⟨.predicate name, inner⟩ ::
    (rest.takeWhile isArgument ++ [⟨.closeParen, ending⟩]), [], ?_, ?_,
    QueryDraft.continues_setAside draft _⟩, sound.setAside before arguments⟩
  · rw [List.cons_append, List.cons_append, List.append_assoc, List.singleton_append, ← same, whole]
  · rw [List.map_cons, List.map_cons, List.map_append]
    refine .intro name fun kind member => ?_
    obtain ⟨argument, taken, rfl⟩ := List.mem_map.1 member
    have fits := List.all_eq_true.1 List.all_takeWhile argument taken
    unfold isArgument at fits
    split at fits
    · next name found => exact .inl ⟨name, found⟩
    · next value found => exact .inr ⟨value, found⟩
    · cases fits

theorem ahead_eq_predicate {name : String} {start : Nat}
    (next : ahead tokens = .predicate name start) : ∃ inner,
      tokens = ⟨.openParen, start⟩ :: ⟨.predicate name, inner⟩ :: tokens.drop 2 := by
  unfold ahead at next
  split at next <;> cases next
  exact ⟨_, rfl⟩

theorem le_of_ahead_eq_field {start : Nat} (inside : Within stop tokens)
    (next : ahead tokens = .field start) : start ≤ stop := by
  unfold ahead at next
  split at next <;> cases next
  exact inside _ List.mem_cons_self

/-- What is asked of a node fits the grammar. -/
theorem nodeTest_meets (loaded : grammar.IsLoaded) {name : String} {start : Nat}
    (before : start ≤ stop) :
    Except.Meets (NodeTest.Fits grammar) (fun error => error.offset ≤ stop)
      (nodeTest grammar name start) := by
  unfold nodeTest
  split
  · exact trivial
  · split
    · exact .inl rfl
    · unfold namedKind
      split
      · exact before
      · next symbol found =>
          split
          · next visible => exact loaded.fits_of_named found visible
          · exact before

/-! ## Steps

Each theorem is about the function of the reader with its name and recurs as that function does.
Roots from before are left alone, so the steps of an outer part wait among them.
-/

mutual

theorem atom_meets (loaded : grammar.IsLoaded) (tokens : List QueryToken) (draft : QueryDraft)
    (roots : List Nat) (inside : Within stop tokens) (sound : draft.Sound grammar stop roots) :
    Understands grammar stop WritesAtom tokens draft roots (fun step => [step])
      (atom grammar stop tokens draft) := by
  unfold atom
  split
  · exact Nat.le_refl stop
  · next start rest => exact node_meets loaded start rest draft roots inside sound
  · next start rest =>
      obtain ⟨before, behind⟩ := within_cons.1 inside
      refine (items_meets loaded rest draft roots behind sound).bind ?_
      rintro ⟨alternatives, others, after, fewer⟩ ⟨reads, kept⟩
      refine (close_meets (reads.within behind)).bind ?_
      rintro ⟨last, closed⟩ ⟨ending, same⟩
      dsimp only
      split
      · exact before
      · exact ⟨(reads.enclosed [_] same .alternation).push _, kept.push rfl nofun⟩
  · next name start rest =>
      split
      · next wildcard =>
          cases eq_of_beq wildcard
          exact ⟨⟨[⟨.name "_", start⟩], [], rfl, .wildcard, QueryDraft.continues_push draft _⟩,
            sound.push rfl fun _ member => by cases member; trivial⟩
      · exact inside _ List.mem_cons_self
  · next value start rest =>
      split
      · next symbol found =>
          refine ⟨⟨[⟨.text value, start⟩], [], rfl, .text value,
            QueryDraft.continues_push draft _⟩, sound.push rfl ?_⟩
          rintro _ ⟨⟩
          exact loaded.fits_of_token found
      · exact inside _ List.mem_cons_self
  · exact inside _ List.mem_cons_self
termination_by (tokens.length, 0)

theorem node_meets (loaded : grammar.IsLoaded) (start : Nat) (tokens : List QueryToken)
    (draft : QueryDraft) (roots : List Nat) (inside : Within stop (⟨.openParen, start⟩ :: tokens))
    (sound : draft.Sound grammar stop roots) :
    Understands grammar stop WritesAtom (⟨.openParen, start⟩ :: tokens) draft roots
      (fun step => [step]) (node grammar stop start tokens draft) := by
  obtain ⟨before, within⟩ := within_cons.1 inside
  unfold node
  split
  · next name inner rest =>
      obtain ⟨here, behind⟩ := within_cons.1 within
      refine (nodeTest_meets loaded here).bind fun test fits => ?_
      refine (items_meets loaded rest draft roots behind sound).bind ?_
      rintro ⟨children, others, after, fewer⟩ ⟨reads, kept⟩
      refine (close_meets (reads.within behind)).bind ?_
      rintro ⟨last, closed⟩ ⟨ending, same⟩
      exact ⟨(reads.enclosed [_, _] same (.node name)).push _,
        kept.push rfl fun _ member => by cases member; exact fits⟩
  · exact before
  · split
    · refine (items_meets loaded tokens draft roots within sound).bind ?_
      rintro ⟨siblings, others, after, fewer⟩ ⟨reads, kept⟩
      refine (close_meets (reads.within within)).bind ?_
      rintro ⟨last, closed⟩ ⟨ending, same⟩
      exact ⟨(reads.enclosed [_] same .group).push _, kept.push rfl nofun⟩
    · exact within.offset_le
termination_by (tokens.length, 3)

theorem item_meets (loaded : grammar.IsLoaded) (tokens : List QueryToken) (draft : QueryDraft)
    (roots : List Nat) (inside : Within stop tokens) (sound : draft.Sound grammar stop roots) :
    Understands grammar stop WritesItem tokens draft roots (fun step => [step])
      (item grammar stop tokens draft) := by
  unfold item
  refine (atom_meets loaded tokens draft roots inside sound).bind ?_
  rintro ⟨step, rest, after, fewer⟩ ⟨reads, kept⟩
  obtain ⟨readsMark, marked⟩ := quantified_reads fewer kept
  dsimp only at readsMark marked ⊢
  generalize quantified step rest fewer after = repeated at readsMark marked ⊢
  obtain ⟨outer, behind, between, further⟩ := repeated
  obtain ⟨same, readsOwn, recorded⟩ := captures_reads outer further marked
  refine ⟨reads.append (readsMark.append readsOwn .intro) .intro, ?_⟩
  dsimp only
  rw [same]
  exact recorded
termination_by (tokens.length, 1)

theorem items_meets (loaded : grammar.IsLoaded) (tokens : List QueryToken) (draft : QueryDraft)
    (roots : List Nat) (inside : Within stop tokens) (sound : draft.Sound grammar stop roots) :
    Understands grammar stop WritesItems tokens draft roots id
      (items grammar stop tokens draft) := by
  unfold items
  split
  · exact ⟨⟨[], [], rfl, .nil, .refl draft⟩, sound⟩
  · next name start next =>
      obtain ⟨inner, same⟩ := ahead_eq_predicate next
      refine (predicate_meets same inside sound).bind ?_
      rintro ⟨_, rest, between, fewer⟩ ⟨reads, kept⟩
      have shorter : rest.length < tokens.length :=
        Nat.lt_of_lt_of_le fewer (List.drop_suffix 2 tokens).length_le
      refine (items_meets loaded rest between roots (reads.within inside) kept).bind ?_
      rintro ⟨others, last, after, further⟩ ⟨readsOthers, keptOthers⟩
      exact ⟨reads.append readsOthers .predicate, keptOthers⟩
  · next start next => exact le_of_ahead_eq_field inside next
  · refine (item_meets loaded tokens draft roots inside sound).bind ?_
    rintro ⟨step, rest, between, fewer⟩ ⟨reads, kept⟩
    refine (items_meets loaded rest between (step :: roots) (reads.within inside) kept).bind ?_
    rintro ⟨others, last, after, further⟩ ⟨readsOthers, keptOthers⟩
    exact ⟨reads.append readsOthers .step, keptOthers.perm List.perm_middle⟩
termination_by (tokens.length, 2)

end

end QueryReader

end IncrementalGlr
