import IncrementalGlr.Proofs.Reparsing.Stands

/-!
# Versions over a text

A version comes along a path of states, with sound subtrees on its stack, and what comes next lies
at its position.  Whatever it does it goes on so: it shifts a token, reduces a production, takes over
a node of an earlier tree that is grown there, or recovers from an error.
-/

namespace IncrementalGlr

open Lalr (Item)

/-- Whether a lookahead at a position is the token there, or is grown there and has a token, but no
errors. -/
def Lookahead.Lies (job : ParseJob) (plain : PlainGrammar) (position : Nat) : Lookahead → Prop
  | .token found _ => found = job.lexer.plainToken job.text position
  | .reused subtree =>
    subtree.Grown job.lexer plain job.text position ∧ subtree.errorCount = 0 ∧
      subtree.firstLeaf.isSome = true

/-- Whether a version has come along a path of states to its position and has sound subtrees on its
stack, which stand in the text before it. -/
structure Version.Laid (job : ParseJob) (plain : PlainGrammar) (items : StateId → Item → Prop)
    (version : Version) : Prop where
  /-- The path. -/
  path : version.stack.Spells plain items
  /-- The subtrees. -/
  stands : version.stack.Stands job.lexer plain job.text version.position
  /-- A character begins at the position, or the text ends there. -/
  boundary : job.text.isBoundary version.position = true
  /-- What comes next is there. -/
  lookahead : ∀ lookahead ∈ version.lookahead, lookahead.Lies job plain version.position

/-- Whether no subtree on a stack has errors. -/
def ParseStack.Faultless (stack : ParseStack) : Prop :=
  ∀ subtree ∈ stack.subtrees, subtree.errorCount = 0

theorem ParseStack.Faultless.push {stack : ParseStack} (faultless : stack.Faultless)
    (state : StateId) {subtree : Subtree} (clean : subtree.errorCount = 0) :
    Faultless (⟨state, subtree⟩ :: stack) := by
  intro other member
  rw [subtrees_cons] at member
  rcases List.mem_append.1 member with below | top
  · exact faultless other below
  · rw [List.mem_singleton.1 top]
    exact clean

/-- A node without errors takes the place of what was taken from a stack without errors. -/
theorem ParseStack.Faultless.fold {stack below : ParseStack} (faultless : stack.Faultless)
    {taken extras : List Subtree} (parts : below.subtrees ++ taken ++ extras = stack.subtrees)
    {node : Subtree} (errors : node.errorCount = (taken.map Subtree.errorCount).sum)
    (next : StateId) : Faultless (ParseStack.pushAll (⟨next, node⟩ :: below) next extras) := by
  rw [Faultless, ← parts] at faultless
  simp only [List.forall_mem_append] at faultless
  obtain ⟨⟨under, inside⟩, above⟩ := faultless
  rw [Faultless, subtrees_pushAll, subtrees_cons]
  refine List.forall_mem_append.2 ⟨List.forall_mem_append.2 ⟨under, ?_⟩, above⟩
  rw [List.forall_mem_singleton, errors]
  exact List.sum_eq_zero (List.forall_mem_map.2 inside)

/-- Paths of states survive recovery. -/
theorem ParseStack.spells_kept {grammar : Grammar} {plain : PlainGrammar}
    {items : StateId → Item → Prop} :
    KeptInRecovery grammar (ParseStack.Spells plain items) fun _ => True where
  parts _ _ _ := trivial
  drop count path := path.drop count
  extra path isExtra _ := path.extra isExtra
  leaf _ := trivial
  errorNode _ := trivial

section

variable {job : ParseJob} {plain : PlainGrammar} {items : StateId → Item → Prop}
  (acts : job.grammar.ActsOn plain items)

include acts

/-- There are no actions on errors. -/
theorem Grammar.ActsOn.symbol_ne_error {state : StateId} {symbol : Symbol} {action : Action}
    (listed : action ∈ job.grammar.actions state symbol) : symbol ≠ .error := by
  rintro rfl
  exact absurd (acts.errorTerminal.symm.trans (acts.terminal listed)) Bool.false_ne_true

/-- What has an action is not passed over. -/
theorem Grammar.ActsOn.not_skips {state : StateId} {symbol : Symbol} {action : Action}
    (listed : action ∈ job.grammar.actions state symbol) :
    ¬ job.lexer.grammar.Skips symbol := by
  intro skips
  rw [acts.extras skips.1 skips.2] at listed
  cases listed

/-- A symbol with an action is no extra, unless it is the end of the input. -/
theorem Grammar.ActsOn.isExtra_eq {state : StateId} {symbol : Symbol} {action : Action}
    (listed : action ∈ job.grammar.actions state symbol) (notEnd : symbol ≠ .endOfInput) :
    job.grammar.isExtra symbol = false := by
  by_contra isExtra
  rw [Bool.not_eq_false] at isExtra
  rw [acts.extras isExtra notEnd] at listed
  cases listed

end

/-- The symbol of a grown lookahead is that of its first token. -/
theorem Subtree.Grown.symbol_eq {lexer : Lexer} {plain : PlainGrammar} {text : Text} {start : Nat}
    {node : Subtree} (grown : node.Grown lexer plain text start) {leaf : FirstLeaf}
    (first : node.firstLeaf = some leaf) : (Lookahead.reused node).symbol = leaf.symbol := by
  cases grown with
  | token => exact congrArg FirstLeaf.symbol (Option.some.inj first)
  | node =>
      rw [Lookahead.symbol, first]
      rfl

section Laid

variable {job : ParseJob} {plain : PlainGrammar} {items : StateId → Item → Prop}
  (steady : job.Steady) (acts : job.grammar.ActsOn plain items)
  (terminals : ∀ symbol, plain.isTerminal symbol = job.lexer.grammar.data.isTerminal symbol)
  {version : Version} {lookahead : Lookahead}

include steady acts

namespace Lookahead.Lies

variable {position : Nat} (lies : lookahead.Lies job plain position)
  (boundary : job.text.isBoundary position = true)

include lies

omit acts in
/-- What is a terminal is no error. -/
theorem isError_eq {token : Token} {lexState : LexStateId}
    (same : lookahead = .token token lexState) (notError : token.symbol ≠ .error) : token.isError = false := by
  subst same
  obtain rfl : token = _ := lies
  rcases Lexer.plainToken_terminal steady.internal steady.filled.toIsLoaded job.text position with
    ⟨good, -⟩ | ⟨-, symbol⟩
  · exact good
  · exact absurd symbol notError

include boundary

/-- No extra begins where what comes next has an action. -/
theorem awake {state : StateId} {action : Action}
    (listed : action ∈ job.grammar.actions state lookahead.symbol) :
    job.lexer.Awake job.text position lookahead.extent := by
  cases lookahead with
  | token found lexState =>
      obtain rfl : found = _ := lies
      exact ⟨_, _, Lexer.decides_plainToken steady.internal steady.filled.toIsLoaded steady.ahead
        boundary, acts.not_skips listed⟩
  | reused node =>
      obtain ⟨grown, -, some_⟩ := lies
      obtain ⟨leaf, first⟩ := Option.isSome_iff_exists.1 some_
      obtain ⟨-, length, decides⟩ := grown.opens.decides leaf first
      have extent : (Lookahead.reused node).extent = leaf.extent := by
        rw [Lookahead.extent, first, Option.map_some, Option.getD_some]
      rw [extent]
      rw [grown.symbol_eq first] at listed
      exact ⟨leaf.symbol, length, decides, acts.not_skips listed⟩

omit acts in
include terminals in
/-- The leaf of what comes next is grown there. -/
theorem leaf (token : ∀ node, lookahead = .reused node → node.isLeaf = true) (state : StateId)
    (notError : lookahead.symbol ≠ .error) (notEnd : lookahead.symbol ≠ .endOfInput) :
    let leaf : Subtree := ParseRun.leafOf (m := Id) job.grammar state
      (job.grammar.isExtra lookahead.symbol) lookahead
    leaf.Grown job.lexer plain job.text position ∧ leaf.errorCount = 0 ∧
      leaf.symbol = lookahead.symbol ∧ leaf.isExtra = job.grammar.isExtra lookahead.symbol := by
  cases lookahead with
  | token found lexState =>
      have good := lies.isError_eq steady rfl notError
      obtain rfl : found = _ := lies
      refine ⟨Subtree.grown_token steady terminals boundary good notEnd rfl rfl rfl rfl, ?_, rfl,
        rfl⟩
      change (decide ((job.lexer.plainToken job.text position).symbol = .error)).toNat = 0
      rw [decide_eq_false (by exact notError)]
      rfl
  | reused node =>
      have isLeaf := token node rfl
      obtain ⟨grown, clean, -⟩ := lies
      have symbol : (Lookahead.reused node).symbol = node.symbol := if_pos isLeaf
      refine ⟨grown, clean, symbol.symm, ?_⟩
      rw [symbol]
      cases grown with
      | token decides terminal notEnd extra => exact extra
      | node => cases isLeaf

end Lookahead.Lies

namespace Version.Laid

omit steady acts in
theorem start (wellFormed : job.text.WellFormed) : Version.start.Laid job plain items :=
  ⟨.nil, ParseStack.stands_nil, wellFormed.start, nofun⟩

variable (laid : version.Laid job plain items)
  (lies : lookahead.Lies job plain version.position)

omit steady acts in
/-- A version may have found out what comes next. -/
theorem look (laid : version.Laid job plain items)
    (lies : lookahead.Lies job plain version.position) :
    Version.Laid job plain items { version with lookahead := some lookahead } := by
  refine ⟨laid.path, laid.stands, laid.boundary, ?_⟩
  rintro _ ⟨⟩
  exact lies

include laid lies

omit acts lies in
/-- What is grown at the position may be pushed. -/
theorem push {subtree : Subtree} (grown : subtree.Grown job.lexer plain job.text version.position)
    {next : StateId}
    (path : ParseStack.Spells plain items (⟨next, subtree⟩ :: version.stack)) :
    Version.Laid job plain items { version.push next subtree with
      position := version.position + subtree.length, lookahead := none } :=
  ⟨path, laid.stands.push next grown.sound, grown.boundary steady.filled.toIsLoaded
    steady.internal steady.wellFormed laid.boundary, nofun⟩

include terminals

/-- A token is shifted. -/
theorem shift (token : ∀ node, lookahead = .reused node → node.isLeaf = true) {next : StateId}
    (action : .shift next ∈ job.grammar.actions version.state lookahead.symbol) :
    let leaf : Subtree := ParseRun.leafOf (m := Id) job.grammar version.state false lookahead
    leaf.errorCount = 0 ∧ Version.Laid job plain items
      (ParseRun.pushLeaf (m := Id) job.grammar version lookahead next false) := by
  have notEnd : lookahead.symbol ≠ .endOfInput := fun ended => acts.notEnd (ended ▸ action)
  have notExtra := acts.isExtra_eq action notEnd
  obtain ⟨grown, clean, symbol, extra⟩ := lies.leaf steady terminals laid.boundary token
    version.state (acts.symbol_ne_error action) notEnd
  rw [notExtra] at grown clean symbol extra
  refine ⟨clean, laid.push steady grown (laid.path.enter extra ?_)⟩
  rw [symbol]
  exact acts.recognizes.shift action

/-- An extra is passed over. -/
theorem extra (token : ∀ node, lookahead = .reused node → node.isLeaf = true)
    (isExtra : job.grammar.isExtra lookahead.symbol = true)
    (notEnd : lookahead.symbol ≠ .endOfInput) :
    let leaf : Subtree := ParseRun.leafOf (m := Id) job.grammar version.state true lookahead
    leaf.errorCount = 0 ∧ Version.Laid job plain items
      (ParseRun.pushLeaf (m := Id) job.grammar version lookahead version.state true) := by
  have notError : lookahead.symbol ≠ .error := fun same =>
    absurd (acts.errorExtra.symm.trans (same ▸ isExtra)) Bool.false_ne_true
  obtain ⟨grown, clean, symbol, extra⟩ :=
    lies.leaf steady terminals laid.boundary token version.state notError notEnd
  rw [isExtra] at grown clean symbol extra
  exact ⟨clean, laid.push steady grown (laid.path.extra extra)⟩

end Version.Laid

end Laid

section

variable {job : ParseJob} {plain : PlainGrammar}

/-- A node without children looks as far as what follows it. -/
theorem Subtree.following_le_extent (id : Nat) (spec : NodeSpec) :
    spec.following ≤ (ofChildren id spec []).extent := by
  change spec.following ≤ 0 + (max 0 (0 + spec.following) - 0)
  omega

/-- The node of a reduction stands where its children do. -/
theorem ParseRun.reducedNode_stands {production : ProductionId} {source : PlainProduction}
    (listed : plain.productions[production.index]? = some source)
    (lhs : (job.grammar.production production).lhs = source.lhs)
    (errors : (job.grammar.production production).lhs ≠ .error) {taken after : List Subtree}
    {stack below : ParseStack} {position extent : Nat}
    (found : stack.takeChildren source.rhs.length = some (taken, after, below))
    (symbols : Subtree.plainSymbols taken = source.rhs)
    (total : Subtree.totalLength stack.subtrees = position)
    (sound : Subtree.AllSound job.lexer plain job.text
      (Subtree.totalLength below.subtrees) taken)
    (awake : job.lexer.Awake job.text position extent) (state : StateId) (fragile : Bool) :
    Subtree.Sound job.lexer plain job.text (Subtree.totalLength below.subtrees)
      (reducedNode job.grammar state production fragile
        (extent + Subtree.totalLength after) taken) := by
  have grown (clean : (reducedNode job.grammar state production fragile
      (extent + Subtree.totalLength after) taken).errorCount = 0) :
      Subtree.Grown job.lexer plain job.text (Subtree.totalLength below.subtrees)
        (reducedNode job.grammar state production fragile
          (extent + Subtree.totalLength after) taken) := by
    rw [reducedNode_errorCount errors, List.sum_eq_zero_iff] at clean
    have each : ∀ part ∈ Subtree.placed (Subtree.totalLength below.subtrees) taken,
        part.subtree.Grown job.lexer plain job.text part.start := fun part member => by
      obtain ⟨index, here, -⟩ := Subtree.mem_placed.1 member
      exact (sound part member).own
        (clean _ (List.mem_map_of_mem (List.mem_of_getElem? here)))
    obtain ⟨head, last⟩ := ParseStack.takeFrom_ends found (fun _ => nofun) nofun
    refine .node listed lhs symbols rfl ?_ last each
    cases taken with
    | nil =>
        -- nothing is taken for an empty production, so what comes next begins here
        rw [← symbols] at found
        obtain ⟨-, same⟩ := Prod.mk.inj (Option.some.inj
          ((ParseStack.takeChildren_zero stack).symm.trans found))
        obtain ⟨rfl, rfl⟩ := Prod.mk.inj same
        rw [total]
        refine awake.mono (le_trans ?_ (Subtree.following_le_extent 0 _))
        exact Nat.le_add_right extent 0
    | cons child rest =>
        have first := each _ List.mem_cons_self
        have here : (child :: rest)[0]? = some child := rfl
        exact (first.awake (head child rfl)).mono
          ((Nat.zero_add child.extent).ge.trans (Subtree.extent_of_child 0 _ here))
  exact .mk (.node 0 _ sound.built) grown sound

end

section Laid

variable {job : ParseJob} {plain : PlainGrammar} {items : StateId → Item → Prop}
  (steady : job.Steady) (acts : job.grammar.ActsOn plain items)
  {version : Version} {lookahead : Lookahead}

include steady acts

namespace Version.Laid

variable (laid : version.Laid job plain items)
  (lies : lookahead.Lies job plain version.position)

include laid lies

/-- A production that the table calls for is reduced. -/
theorem reduce {production : ProductionId}
    (action : .reduce production ∈ job.grammar.actions version.state lookahead.symbol)
    (fragile : Bool) :
    ∃ reduced : Version, ParseRun.reduce (m := Id) job.grammar
        { version with lookahead := some lookahead } production fragile = some reduced ∧
      reduced.Laid job plain items ∧
      (ParseStack.Faultless version.stack → ParseStack.Faultless reduced.stack) := by
  obtain ⟨source, listed, taken, after, below, next, found, path, symbols, extras, goto, enters⟩ :=
    laid.path.reducible acts.toWorksOn action
  obtain ⟨lhs, length⟩ := acts.production listed
  obtain ⟨-, notError, -⟩ := acts.defined action
  have parts := ParseStack.takeChildren_subtrees found
  obtain ⟨-, above, -⟩ := laid.stands.below ((List.append_assoc _ _ _).symm.trans parts)
  have made := @ParseRun.reduce_eq job.grammar { version with lookahead := some lookahead } _
    fragile _ _ _ _ found goto
  rw [length] at found
  have sound := ParseRun.reducedNode_stands listed lhs notError found symbols laid.stands.total
    (Subtree.allSound_append.1 above).1 (lies.awake steady acts laid.boundary action) below.state
    fragile
  simp only [Option.map_some, Option.getD_some] at made
  generalize nodeEq : ParseRun.reducedNode job.grammar below.state production fragile _ taken =
    node at made sound
  have nodeErrors : node.errorCount = (taken.map Subtree.errorCount).sum :=
    nodeEq ▸ ParseRun.reducedNode_errorCount notError _ _ _ _
  have nodeLength : node.length = Subtree.totalLength taken := nodeEq ▸ rfl
  have nodeSymbol : node.symbol = source.lhs := nodeEq ▸ lhs
  have notExtra : node.isExtra = false := nodeEq ▸ rfl
  rw [← nodeSymbol] at enters
  have spelled := (@ParseStack.spells_kept job.grammar plain items).pushAll
    (path.enter notExtra enters) extras fun _ _ => trivial
  refine ⟨_, made, ⟨spelled, laid.stands.fold parts nodeLength sound next, laid.boundary, ?_⟩,
    fun faultless => faultless.fold parts nodeErrors next⟩
  rintro _ ⟨⟩
  exact lies

omit acts in
/-- A node of the earlier tree is taken over. -/
theorem adopt (works : job.grammar.WorksOn plain items) (unknown : version.lookahead = none)
    {node : Subtree} (reused : lookahead = .reused node) (isNode : node.isLeaf = false)
    {next : StateId} (goto : job.grammar.goto? version.state node.symbol = some next) :
    node.errorCount = 0 ∧ Version.Laid job plain items
      { version.push next node with position := version.position + node.length } := by
  subst reused
  obtain ⟨grown, clean, -⟩ := lies
  have notExtra : node.isExtra = false := by
    cases grown with
    | token => cases isNode
    | node => assumption
  have pushed := laid.push steady grown (laid.path.enter notExtra (works.recognizes.goto goto))
  exact ⟨clean, pushed.path, pushed.stands, pushed.boundary,
    fun lookahead known => by cases unknown.symm.trans known⟩

end Version.Laid

namespace Version.Laid

variable (terminals : ∀ symbol, plain.isTerminal symbol = job.lexer.grammar.data.isTerminal symbol)
  (laid : version.Laid job plain items)

include laid

omit acts in
include terminals in
/-- Parsing goes on at a later token. -/
theorem resume {resumption : Resume} {token : Token}
    (found : (Recovery.window job version.position)[resumption.skipped]? = some token) :
    Version.Laid job plain items (Recovery.resume (m := Id) job.grammar version
      (Recovery.window job version.position) resumption token) := by
  obtain ⟨same, boundary, -⟩ := Recovery.reads_window steady laid.boundary found
  refine ⟨(@ParseStack.spells_kept job.grammar plain items).resume laid.path _ _ _,
    Recovery.resume_stands steady terminals laid.stands laid.boundary found, boundary, ?_⟩
  rintro _ ⟨⟩
  exact same

omit acts in
include terminals in
/-- A token is skipped. -/
theorem skip {token : Token} (first : (Recovery.window job version.position).head? = some token)
    (further : ((Recovery.window job version.position).getLast?).any Token.isEnd = false) :
    Version.Laid job plain items (Recovery.skipToken (m := Id) job.grammar version token) := by
  have bound := Text.le_size_of_isBoundary laid.boundary
  have loaded := steady.filled.toIsLoaded
  obtain ⟨stop, side⟩ := Recovery.window_sideBySide
    (fun offset bound lexState => Lexer.standsAt_of_internal loaded steady.internal bound lexState)
    bound
  obtain ⟨stands, notEnd⟩ := side.head first further
  have here : (Recovery.window job version.position)[0]? = some token := by
    rw [← List.head?_eq_getElem?, first]
  obtain ⟨same, boundary, -⟩ := Recovery.reads_window steady laid.boundary here
  have length := stands.length_eq bound
  rw [stands.start] at same
  have next := Lexer.boundary_plainToken steady.internal loaded steady.wellFormed laid.boundary
    (same ▸ notEnd)
  have reads : job.lexer.Reads job.text version.position [token]
      (version.position + token.length) := same ▸ .cons (same ▸ notEnd) .nil
  have pushed := @Recovery.pushError_stands job.grammar _ _ _ _ version laid.stands _
    (Recovery.allSound_errorLeaves steady terminals laid.boundary reads version.state)
  rw [← same] at next
  rw [Recovery.totalLength_errorLeaves, List.map_singleton, List.sum_singleton] at pushed
  rw [length] at pushed next
  exact ⟨(@ParseStack.spells_kept job.grammar plain items).skipToken laid.path _, pushed, next,
    nofun⟩

end Version.Laid

end Laid

/-! ## Trees over a text -/

namespace Subtree.AllSound

/-- The parts of an accepted tree are sound. -/
theorem foldRoot {lexer : Lexer} {plain : PlainGrammar} {text : Text} {subtrees : List Subtree}
    (sound : AllSound lexer plain text 0 subtrees) (grammar : Grammar) :
    AllSound lexer plain text 0
      (Subtree.children (ParseRun.foldRoot (m := Id) grammar subtrees)) := by
  unfold ParseRun.foldRoot
  split
  · next root only =>
      have parts := ParseStack.split_of_filter only
      split
      · next single =>
          obtain ⟨first, rfl⟩ := List.length_eq_one_iff.1 (beq_iff_eq.1 single)
          have member : root ∈ [first].filter fun subtree => !subtree.isExtra :=
            only ▸ List.mem_singleton_self root
          rw [List.mem_singleton.1 (List.mem_of_mem_filter member)]
          exact (allSound_singleton.1 sound).under
      · split
        · exact sound
        · next isNode =>
            rw [parts, allSound_append, allSound_cons] at sound
            obtain ⟨before, own, after⟩ := sound
            have filled := own.built.filled (Bool.not_eq_true _ ▸ isNode)
            change AllSound lexer plain text 0 (_ ++ root.children ++ _)
            rw [List.append_assoc, allSound_append, allSound_append, ← filled]
            exact ⟨before, own.under, after⟩
  · exact sound

end Subtree.AllSound

/-- The parts of the tree of a version that goes nowhere are sound. -/
theorem Recovery.giveUp_sound {job : ParseJob} {plain : PlainGrammar} (steady : job.Steady)
    (terminals : ∀ symbol, plain.isTerminal symbol = job.lexer.grammar.data.isTerminal symbol)
    {version : Version} (stands : version.stack.Stands job.lexer plain job.text version.position)
    (boundary : job.text.isBoundary version.position = true) :
    Subtree.AllSound job.lexer plain job.text 0
      (Finished.root (giveUp (m := Id) job.grammar version
        (window job version.position))).children := by
  obtain ⟨stop, reads⟩ := exists_reads_window steady boundary
  have remains : Subtree.AllSound job.lexer plain job.text 0
      (remains job.grammar version (window job version.position)) := by
    refine Subtree.allSound_append.2 ⟨stands.parts, ?_⟩
    rw [stands.total, Nat.zero_add]
    exact allSound_errorLeaves steady terminals boundary reads version.state
  rw [giveUp_root]
  change Subtree.AllSound _ _ _ 0 (_ ++ [_])
  rw [← @List.takeWhile_append_dropWhile _ Subtree.isExtra
    (Recovery.remains job.grammar version (window job version.position)),
    Subtree.allSound_append] at remains
  rw [Subtree.allSound_append, Subtree.allSound_singleton]
  refine ⟨remains.1, ?_⟩
  unfold wrapped
  split
  · exact .mk (.token _ _) (fun clean => by cases clean) nofun
  · exact (remains.2.errorNode job.grammar).1

end IncrementalGlr
