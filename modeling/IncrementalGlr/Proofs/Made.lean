import IncrementalGlr.Proofs.Coverage.Parse
import IncrementalGlr.Proofs.Edits.Parts
import IncrementalGlr.Proofs.Sharing.Session

/-!
# What a parse makes

A parse puts on its stacks tokens and nodes that it makes itself, with the error mark if their symbol
is the error, and what it takes over from an earlier tree.  It takes nodes apart, but it never looks
into a token.  So a property holds of all its subtrees, its tree included, if tokens have it, nodes
have it whose children do, and children inherit it.
-/

namespace IncrementalGlr

/-- Whether a property of subtrees passes on to what a parse makes of them. -/
structure Subtree.Passes (holds : Subtree → Prop) : Prop where
  /-- Tokens have it that are marked as errors if their symbol is the error. -/
  token (spec : LeafSpec) (mark : spec.error = decide (spec.symbol = .error)) :
    holds (.ofLeaf 0 spec)
  /-- Nodes have it that are marked so, if their children have it. -/
  node (spec : NodeSpec) (mark : spec.error = decide (spec.symbol = .error))
    {children : List Subtree} (each : ∀ child ∈ children, holds child) :
    holds (.ofChildren 0 spec children)
  /-- Children inherit it. -/
  child {subtree : Subtree} (own : holds subtree) : ∀ child ∈ subtree.children, holds child

/-- Whether a lookahead is a token, or a part of an earlier tree with a property. -/
def Lookahead.Each (holds : Subtree → Prop) : Lookahead → Prop
  | .token _ _ => True
  | .reused part => holds part

/-- Whether all subtrees on a stack have a property. -/
def ParseStack.Each (holds : Subtree → Prop) (stack : ParseStack) : Prop :=
  ∀ subtree ∈ stack.subtrees, holds subtree

/-- Whether all subtrees on the stack of a version and before it have a property. -/
structure Version.Each (holds : Subtree → Prop) (version : Version) : Prop where
  /-- The subtrees on the stack. -/
  stack : ParseStack.Each holds version.stack
  /-- What comes next. -/
  lookahead : ∀ lookahead ∈ version.lookahead, lookahead.Each holds

/-- Whether all parts of an earlier tree that are left have a property. -/
def ReuseCursor.Each (holds : Subtree → Prop) (cursor : ReuseCursor) : Prop :=
  ∀ node ∈ cursor.pending, holds node.subtree

variable {holds : Subtree → Prop}

namespace ParseStack

variable {stack : ParseStack}

theorem Each.pushAll (each : Each holds stack) (state : StateId) {subtrees : List Subtree}
    (pushed : ∀ subtree ∈ subtrees, holds subtree) : Each holds (stack.pushAll state subtrees) := by
  intro subtree member
  rw [subtrees_pushAll, List.mem_append] at member
  exact member.elim (each subtree) (pushed subtree)

theorem Each.push (each : Each holds stack) (state : StateId) {subtree : Subtree}
    (top : holds subtree) : Each holds (⟨state, subtree⟩ :: stack) :=
  each.pushAll state (List.forall_mem_singleton.2 top)

end ParseStack

namespace ReuseCursor

variable {cursor : ReuseCursor}

/-- The part of an earlier tree at a position is one that is left. -/
theorem Each.candidate (each : cursor.Each holds) {position : Nat} {subtree : Subtree}
    (found : cursor.candidate? position = some subtree) : holds subtree := by
  obtain ⟨_ | ⟨node, rest⟩⟩ := cursor
  · cases found
  · simp only [candidate?] at found
    split at found
    · obtain rfl := Option.some.inj found
      exact each node List.mem_cons_self
    · cases found

theorem forall_mem_placed {start : Nat} {subtrees : List Subtree}
    (each : ∀ subtree ∈ subtrees, holds subtree) :
    ∀ node ∈ Subtree.placed start subtrees, holds node.subtree := by
  induction subtrees generalizing start with
  | nil => exact nofun
  | cons child rest induction =>
      obtain ⟨first, others⟩ := List.forall_mem_cons.1 each
      exact List.forall_mem_cons.2 ⟨first, induction others⟩

theorem Each.later (each : cursor.Each holds)
    (child : ∀ {subtree : Subtree}, holds subtree → ∀ child ∈ subtree.children, holds child)
    {other : ReuseCursor} (after : cursor.Later other) : other.Each holds := by
  have inherited : Inherited fun node => holds node.subtree :=
    fun node own => forall_mem_placed (child own)
  exact inherited.later each after

end ReuseCursor

section Passes

variable (passes : Subtree.Passes holds)

include passes

namespace Recovery

variable {grammar : Grammar} {version : Version}

theorem errorLeaf_holds (state : StateId) (token : Token) :
    holds (plainErrorLeaf grammar state token) := passes.token _ rfl

theorem errorLeaves_hold (state : StateId) (tokens : List Token) :
    ∀ leaf ∈ tokens.map (plainErrorLeaf grammar state), holds leaf :=
  List.forall_mem_map.2 fun token _ => errorLeaf_holds passes state token

theorem errorNode_holds {children : List Subtree} (each : ∀ child ∈ children, holds child) :
    holds (errorNode (m := Id) grammar children) := by
  refine passes.node _ rfl fun child member => ?_
  obtain ⟨subtree, subtreeMember, inside⟩ := List.mem_flatMap.1 member
  split at inside
  · exact passes.child (each subtree subtreeMember) child inside
  · obtain rfl := List.mem_singleton.1 inside
    exact each child subtreeMember

theorem pushError_each (stack : ParseStack.Each holds version.stack) {children : List Subtree}
    (each : ∀ child ∈ children, holds child) :
    ParseStack.Each holds (Version.stack (pushError (m := Id) grammar version children)) := by
  obtain ⟨entries, position, lookahead, path⟩ := version
  cases children with
  | nil => exact stack
  | cons child rest =>
      cases entries with
      | nil => exact stack.push _ (errorNode_holds passes each)
      | cons entry below =>
          unfold pushError
          dsimp only
          rw [if_neg (by simp)]
          split
          · simp only [ParseStack.Each, ParseStack.subtrees_cons] at stack
            have under : ParseStack.Each holds below := fun subtree member =>
              stack subtree (List.mem_append_left _ member)
            refine under.push _ (errorNode_holds passes (List.forall_mem_cons.2 ⟨?_, each⟩))
            exact stack _ (List.mem_append_right _ (List.mem_singleton_self _))
          · exact stack.push _ (errorNode_holds passes each)

theorem pushExtras_each (stack : ParseStack.Each holds version.stack) (tokens : List Token) :
    ParseStack.Each holds
      (Version.stack (tokens.foldlM (pushExtra (m := Id) grammar) version)) := by
  induction tokens generalizing version with
  | nil => exact stack
  | cons token rest induction =>
      have pushed : ParseStack.Each holds
          (Version.stack (pushExtra (m := Id) grammar version token)) :=
        stack.push version.state (passes.token _ rfl)
      exact induction pushed

theorem resume_each (stack : ParseStack.Each holds version.stack) (window : List Token)
    (resumption : Resume) (token : Token) :
    ParseStack.Each holds
      (Version.stack (resume (m := Id) grammar version window resumption token)) := by
  have parts := version.stack.subtrees_take_drop resumption.popped
  have below : ParseStack.Each holds (version.stack.drop resumption.popped) :=
    fun subtree member => stack subtree (parts ▸ List.mem_append_left _ member)
  have popped : ParseStack.Each holds (version.stack.take resumption.popped) :=
    fun subtree member => stack subtree (parts ▸ List.mem_append_right _ member)
  unfold resume
  simp only [mapM_errorLeaf]
  have surrounded := below.pushAll (ParseStack.state (version.stack.drop resumption.popped))
    fun subtree member => popped subtree ((List.takeWhile_prefix Subtree.isExtra).subset member)
  refine @pushExtras_each holds passes grammar
    (pushError (m := Id) grammar { version with stack := _ } _)
    (pushError_each passes surrounded fun subtree member => ?_) _
  rcases List.mem_append.1 member with content | leaf
  · exact popped subtree ((List.dropWhile_suffix _).subset content)
  · exact errorLeaves_hold passes _ _ subtree leaf

theorem giveUp_holds (stack : ParseStack.Each holds version.stack) (window : List Token) :
    holds (Finished.root (giveUp (m := Id) grammar version window)) := by
  have remains : ∀ subtree ∈ remains grammar version window, holds subtree :=
    fun subtree member => (List.mem_append.1 member).elim (stack subtree)
      (errorLeaves_hold passes _ _ subtree)
  rw [giveUp_root]
  refine passes.node _ rfl fun child member => ?_
  rcases List.mem_append.1 member with leading | last
  · exact remains child ((List.takeWhile_prefix Subtree.isExtra).subset leading)
  · obtain rfl := List.mem_singleton.1 last
    unfold wrapped
    split
    · exact passes.token _ rfl
    · exact errorNode_holds passes fun child member =>
        remains child ((List.dropWhile_suffix _).subset member)

end Recovery

namespace ParseRun

variable {job : ParseJob} {version : Version} {lookahead : Lookahead}

theorem leafOf_holds (grammar : Grammar) (state : StateId) (extra : Bool)
    (next : lookahead.Each holds) : holds (leafOf (m := Id) grammar state extra lookahead) := by
  cases lookahead with
  | token found lexState => exact passes.token _ rfl
  | reused part => exact next

theorem pushLeaf_each (grammar : Grammar) (state : StateId) (extra : Bool)
    (stack : ParseStack.Each holds version.stack) (next : lookahead.Each holds) :
    Version.Each holds (pushLeaf (m := Id) grammar version lookahead state extra) :=
  ⟨stack.push state (leafOf_holds passes grammar version.state extra next), nofun⟩

theorem reduce_each {grammar : Grammar} (each : version.Each holds) {production : ProductionId}
    {fragile : Bool} {reduced : Version}
    (result : reduce (m := Id) grammar version production fragile = some reduced) :
    reduced.Each holds := by
  unfold reduce at result
  dsimp only at result
  split at result
  · cases result
  · next children trailing below taken =>
      split at result
      · cases result
      · next next goto =>
          obtain rfl := Option.some.inj result
          have parts := ParseStack.takeChildren_subtrees taken
          have held : ∀ subtree ∈ below.subtrees ++ children ++ trailing, holds subtree :=
            parts ▸ each.stack
          have under : ParseStack.Each holds below := fun subtree member =>
            held subtree (List.mem_append_left _ (List.mem_append_left _ member))
          have node (spec : NodeSpec) (mark : spec.error = decide (spec.symbol = .error)) :
              holds (.ofChildren 0 spec children) :=
            passes.node spec mark fun child member =>
              held child (List.mem_append_left _ (List.mem_append_right _ member))
          exact ⟨(under.push next (node _ rfl)).pushAll next fun extra member =>
            held extra (List.mem_append_right _ member), each.lookahead⟩

theorem foldRoot_holds (grammar : Grammar) {subtrees : List Subtree}
    (each : ∀ subtree ∈ subtrees, holds subtree) :
    holds (foldRoot (m := Id) grammar subtrees) := by
  unfold foldRoot
  split
  · next root only =>
      have member : root ∈ subtrees := (List.mem_filter.1 (only ▸ List.mem_singleton_self root)).1
      split
      · exact each root member
      · split
        · exact passes.node _ rfl each
        · refine passes.node _ rfl fun child childMember => ?_
          rcases List.mem_append.1 childMember with before | after
          · rcases List.mem_append.1 before with before | inside
            · exact each child ((List.takeWhile_prefix _).subset before)
            · exact passes.child (each root member) child inside
          · exact each child ((List.dropWhile_suffix _).subset (List.mem_of_mem_tail after))
  · exact passes.node _ rfl each

theorem move_each (each : version.Each holds) (next : lookahead.Each holds) {moved : Version}
    (moves : Version.Moves job { version with lookahead := none } lookahead moved) :
    moved.Each holds := by
  have looking : Version.Each holds { version with lookahead := some lookahead } :=
    ⟨each.stack, fun _ same => Option.some.inj same ▸ next⟩
  cases moves with
  | shift action => exact pushLeaf_each passes _ _ _ each.stack next
  | reduce action result => exact reduce_each passes looking result
  | extra noAction isExtra notEnd => exact pushLeaf_each passes _ _ _ each.stack next
  | adopt reused state goto =>
      subst reused
      exact ⟨each.stack.push _ next, nofun⟩
  | reject reused => exact ⟨each.stack, nofun⟩
  | resume noAction found at_ =>
      refine ⟨Recovery.resume_each passes looking.stack _ _ _, fun lookahead same => ?_⟩
      obtain rfl := Option.some.inj same
      trivial
  | skip noAction first further =>
      exact ⟨Recovery.pushError_each passes looking.stack
        (List.forall_mem_singleton.2 (Recovery.errorLeaf_holds passes _ _)), nofun⟩

/-- Whatever a version looks at is a token or comes from an earlier tree. -/
theorem looksAt_each {reuse : Option ReuseCursor} (offered : ∀ cursor ∈ reuse, cursor.Each holds)
    (each : version.Each holds) (looks : version.LooksAt job reuse lookahead) :
    lookahead.Each holds := by
  cases looks with
  | pending found => exact each.lookahead lookahead found
  | token unknown => trivial
  | part unknown reusing found usable =>
      exact ((offered _ reusing).later passes.child (.seek _ _ .refl)).candidate found

/-- Every move leaves only subtrees with the property. -/
theorem each_preserved (job : ParseJob) :
    Preserved job (Version.Each holds) holds (ReuseCursor.Each holds) where
  alike each alike := by
    rw [Version.AlikeTo] at alike
    rw [alike]
    exact ⟨each.stack, each.lookahead⟩
  start := ⟨List.forall_mem_nil _, nofun⟩
  move offered each looks moves :=
    move_each passes each (looksAt_each passes offered each looks) moves
  finish offered each looks ends := by
    cases ends with
    | accept action => exact foldRoot_holds passes _ each.stack
    | giveUp noAction ended => exact Recovery.giveUp_holds passes each.stack _
  later each after := each.later passes.child after

theorem result_holds {run : ParseRun}
    (keeps : run.Keeps (Version.Each holds) holds (ReuseCursor.Each holds)) :
    holds (run.result (m := Id) job) := by
  unfold result
  split
  · next best found => exact keeps.finished best (Rank.best?_mem found)
  · have best : Version.Each holds ((Rank.best? Version.rank run.versions).getD .start) := by
      cases found : Rank.best? Version.rank run.versions with
      | none => exact (each_preserved passes job).start
      | some version => exact keeps.versions version (Rank.best?_mem found)
    dsimp only
    split
    · exact passes.node _ rfl fun child member =>
        (List.mem_append.1 member).elim (best.stack child) fun none => absurd none List.not_mem_nil
    · refine passes.node _ rfl fun child member => ?_
      rcases List.mem_append.1 member with older | last
      · exact best.stack child older
      · obtain rfl := List.mem_singleton.1 last
        exact passes.token _ rfl

end ParseRun

/-- The tree of a run has the property if all it takes over does, even if the run is cut short. -/
theorem Parser.runJob_holds (job : ParseJob) (options : ParseOptions) {reuse : Option ReuseCursor}
    (offered : ∀ cursor ∈ reuse, cursor.Each holds) :
    holds (runJob (m := Id) job options reuse).1 :=
  ParseRun.result_holds passes ((ParseRun.each_preserved passes job).runFor offered _ _ _)

end Passes

/-!
## Trees of fresh parses

A parse without an earlier tree puts nothing on its stacks but tokens and nodes that it makes
itself.  So no part of its tree is marked as changed, whether it comes to its end or not.
-/

namespace Subtree

variable {subtree : Subtree}

theorem Built.child (built : subtree.Built) : ∀ child ∈ subtree.children, child.Built := by
  cases built with
  | token id spec => exact nofun
  | node id spec under => exact under

/-- Whatever a parse makes of built subtrees is built. -/
theorem passes_built : Passes Built where
  token spec _ := .token 0 spec
  node spec _ _ each := .node 0 spec each
  child own := own.child

theorem Built.unchanged (built : subtree.Built) : subtree.hasChanges = false := by
  induction built with
  | token id spec => rfl
  | node id spec under induction =>
      exact List.any_eq_false.2 fun child member => by simp [induction child member]

theorem eq_of_erase {left right : Subtree} (same : left.erase = right.erase)
    (id : left.id = right.id) (children : left.children = right.children) : left = right := by
  obtain ⟨data, below⟩ := left
  obtain ⟨otherData, otherBelow⟩ := right
  have plain : { data with id := 0 } = { otherData with id := 0 } := by
    have erased := congrArg Subtree.data same
    rwa [erase_data, erase_data] at erased
  obtain ⟨_, _, _, _, _, _, _, _, _, _, _⟩ := data
  obtain ⟨_, _, _, _, _, _, _, _, _, _, _⟩ := otherData
  cases id
  cases children
  cases plain
  rfl

/-- Ids do not matter for being built. -/
theorem Built.of_erase (built : subtree.erase.Built) : subtree.Built := by
  generalize same : subtree.erase = erased at built
  induction built generalizing subtree with
  | token id spec =>
      have bare : subtree.children = [] := by
        have below := congrArg Subtree.children same
        rwa [erase_children, show (ofLeaf id spec).children = [] from rfl, List.map_eq_nil_iff]
          at below
      have zero : id = 0 := by
        have ids := congrArg Subtree.id same
        rw [Subtree.id, erase_data] at ids
        exact ids.symm
      have whole : subtree = ofLeaf subtree.id spec :=
        eq_of_erase (by rw [same, erase_ofLeaf, zero]) rfl bare
      rw [whole]
      exact .token _ _
  | @node id spec children under induction =>
      have below : subtree.children.map erase = children := by
        have below := congrArg Subtree.children same
        rwa [erase_children] at below
      have zero : id = 0 := by
        have ids := congrArg Subtree.id same
        rw [Subtree.id, erase_data] at ids
        exact ids.symm
      have whole : subtree = ofChildren subtree.id spec subtree.children :=
        eq_of_erase (by rw [same, erase_ofChildren, zero, below]) rfl rfl
      rw [whole]
      refine .node _ _ fun child member => ?_
      exact induction child.erase (below ▸ List.mem_map_of_mem member) rfl

end Subtree

namespace Parser

/-- Without an earlier tree a run builds its tree, even if it is cut short. -/
theorem runJob_built (job : ParseJob) (options : ParseOptions) :
    (runJob (m := Id) job options none).1.Built :=
  runJob_holds Subtree.passes_built job options nofun

/-- The tree of a parse without an earlier tree is built. -/
theorem parse_fresh_built {memory : Memory} {parser : Parser} (valid : parser.store.Valid memory)
    (text : Text) (edits : List Edit) : (parser.parse text none edits).1.tree.root.Built := by
  have image : (parser.parse text none edits).1.tree.root.erase = _ :=
    congrArg Prod.fst (parse_fresh_eq valid text edits)
  refine .of_erase ?_
  rw [image]
  exact runJob_built _ _

end Parser

end IncrementalGlr
