import IncrementalGlr.Parse.Recovery
import IncrementalGlr.Proofs.Sharing.Stack

/-!
# Actions of a version without identity

Every action of a version on a store mirrors the same action on subtrees without ids.
-/

namespace IncrementalGlr

open Erasable

section Extras

variable {memory : Memory} {subtrees : List Subtree}

theorem takeWhile_isExtra_erase (subtrees : List Subtree) :
    (erase subtrees).takeWhile Subtree.isExtra = erase (subtrees.takeWhile Subtree.isExtra) := by
  simp [erase_list, List.takeWhile_map, Function.comp_def]

theorem dropWhile_isExtra_erase (subtrees : List Subtree) :
    (erase subtrees).dropWhile Subtree.isExtra = erase (subtrees.dropWhile Subtree.isExtra) := by
  simp [erase_list, List.dropWhile_map, Function.comp_def]

theorem takeWhile_isExtra_known (known : Known memory subtrees) :
    Known memory (subtrees.takeWhile Subtree.isExtra) :=
  known_of_subset known (List.takeWhile_prefix _).subset

theorem dropWhile_isExtra_known (known : Known memory subtrees) :
    Known memory (subtrees.dropWhile Subtree.isExtra) :=
  known_of_subset known (List.dropWhile_suffix _).subset

end Extras

namespace ParseRun

variable {memory : Memory} {grammar : Grammar}

theorem mirrors_leafOf (state : StateId) (extra : Bool) {lookahead : Lookahead}
    (known : Known memory lookahead) :
    Mirrors memory (leafOf grammar state extra lookahead)
      (leafOf grammar state extra (erase lookahead)) := by
  cases lookahead with
  | token found lexState => exact mirrors_leaf memory _
  | reused subtree => exact .pure known rfl

theorem mirrors_pushLeaf {version : Version} {lookahead : Lookahead} (next : StateId)
    (extra : Bool) (known : Known memory version) (lookaheadKnown : Known memory lookahead) :
    Mirrors memory (pushLeaf grammar version lookahead next extra)
      (pushLeaf grammar (erase version) (erase lookahead) next extra) := by
  unfold pushLeaf
  rw [Version.state_erase]
  refine (mirrors_leafOf version.state extra lookaheadKnown).andThen
    fun larger leaf grows leafKnown => ⟨?_, ?_⟩
  · have pushed : Known larger (version.push next leaf) :=
      Version.push_known (Erasable.mono known grows) leafKnown
    exact ⟨pushed.1, known_none⟩
  · simp [Version.erase_eq, Version.push, StackEntry.erase_eq]

theorem mirrors_reduce {version : Version} (production : ProductionId) (fragile : Bool)
    (known : Known memory version) :
    Mirrors memory (reduce grammar version production fragile)
      (reduce grammar (erase version) production fragile) := by
  unfold reduce
  simp only [Version.erase_stack, ParseStack.takeChildren_erase]
  have partsKnown :=
    ParseStack.takeChildren_known known.1 (grammar.production production).length.toNat
  generalize version.stack.takeChildren (grammar.production production).length.toNat = parts
    at partsKnown ⊢
  rcases parts with _ | ⟨children, trailing, below⟩
  · exact .pure known_none rfl
  · obtain ⟨childrenKnown, trailingKnown, belowKnown⟩ := known_some.1 partsKnown
    have lengths : Subtree.totalLength (erase trailing) = Subtree.totalLength trailing := by
      exact Subtree.totalLength_map_erase trailing
    have extents : (erase version).lookahead.map Lookahead.extent =
        version.lookahead.map Lookahead.extent := by
      rw [Version.erase_lookahead]
      cases version.lookahead <;> simp
    simp only [erase_some, erase_pair, ParseStack.state_erase]
    cases grammar.goto? below.state (grammar.production production).lhs with
    | none => exact .pure known_none rfl
    | some next =>
        simp only [lengths, extents]
        refine (mirrors_node memory _ childrenKnown).andThen fun larger node grows nodeKnown => ?_
        refine ⟨known_some.2 ⟨?_, Erasable.mono known.2 grows⟩, ?_⟩
        · exact ParseStack.pushAll_known
            (known_cons.2 ⟨nodeKnown, Erasable.mono belowKnown grows⟩)
            (Erasable.mono trailingKnown grows)
        · simp [Version.erase_eq, ← ParseStack.pushAll_erase, StackEntry.erase_eq]

theorem mirrors_rootNode {children : List Subtree} (known : Known memory children) :
    Mirrors memory (rootNode grammar children) (rootNode grammar (erase children)) :=
  mirrors_node memory _ known

theorem mirrors_foldRoot {subtrees : List Subtree} (known : Known memory subtrees) :
    Mirrors memory (foldRoot grammar subtrees) (foldRoot grammar (erase subtrees)) := by
  unfold foldRoot
  have solid : (erase subtrees).filter (fun subtree => !subtree.isExtra) =
      erase (subtrees.filter fun subtree => !subtree.isExtra) := by
    simp [erase_list, List.filter_map, Function.comp_def]
  have solidKnown : Known memory (subtrees.filter fun subtree => !subtree.isExtra) :=
    known_of_subset known List.filter_sublist.subset
  have after : ((erase subtrees).dropWhile Subtree.isExtra).tail =
      erase (subtrees.dropWhile Subtree.isExtra).tail := by
    rw [dropWhile_isExtra_erase]
    exact List.map_tail.symm
  have afterKnown : Known memory (subtrees.dropWhile Subtree.isExtra).tail :=
    known_of_subset (dropWhile_isExtra_known known) (List.tail_sublist _).subset
  rw [solid]
  generalize (subtrees.filter fun subtree => !subtree.isExtra) = roots at solidKnown ⊢
  rcases roots with _ | ⟨root, _ | ⟨other, rest⟩⟩
  · exact mirrors_rootNode known
  · have length : List.length (erase subtrees) = subtrees.length := List.length_map _
    have rootKnown : memory.Knows root := (known_cons.1 solidKnown).1
    simp only [erase_cons, erase_nil, erase_subtree, length, Subtree.erase_isLeaf]
    refine Mirrors.ofClosed fun closed => .ite (fun _ => .pure rootKnown rfl) fun _ => .ite
      (fun _ => mirrors_rootNode known) fun _ => ?_
    have childrenKnown : Known memory (subtrees.takeWhile Subtree.isExtra ++ root.children ++
        (subtrees.dropWhile Subtree.isExtra).tail) := by
      simp only [known_append]
      exact ⟨⟨takeWhile_isExtra_known known, closed root rootKnown⟩, afterKnown⟩
    have folded := mirrors_node memory
      { NodeSpec.ofGrammar grammar root.symbol with
        production := root.production
        parseState := root.parseState
        dynamicPrecedence := ownPrecedence grammar root.production
        following := 1 } childrenKnown
    have children : root.erase.children = erase root.children := Subtree.erase_children root
    simpa [-Subtree.erase_children, children, takeWhile_isExtra_erase, after] using folded
  · exact mirrors_rootNode known

theorem countReuse_erase (lookahead : Lookahead) (run : ParseRun) :
    countReuse (erase lookahead) (erase run) = erase (countReuse lookahead run) := by
  cases lookahead <;> rfl

theorem countReuse_known {lookahead : Lookahead} {run : ParseRun} (known : Known memory run) :
    Known memory (countReuse lookahead run) := by
  cases lookahead <;> exact known

theorem mirrors_apply {version : Version} {lookahead : Lookahead} (fragile : Bool)
    {run : ParseRun} (action : Action) (known : Known memory version)
    (lookaheadKnown : Known memory lookahead) (runKnown : Known memory run) :
    Mirrors memory (apply grammar version lookahead fragile run action)
      (apply grammar (erase version) (erase lookahead) fragile (erase run) action) := by
  cases action with
  | shift next =>
      refine (mirrors_pushLeaf next false known lookaheadKnown).andThen
        fun larger shifted grows shiftedKnown => ⟨?_, ?_⟩
      · exact ⟨countReuse_known (Erasable.mono runKnown grows), known_some.2 shiftedKnown⟩
      · rw [countReuse_erase]
        rfl
  | reduce production =>
      have looking : Known memory { version with lookahead := some lookahead } :=
        ⟨known.1, known_some.2 lookaheadKnown⟩
      exact (mirrors_reduce production fragile looking).andThen
        fun larger reduced grows reducedKnown =>
          ⟨⟨Erasable.mono runKnown grows, reducedKnown⟩, rfl⟩
  | accept =>
      have rootMirrors : Mirrors memory (foldRoot grammar version.stack.subtrees)
          (foldRoot grammar (erase version.stack.subtrees)) :=
        mirrors_foldRoot (ParseStack.subtrees_known known.1)
      rw [← ParseStack.subtrees_erase] at rootMirrors
      refine rootMirrors.andThen fun larger root grows rootKnown => ⟨⟨?_, known_none⟩, ?_⟩
      · obtain ⟨reuseKnown, versionsKnown, finishedKnown⟩ := Erasable.mono runKnown grows
        refine ⟨reuseKnown, versionsKnown, known_append.2 ⟨finishedKnown, ?_⟩⟩
        exact known_cons.2 ⟨rootKnown, known_nil⟩
      · simp [erase_eq, Finished.erase_eq]

theorem mirrors_applyAll {version : Version} {lookahead : Lookahead} (fragile : Bool)
    (alternative : Nat) {run : ParseRun} (actions : List Action) (known : Known memory version)
    (lookaheadKnown : Known memory lookahead) (runKnown : Known memory run) :
    Mirrors memory (applyAll grammar version lookahead fragile alternative run actions)
      (applyAll grammar (erase version) (erase lookahead) fragile alternative (erase run)
        actions) := by
  induction actions generalizing memory alternative run with
  | nil => exact .pure ⟨runKnown, known_nil⟩ rfl
  | cons action rest induction =>
      have forkKnown : Known memory { version with path := version.path ++ [alternative] } := known
      refine (mirrors_apply fragile action forkKnown lookaheadKnown runKnown).bind
        fun larger first grows firstKnown => ?_
      refine (induction (alternative + 1) (Erasable.mono known grows)
        (Erasable.mono lookaheadKnown grows) firstKnown.1).andThen
        fun largest others growsMore othersKnown => ⟨⟨othersKnown.1, ?_⟩, ?_⟩
      · refine known_append.2 ⟨?_, othersKnown.2⟩
        intro held member
        exact Erasable.mono (firstKnown.2 held (by simpa using member)) growsMore
      · obtain ⟨last, results⟩ := others
        rcases first with ⟨run, _ | result⟩ <;> simp

end ParseRun

namespace Recovery

variable {memory : Memory} {grammar : Grammar}

theorem mirrors_errorLeaf (state : StateId) (token : Token) :
    Mirrors memory (errorLeaf grammar state token) (errorLeaf grammar state token) :=
  mirrors_leaf memory _

theorem flatten_erase (subtrees : List Subtree) :
    flatten (erase subtrees) = erase (flatten subtrees) := by
  induction subtrees with
  | nil => rfl
  | cons subtree rest induction =>
      have first : (if subtree.erase.isError && !subtree.erase.isLeaf then subtree.erase.children
          else [subtree.erase]) =
          erase (if subtree.isError && !subtree.isLeaf then subtree.children else [subtree]) := by
        simp only [Subtree.erase_isError, Subtree.erase_isLeaf]
        split
        · exact Subtree.erase_children subtree
        · rfl
      simp only [flatten, erase_cons, List.flatMap_cons, erase_append, erase_subtree] at induction ⊢
      rw [first, induction]

theorem flatten_known (closed : ∀ subtree : Subtree, memory.Knows subtree →
    Known memory subtree.children) {subtrees : List Subtree} (known : Known memory subtrees) :
    Known memory (flatten subtrees) := by
  intro child member
  simp only [flatten, List.mem_flatMap] at member
  obtain ⟨subtree, subtreeMember, inside⟩ := member
  split at inside
  · exact closed subtree (known subtree subtreeMember) child inside
  · obtain rfl := List.mem_singleton.1 inside
    exact known child subtreeMember

theorem mirrors_errorNode {children : List Subtree} (known : Known memory children) :
    Mirrors memory (errorNode grammar children) (errorNode grammar (erase children)) := by
  refine Mirrors.ofClosed fun closed => ?_
  unfold errorNode
  rw [flatten_erase]
  exact mirrors_node memory _ (flatten_known closed known)

theorem mirrors_pushError {version : Version} {children : List Subtree}
    (known : Known memory version) (childrenKnown : Known memory children) :
    Mirrors memory (pushError grammar version children)
      (pushError grammar (erase version) (erase children)) := by
  have pushed : ∀ {subtrees : List Subtree}, Known memory subtrees →
      Mirrors memory
        (errorNode grammar subtrees >>= fun error => pure (version.push version.state error))
        (errorNode grammar (erase subtrees) >>= fun error =>
          pure ((erase version).push (erase version).state error)) := by
    intro subtrees subtreesKnown
    refine (mirrors_errorNode subtreesKnown).andThen fun larger error grows errorKnown => ?_
    refine ⟨Version.push_known (Erasable.mono known grows) errorKnown, ?_⟩
    rw [Version.state_erase, erase_subtree, Version.push_erase]
  have empty : List.isEmpty (erase children) = children.isEmpty := by
    cases children <;> rfl
  obtain ⟨_ | ⟨entry, below⟩, position, lookahead, path⟩ := version
  · unfold pushError
    rw [empty]
    exact .ite (fun _ => .pure known rfl) fun _ => pushed childrenKnown
  · unfold pushError
    rw [empty]
    refine .ite (fun _ => .pure known rfl) fun _ => ?_
    obtain ⟨entryKnown, belowKnown⟩ := known_cons.1 known.1
    simp only [Version.erase_stack, erase_cons, StackEntry.erase_subtree, Subtree.erase_isError]
    refine .ite (fun _ => ?_) fun _ => pushed childrenKnown
    have joined : Known memory (entry.subtree :: children) :=
      known_cons.2 ⟨entryKnown, childrenKnown⟩
    refine (mirrors_errorNode joined).andThen fun larger error grows errorKnown => ⟨?_, ?_⟩
    · exact ⟨known_cons.2 ⟨errorKnown, Erasable.mono belowKnown grows⟩,
        Erasable.mono known.2 grows⟩
    · simp [Version.erase_eq, StackEntry.erase_eq]

theorem mirrors_pushExtra {version : Version} (token : Token) (known : Known memory version) :
    Mirrors memory (pushExtra grammar version token)
      (pushExtra grammar (erase version) token) := by
  unfold pushExtra
  rw [Version.state_erase]
  refine (mirrors_leaf memory _).andThen fun larger extra grows extraKnown => ?_
  exact ⟨Version.push_known (Erasable.mono known grows) extraKnown, rfl⟩

theorem mirrors_resume {version : Version} (window : List Token) (resumption : Resume)
    (token : Token) (known : Known memory version) :
    Mirrors memory (resume grammar version window resumption token)
      (resume grammar (erase version) window resumption token) := by
  unfold resume
  have taken : List.take resumption.popped (erase version.stack) =
      erase (version.stack.take resumption.popped) := List.map_take.symm
  have dropped : List.drop resumption.popped (erase version.stack) =
      erase (version.stack.drop resumption.popped) := List.map_drop.symm
  have belowKnown : Known memory (version.stack.drop resumption.popped) :=
    known_of_subset known.1 (List.drop_subset _ _)
  have poppedKnown : Known memory (ParseStack.subtrees (version.stack.take resumption.popped)) :=
    ParseStack.subtrees_known (known_of_subset known.1 (List.take_subset _ _))
  simp only [Version.erase_stack, taken, dropped, ParseStack.state_erase,
    ParseStack.subtrees_erase, takeWhile_isExtra_erase, dropWhile_isExtra_erase,
    ParseStack.pushAll_erase]
  refine (Mirrors.mapM _ fun larger leaf grows => mirrors_errorLeaf _ leaf).bind
    fun larger inside grows insideKnown => ?_
  have surrounded : Known larger { version with
      stack := ParseStack.pushAll (version.stack.drop resumption.popped)
        (ParseStack.state (version.stack.drop resumption.popped))
        ((ParseStack.subtrees (version.stack.take resumption.popped)).takeWhile
          Subtree.isExtra) } :=
    ⟨Erasable.mono (ParseStack.pushAll_known belowKnown (takeWhile_isExtra_known poppedKnown))
      grows, Erasable.mono known.2 grows⟩
  rw [← erase_append]
  refine (mirrors_pushError surrounded (known_append.2
    ⟨Erasable.mono (dropWhile_isExtra_known poppedKnown) grows, insideKnown⟩)).bind
    fun _ _ _ pushedKnown => ?_
  refine (Mirrors.foldlM _ pushedKnown fun _ _ leaf _ currentKnown =>
    mirrors_pushExtra leaf currentKnown).andThen fun _ _ _ resumedKnown => ?_
  exact ⟨⟨resumedKnown.1, known_some.2 (Lookahead.known_token _ _)⟩, rfl⟩

theorem mirrors_skipToken {version : Version} (token : Token) (known : Known memory version) :
    Mirrors memory (skipToken grammar version token)
      (skipToken grammar (erase version) token) := by
  unfold skipToken
  rw [Version.state_erase]
  refine (mirrors_errorLeaf version.state token).bind fun larger leaf grows leafKnown => ?_
  refine (mirrors_pushError (Erasable.mono known grows)
    (known_cons.2 ⟨leafKnown, known_nil⟩)).andThen fun largest pushed growsMore pushedKnown => ?_
  exact ⟨⟨pushedKnown.1, known_none⟩, rfl⟩

theorem mirrors_giveUp {version : Version} (window : List Token) (known : Known memory version) :
    Mirrors memory (giveUp grammar version window) (giveUp grammar (erase version) window) := by
  unfold giveUp
  rw [Version.state_erase, Version.erase_stack, ParseStack.subtrees_erase]
  refine (Mirrors.mapM _ fun larger leaf grows => mirrors_errorLeaf _ leaf).bind
    fun larger rest grows restKnown => ?_
  have contentKnown : Known larger (version.stack.subtrees ++ rest) :=
    known_append.2 ⟨Erasable.mono (ParseStack.subtrees_known known.1) grows, restKnown⟩
  have empty : List.isEmpty (erase ((version.stack.subtrees ++ rest).dropWhile Subtree.isExtra)) =
      ((version.stack.subtrees ++ rest).dropWhile Subtree.isExtra).isEmpty := by
    cases (version.stack.subtrees ++ rest).dropWhile Subtree.isExtra <;> rfl
  rw [← erase_append version.stack.subtrees rest]
  simp only [takeWhile_isExtra_erase, dropWhile_isExtra_erase, empty]
  have rooted : ∀ {largest : Memory} {error : Subtree}, largest.Extends larger →
      largest.Knows error →
      Mirrors largest
        (ParseRun.rootNode grammar
          ((version.stack.subtrees ++ rest).takeWhile Subtree.isExtra ++ [error]) >>= fun root =>
            pure (Finished.mk root version.path))
        (ParseRun.rootNode grammar
          (erase ((version.stack.subtrees ++ rest).takeWhile Subtree.isExtra) ++ [error.erase]) >>=
            fun root => pure (Finished.mk root version.path)) := by
    intro largest error growsMore errorKnown
    have childrenKnown : Known largest
        ((version.stack.subtrees ++ rest).takeWhile Subtree.isExtra ++ [error]) :=
      known_append.2 ⟨Erasable.mono (takeWhile_isExtra_known contentKnown) growsMore,
        known_cons.2 ⟨errorKnown, known_nil⟩⟩
    have rootMirrors : Mirrors largest (ParseRun.rootNode grammar _) _ :=
      ParseRun.mirrors_rootNode childrenKnown
    rw [erase_append] at rootMirrors
    exact rootMirrors.andThen fun _ root _ rootKnown =>
      ⟨Finished.known_iff.2 rootKnown, Finished.erase_eq ⟨root, version.path⟩⟩
  refine .ite (fun _ => (mirrors_leaf larger _).bind fun _ _ growsMore errorKnown =>
    rooted growsMore errorKnown) fun _ => ?_
  exact (mirrors_errorNode (dropWhile_isExtra_known contentKnown)).bind
    fun _ _ growsMore errorKnown => rooted growsMore errorKnown

end Recovery

end IncrementalGlr
