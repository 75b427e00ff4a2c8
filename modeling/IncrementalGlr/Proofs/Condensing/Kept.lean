import IncrementalGlr.Proofs.Condense

/-!
# What condensing keeps

Of the versions that agree a merge keeps one than which none of them is better.  Then versions may be
dropped because a finished tree has fewer errors.  Of those left over the worst one is dropped as
long as there are too many, so that none of the versions that stay is worse than a dropped one.
-/

namespace IncrementalGlr

namespace ParseRun

/-- The worse of the worst version so far and the next one, which counts as worse if neither is. -/
def worseOf (worst : Option (Rank × Nat)) : Version × Nat → Option (Rank × Nat)
  | (version, index) =>
    match worst with
    | some (other, position) =>
      if version.rank.better other then some (other, position) else some (version.rank, index)
    | none => some (version.rank, index)

theorem worstIndex_eq (versions : List Version) :
    worstIndex versions = (versions.zipIdx.foldl worseOf none).elim 0 Prod.snd := rfl

/-- Whether a rank is that of the version at a position. -/
def RanksAt (versions : List Version) (found : Rank × Nat) : Prop :=
  ∃ version, versions[found.2]? = some version ∧ version.rank = found.1

/-- The worse of two versions is one of them, and neither of them is worse. -/
theorem exists_worseOf {versions : List Version} {worst : Option (Rank × Nat)}
    {entry : Version × Nat} (listed : versions[entry.2]? = some entry.1)
    (known : ∀ found ∈ worst, RanksAt versions found) :
    ∃ worse, worseOf worst entry = some worse ∧ RanksAt versions worse ∧
      entry.1.rank.key ≤ worse.1.key ∧ ∀ found ∈ worst, found.1.key ≤ worse.1.key := by
  obtain ⟨version, index⟩ := entry
  cases worst with
  | none => exact ⟨(version.rank, index), rfl, ⟨version, listed, rfl⟩, le_rfl, nofun⟩
  | some found =>
      obtain ⟨other, position⟩ := found
      cases better : version.rank.better other with
      | true =>
          have less := (Rank.better_iff.1 better).le
          refine ⟨(other, position), by simp [worseOf, better], known _ rfl, less, ?_⟩
          rintro _ ⟨⟩
          exact le_rfl
      | false =>
          refine ⟨(version.rank, index), by simp [worseOf, better], ⟨version, listed, rfl⟩, le_rfl,
            ?_⟩
          rintro _ ⟨⟩
          exact Rank.not_better_iff.1 better

/-- Among versions there is a worst one at the position where it is looked for. -/
theorem exists_worst {versions : List Version} (nonempty : versions ≠ []) :
    ∃ worst, versions[worstIndex versions]? = some worst ∧
      ∀ version ∈ versions, version.rank.key ≤ worst.rank.key := by
  have folded : ∀ (rest : List (Version × Nat)) (worst : Option (Rank × Nat)),
      (∀ entry ∈ rest, versions[entry.2]? = some entry.1) →
      (∀ found ∈ worst, RanksAt versions found) →
      (∀ found ∈ rest.foldl worseOf worst, RanksAt versions found) ∧
        (∀ before ∈ worst, ∃ found ∈ rest.foldl worseOf worst, before.1.key ≤ found.1.key) ∧
        ∀ entry ∈ rest, ∃ found ∈ rest.foldl worseOf worst,
          entry.1.rank.key ≤ found.1.key := by
    intro rest
    induction rest with
    | nil =>
        exact fun worst _ known => ⟨known, fun before member => ⟨before, member, le_rfl⟩, nofun⟩
    | cons entry rest induction =>
        intro worst listed known
        obtain ⟨entryListed, restListed⟩ := List.forall_mem_cons.1 listed
        obtain ⟨worse, same, ranks, here, before⟩ := exists_worseOf entryListed known
        obtain ⟨result, kept, later⟩ := induction (some worse) restListed
          (fun _ found => Option.some.inj found ▸ ranks)
        obtain ⟨last, lastMember, most⟩ := kept worse rfl
        rw [List.foldl_cons, same]
        exact ⟨result, fun found member => ⟨last, lastMember, (before found member).trans most⟩,
          List.forall_mem_cons.2 ⟨⟨last, lastMember, here.trans most⟩, later⟩⟩
  obtain ⟨ranks, -, reached⟩ := folded versions.zipIdx none
    (fun entry member => List.mem_zipIdx_iff_getElem?.1 member) nofun
  obtain ⟨first, rest, rfl⟩ := List.exists_cons_of_ne_nil nonempty
  obtain ⟨last, lastMember, -⟩ := reached (first, 0) List.mem_cons_self
  obtain ⟨worst, there, rank⟩ := ranks last lastMember
  rw [worstIndex_eq, Option.mem_def.1 lastMember]
  refine ⟨worst, there, fun version member => ?_⟩
  obtain ⟨index, found⟩ := List.getElem?_of_mem member
  obtain ⟨other, otherMember, most⟩ :=
    reached (version, index) (List.mem_zipIdx_iff_getElem?.2 found)
  cases lastMember.symm.trans otherMember
  rw [rank]
  exact most

theorem length_dropWorst (count : Nat) (versions : List Version) :
    (dropWorst count versions).length = versions.length - count := by
  induction count generalizing versions with
  | zero => rfl
  | succ count induction =>
      rw [dropWorst, induction]
      rcases eq_or_ne versions [] with rfl | nonempty
      · simp
      · obtain ⟨worst, there, -⟩ := exists_worst nonempty
        rw [List.length_eraseIdx_of_lt (List.getElem?_eq_some_iff.1 there).1]
        omega

/-- No version that stays is worse than one that is dropped. -/
theorem mem_dropWorst_or {versions : List Version} {version : Version}
    (member : version ∈ versions) (count : Nat) :
    version ∈ dropWorst count versions ∨
      ∀ kept ∈ dropWorst count versions, kept.rank.key ≤ version.rank.key := by
  induction count generalizing versions with
  | zero => exact .inl member
  | succ count induction =>
      obtain ⟨worst, there, most⟩ := exists_worst (List.ne_nil_of_mem member)
      obtain ⟨index, found⟩ := List.getElem?_of_mem member
      by_cases dropped : index = worstIndex versions
      · obtain rfl := Option.some.inj ((dropped ▸ found).symm.trans there)
        exact .inr fun kept inside =>
          most kept ((dropWorst_sublist (count + 1) versions).subset inside)
      · exact induction (List.mem_eraseIdx_iff_getElem?.2 ⟨index, dropped, found⟩)

/-! ## Merging -/

/-- The preferred one of two versions is no worse than either. -/
theorem key_preferred_le (left right : Version) :
    (preferred left right).rank.key ≤ left.rank.key ∧
      (preferred left right).rank.key ≤ right.rank.key := by
  unfold preferred
  split
  · next better => exact ⟨(Rank.better_iff.1 better).le, le_rfl⟩
  · next worse => exact ⟨le_rfl, Rank.not_better_iff.1 (Bool.not_eq_true _ ▸ worse)⟩

/-- What a version absorbs agrees with it and is no better than what is left. -/
theorem absorb_covers (version : Version) (others : List Version) :
    (absorb version others).1.rank.key ≤ version.rank.key ∧
      ∀ other ∈ others, other ∈ (absorb version others).2 ∨
        version.agrees other = true ∧ (absorb version others).1.rank.key ≤ other.rank.key := by
  induction others generalizing version with
  | nil => exact ⟨le_rfl, nofun⟩
  | cons other rest induction =>
      rw [absorb]
      split
      · next agrees =>
          obtain ⟨left, right⟩ := key_preferred_le version other
          obtain ⟨kept, covers⟩ := induction (preferred version other)
          refine ⟨kept.trans left, List.forall_mem_cons.2 ⟨.inr ⟨agrees, kept.trans right⟩, ?_⟩⟩
          refine fun later member => (covers later member).imp_right (And.imp_left fun same => ?_)
          exact Version.agrees_trans (Version.agrees_symm (preferred_agrees agrees)) same
      · obtain ⟨kept, covers⟩ := induction version
        exact ⟨kept, List.forall_mem_cons.2 ⟨.inl List.mem_cons_self, fun later member =>
          (covers later member).imp_left (List.mem_cons_of_mem other)⟩⟩

/-- What is left beside a version that absorbs does not agree with it. -/
theorem absorb_apart (version : Version) (others : List Version) :
    ∀ other ∈ (absorb version others).2, version.agrees other = false := by
  induction others generalizing version with
  | nil => exact nofun
  | cons other rest induction =>
      rw [absorb]
      split
      · next agrees =>
          intro later member
          by_contra same
          rw [Bool.not_eq_false] at same
          have through := Version.agrees_trans (preferred_agrees agrees) same
          exact absurd (induction _ later member) (by simp [through])
      · next apart =>
          exact List.forall_mem_cons.2 ⟨Bool.not_eq_true _ ▸ apart, induction version⟩

/-- For every version a merge leaves one that agrees with it and than which it is not better. -/
theorem merge_covers {versions : List Version} {version : Version} (member : version ∈ versions) :
    ∃ kept ∈ merge versions, kept.agrees version = true ∧ kept.rank.key ≤ version.rank.key := by
  have bounded : ∀ (budget : Nat) (versions : List Version), versions.length ≤ budget →
      ∀ version ∈ versions, ∃ kept ∈ mergeWithin budget versions,
        kept.agrees version = true ∧ kept.rank.key ≤ version.rank.key := by
    intro budget
    induction budget with
    | zero =>
        intro versions length version member
        rw [List.length_eq_zero_iff.1 (Nat.le_zero.1 length)] at member
        cases member
    | succ budget induction =>
        intro versions length version member
        cases versions with
        | nil => cases member
        | cons first rest =>
            obtain ⟨best, covers⟩ := absorb_covers first rest
            have agrees := absorb_agrees first rest
            have shorter : (absorb first rest).2.length ≤ budget :=
              (absorb_sublist first rest).length_le.trans (Nat.le_of_succ_le_succ length)
            rw [mergeWithin]
            rcases List.mem_cons.1 member with rfl | later
            · exact ⟨_, List.mem_cons_self, agrees, best⟩
            · rcases covers version later with left | ⟨absorbed, less⟩
              · obtain ⟨kept, keptMember, rest⟩ := induction _ shorter version left
                exact ⟨kept, List.mem_cons_of_mem _ keptMember, rest⟩
              · exact ⟨_, List.mem_cons_self, Version.agrees_trans agrees absorbed, less⟩
  exact bounded versions.length versions le_rfl version member

/-- No two versions that a merge leaves agree. -/
theorem merge_apart (versions : List Version) :
    (merge versions).Pairwise fun left right => left.agrees right = false := by
  have bounded : ∀ (budget : Nat) (versions : List Version),
      (mergeWithin budget versions).Pairwise fun left right => left.agrees right = false := by
    intro budget
    induction budget with
    | zero => exact fun _ => .nil
    | succ budget induction =>
        intro versions
        cases versions with
        | nil => exact .nil
        | cons first rest =>
            refine List.pairwise_cons.2 ⟨fun other member => ?_, induction _⟩
            have inside := (mergeWithin_subperm budget _).subset member
            have apart := absorb_apart first rest other inside
            by_contra same
            rw [Bool.not_eq_false] at same
            have through :=
              Version.agrees_trans (Version.agrees_symm (absorb_agrees first rest)) same
            rw [apart] at through
            cases through
  exact bounded versions.length versions

/-! ## Condensing -/

variable (run : ParseRun)

theorem promising_sublist : run.promising.Sublist (merge run.versions) := by
  unfold promising
  split
  · exact List.filter_sublist
  · exact List.Sublist.refl _

/-- A merged version is promising unless a finished tree has fewer errors. -/
theorem mem_promising_or {version : Version} (member : version ∈ merge run.versions) :
    version ∈ run.promising ∨
      ∃ finished ∈ run.finished, finished.root.errorCount < version.stack.errorCount := by
  unfold promising
  split
  · next least found =>
      by_cases within : version.stack.errorCount ≤ least
      · exact .inl (List.mem_filter.2 ⟨member, decide_eq_true within⟩)
      · obtain ⟨finished, finishedMember, rfl⟩ := List.mem_map.1 (List.min?_mem found)
        exact .inr ⟨finished, finishedMember, Nat.lt_of_not_le within⟩
  · exact .inl member

theorem survivors_sublist : run.survivors.Sublist (merge run.versions) :=
  (dropWorst_sublist _ _).trans run.promising_sublist

theorem length_survivors_le : run.survivors.length ≤ maxVersions := by
  rw [survivors, length_dropWorst]
  omega

/-- A promising version is dropped only if there is no room, and none of those that stay is
worse. -/
theorem mem_survivors_or {version : Version} (member : version ∈ run.promising) :
    version ∈ run.survivors ∨ maxVersions ≤ run.survivors.length ∧
      ∀ kept ∈ run.survivors, kept.rank.key ≤ version.rank.key := by
  have length := length_dropWorst (run.promising.length - maxVersions) run.promising
  rcases mem_dropWorst_or member (run.promising.length - maxVersions) with stays | worse
  · exact .inl stays
  · rcases Nat.lt_or_ge maxVersions run.promising.length with crowded | roomy
    · exact .inr ⟨by rw [survivors]; omega, worse⟩
    · refine .inl ?_
      rw [survivors, Nat.sub_eq_zero_of_le roomy]
      exact member

/-- Condensing leaves the survivors; the path of the only one may be forgotten. -/
theorem versions_condense_eq : run.condense.versions = run.survivors ∨
    ∃ only, run.survivors = [only] ∧ run.condense.versions = [{ only with path := [] }] := by
  unfold condense
  split
  · next only _ alone => exact .inr ⟨only, alone, rfl⟩
  · exact .inl rfl

end ParseRun

end IncrementalGlr
