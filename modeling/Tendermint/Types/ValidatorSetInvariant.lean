import Tendermint.Types.ValidatorSetChanges

/-!
# Which validator sets a chain can hold, and what holds of all of them

A chain starts from `NewValidatorSet` of its genesis validators and afterwards only ever
applies `UpdateWithChangeSet` (at the end of each block) and `IncrementProposerPriority`
(at each block and at each new round).  `Reachable` is that set of validator sets.  A failed
`UpdateWithChangeSet` returns an error before it writes anything, so the set stays as it was and
the failure adds nothing to `Reachable`.

Every reachable set is `Valid`: its list is non-empty, has distinct addresses and powers in
`(0, MaxTotalVotingPower]`, is sorted by `ValidatorsByVotingPower`, and its cached total is the
sum of the powers (so at most `MaxTotalVotingPower`).  The proof splits along the two kinds of
operation:

* the priority arithmetic (`RescalePriorities`, `shiftByAvgProposerPriority`,
  `incrementProposerPriority`) changes proposer priorities only, which is `SamePowers`, and
  `Valid` depends on nothing else;
* a successful change set runs the passes of `ValidatorSetChanges` on a `WellFormed` list and
  ends in a `WellFormed` one, which the final sort turns into a `Valid` set.

With the invariant, the three guards the code keeps against a corrupted set never fire: the
total-power panic of `updateTotalVotingPower`, the length panic of `verifyRemovals` and the
identical-validators panic of `CompareProposerPriority` (`InvariantPanic`).
-/

namespace Tendermint

namespace Validator

/-- The validator with its proposer priority forgotten: everything the priority arithmetic
leaves alone. -/
def withoutPriority (v : Validator) : Validator := { v with proposerPriority := 0 }

@[simp] lemma withoutPriority_address (v : Validator) : v.withoutPriority.address = v.address :=
  rfl

@[simp] lemma withoutPriority_votingPower (v : Validator) :
    v.withoutPriority.votingPower = v.votingPower := rfl

@[simp] lemma withoutPriority_setPriority (v : Validator) (p : Int) :
    ({ v with proposerPriority := p } : Validator).withoutPriority = v.withoutPriority := rfl

end Validator

namespace ValidatorSet

/-! ## The invariant -/

/-- What the change-set checks let into a set, in any order: distinct addresses and powers in
`(0, MaxTotalVotingPower]` that sum to at most `MaxTotalVotingPower`. -/
structure WellFormed (l : List Validator) : Prop where
  nodup : (addresses l).Nodup
  power_pos : ∀ v ∈ l, 0 < v.votingPower
  power_le : ∀ v ∈ l, v.votingPower ≤ MaxTotalVotingPower
  sum_le : powerSum l ≤ MaxTotalVotingPower

/-- The representation invariant of `ValidatorSet`. -/
structure Valid (vals : ValidatorSet) : Prop extends WellFormed vals.validators where
  nonempty : vals.validators ≠ []
  sorted : vals.validators.Pairwise ValidatorsByVotingPowerLess
  total_eq : vals.totalVotingPower = powerSum vals.validators

lemma WellFormed.power_nonneg {l : List Validator} (h : WellFormed l) :
    ∀ v ∈ l, 0 ≤ v.votingPower :=
  fun v hv => (h.power_pos v hv).le

lemma WellFormed.bounds {l : List Validator} (h : WellFormed l) :
    ∀ v ∈ l, 0 ≤ v.votingPower ∧ v.votingPower ≤ MaxTotalVotingPower :=
  fun v hv => ⟨(h.power_pos v hv).le, h.power_le v hv⟩

lemma WellFormed.nil : WellFormed [] :=
  ⟨List.nodup_nil, by simp, by simp, by simp [maxTotalVotingPower_eq]⟩

lemma WellFormed.perm {l l' : List Validator} (hw : WellFormed l) (h : l'.Perm l) :
    WellFormed l' where
  nodup := ((h.map _).nodup_iff).mpr hw.nodup
  power_pos v hv := hw.power_pos v (h.subset hv)
  power_le v hv := hw.power_le v (h.subset hv)
  sum_le := powerSum_perm h ▸ hw.sum_le

/-- A non-empty list of positive powers has a positive sum. -/
lemma WellFormed.powerSum_pos {l : List Validator} (h : WellFormed l) (hne : l ≠ []) :
    0 < powerSum l := by
  obtain ⟨v, l', rfl⟩ := List.exists_cons_of_ne_nil hne
  have hv := h.power_pos v List.mem_cons_self
  have hrest := powerSum_nonneg fun w hw => h.power_nonneg w (List.mem_cons_of_mem _ hw)
  rw [powerSum_cons]
  omega

lemma Valid.total_pos {vals : ValidatorSet} (h : vals.Valid) : 0 < vals.totalVotingPower :=
  h.total_eq ▸ h.powerSum_pos h.nonempty

/-- With a correct cache, `TotalVotingPower` returns the cache and changes nothing, also when
the cache is `0` and gets recomputed. -/
lemma TotalVotingPower_eq {vals : ValidatorSet} (hw : WellFormed vals.validators)
    (ht : vals.totalVotingPower = powerSum vals.validators) :
    vals.TotalVotingPower = .ok (vals.totalVotingPower, vals) := by
  by_cases h0 : vals.totalVotingPower = 0
  · have hupd : vals.updateTotalVotingPower = .ok vals := by
      rw [updateTotalVotingPower_eq hw.power_nonneg hw.sum_le, ← ht]
    simp [TotalVotingPower, h0, hupd, pure, Except.pure]
  · exact TotalVotingPower_of_ne h0

/-! ## Changes of proposer priorities only -/

/-- `vals'` is `vals` up to the proposer and the proposer priorities. -/
def SamePowers (vals vals' : ValidatorSet) : Prop :=
  vals'.totalVotingPower = vals.totalVotingPower ∧
    vals'.validators.map Validator.withoutPriority = vals.validators.map Validator.withoutPriority

lemma SamePowers.refl (vals : ValidatorSet) : SamePowers vals vals := ⟨rfl, rfl⟩

lemma SamePowers.trans {vals₁ vals₂ vals₃ : ValidatorSet} (h₁ : SamePowers vals₁ vals₂)
    (h₂ : SamePowers vals₂ vals₃) : SamePowers vals₁ vals₃ :=
  ⟨h₂.1.trans h₁.1, h₂.2.trans h₁.2⟩

/-- Every entry of a list with the same powers has a partner with its address and power. -/
lemma exists_of_map_withoutPriority {l l' : List Validator}
    (h : l'.map Validator.withoutPriority = l.map Validator.withoutPriority) {v : Validator}
    (hv : v ∈ l') : ∃ w ∈ l, w.address = v.address ∧ w.votingPower = v.votingPower := by
  have : v.withoutPriority ∈ l.map Validator.withoutPriority := h ▸ List.mem_map_of_mem hv
  obtain ⟨w, hw, hwv⟩ := List.mem_map.mp this
  exact ⟨w, hw, by simpa using congrArg Validator.address hwv,
    by simpa using congrArg Validator.votingPower hwv⟩

lemma addresses_of_map_withoutPriority {l l' : List Validator}
    (h : l'.map Validator.withoutPriority = l.map Validator.withoutPriority) :
    addresses l' = addresses l := by
  have := congrArg (List.map Validator.address) h
  simpa [addresses, Function.comp_def] using this

lemma powerSum_of_map_withoutPriority {l l' : List Validator}
    (h : l'.map Validator.withoutPriority = l.map Validator.withoutPriority) :
    powerSum l' = powerSum l := by
  have := congrArg (fun l => (l.map Validator.votingPower).sum) h
  simpa [powerSum, Function.comp_def] using this

lemma WellFormed.of_map_withoutPriority {l l' : List Validator} (hw : WellFormed l)
    (h : l'.map Validator.withoutPriority = l.map Validator.withoutPriority) : WellFormed l' where
  nodup := addresses_of_map_withoutPriority h ▸ hw.nodup
  power_pos v hv := by
    obtain ⟨w, hw', -, hp⟩ := exists_of_map_withoutPriority h hv
    exact hp ▸ hw.power_pos w hw'
  power_le v hv := by
    obtain ⟨w, hw', -, hp⟩ := exists_of_map_withoutPriority h hv
    exact hp ▸ hw.power_le w hw'
  sum_le := powerSum_of_map_withoutPriority h ▸ hw.sum_le

/-- `Valid` looks at nothing the priority arithmetic changes. -/
lemma Valid.of_samePowers {vals vals' : ValidatorSet} (hv : vals.Valid)
    (h : SamePowers vals vals') : vals'.Valid where
  toWellFormed := hv.toWellFormed.of_map_withoutPriority h.2
  nonempty := by
    intro hnil
    have := h.2
    rw [hnil, List.map_nil] at this
    exact hv.nonempty (List.map_eq_nil_iff.mp this.symm)
  sorted := by
    -- the order compares powers and addresses only, which `withoutPriority` keeps
    have hs : (vals.validators.map Validator.withoutPriority).Pairwise
        ValidatorsByVotingPowerLess := List.pairwise_map.mpr hv.sorted
    rw [← h.2] at hs
    have hs' := List.pairwise_map.mp hs
    exact hs'
  total_eq := by
    rw [h.1, hv.total_eq, powerSum_of_map_withoutPriority h.2]

lemma mapPriorities_samePowers (vals : ValidatorSet) (f : Validator → Int) :
    SamePowers vals (vals.mapPriorities f) :=
  ⟨rfl, by simp [mapPriorities, Function.comp_def]⟩

lemma dividePriorities_withoutPriority : ∀ {l l' : List Validator} {ratio : Int},
    dividePriorities l ratio = .ok l' →
    l'.map Validator.withoutPriority = l.map Validator.withoutPriority
  | [], _, _, h => by cases h; rfl
  | v :: l, l', ratio, h => by
      obtain ⟨p, -, h⟩ := ExceptRun.bind_eq_ok h
      obtain ⟨rest, hrest, h⟩ := ExceptRun.bind_eq_ok h
      cases h
      simp [dividePriorities_withoutPriority hrest]

lemma RescalePriorities_samePowers {vals vals' : ValidatorSet} {diffMax : Int}
    (h : vals.RescalePriorities diffMax = .ok vals') : SamePowers vals vals' := by
  unfold RescalePriorities at h
  split at h
  · cases h
  split at h
  · cases h
    exact SamePowers.refl _
  obtain ⟨diff, -, h⟩ := ExceptRun.bind_eq_ok h
  obtain ⟨ratio, -, h⟩ := ExceptRun.bind_eq_ok h
  split at h
  · obtain ⟨vs, hvs, h⟩ := ExceptRun.bind_eq_ok h
    cases h
    exact ⟨rfl, dividePriorities_withoutPriority hvs⟩
  · cases h
    exact SamePowers.refl _

lemma shiftByAvgProposerPriority_samePowers {vals vals' : ValidatorSet}
    (h : vals.shiftByAvgProposerPriority = .ok vals') : SamePowers vals vals' := by
  unfold shiftByAvgProposerPriority at h
  split at h
  · cases h
  obtain ⟨avg, -, h⟩ := ExceptRun.bind_eq_ok h
  cases h
  exact mapPriorities_samePowers _ _

/-- The entry `getValWithMostPriorityFrom` returns sits at the index it reports: either the
one it started from, or the entry of the list at that offset. -/
lemma getValWithMostPriorityFrom_mem {l : List Validator} :
    ∀ {res : Option (Nat × Validator)} {k i : Nat} {m : Validator},
    getValWithMostPriorityFrom res l k = .ok (some (i, m)) →
    res = some (i, m) ∨ (k ≤ i ∧ l[i - k]? = some m) := by
  induction l with
  | nil =>
      intro res k i m h
      cases h
      exact .inl rfl
  | cons val rest ih =>
      intro res k i m h
      -- the entry found later in the list sits one further along
      have hshift : k + 1 ≤ i → rest[i - (k + 1)]? = some m → (val :: rest)[i - k]? = some m := by
        intro hk h'
        rw [show i - k = (i - (k + 1)) + 1 by omega, List.getElem?_cons_succ]
        exact h'
      cases res with
      | none =>
          rcases ih (h : getValWithMostPriorityFrom (some (k, val)) rest (k + 1) = _)
            with h' | ⟨hk, h'⟩
          · cases h'
            exact .inr ⟨le_rfl, by simp⟩
          · exact .inr ⟨by omega, hshift hk h'⟩
      | some jr =>
          obtain ⟨pick, -, h⟩ := ExceptRun.bind_eq_ok h
          rcases ih h with h' | ⟨hk, h'⟩
          · split at h'
            · cases h'
              exact .inr ⟨le_rfl, by simp⟩
            · exact .inl h'
          · exact .inr ⟨by omega, hshift hk h'⟩

lemma getValWithMostPriority_mem {vals : ValidatorSet} {i : Nat} {m : Validator}
    (h : vals.getValWithMostPriority = .ok (some (i, m))) : vals.validators[i]? = some m := by
  rcases getValWithMostPriorityFrom_mem h with h' | ⟨-, h'⟩
  · cases h'
  · simpa using h'

/-- On distinct addresses the scan of `getValWithMostPriority` never compares an entry with
itself, so `CompareProposerPriority` never panics and the scan succeeds, with a result as soon
as the list is non-empty. -/
lemma getValWithMostPriorityFrom_ok : ∀ (res : Option (Nat × Validator)) {l : List Validator}
    (k : Nat), (addresses l).Nodup → (∀ j r, res = some (j, r) → r.address ∉ addresses l) →
    ∃ x, getValWithMostPriorityFrom res l k = .ok x ∧ (l ≠ [] → x ≠ none)
  | none, [], _, _, _ => ⟨none, rfl, fun h => absurd rfl h⟩
  | some (j, r), [], _, _, _ => ⟨some (j, r), rfl, fun _ => Option.some_ne_none _⟩
  | none, val :: rest, k, hn, _ => by
      have hval := (List.nodup_cons.mp hn).1
      obtain ⟨x, hx, hsome⟩ := getValWithMostPriorityFrom_ok (some (k, val)) (k + 1)
        (List.nodup_cons.mp hn).2 (fun j r hr => by cases hr; exact hval)
      refine ⟨x, hx, fun _ => ?_⟩
      cases rest with
      | nil => cases hx; exact Option.some_ne_none _
      | cons _ _ => exact hsome (List.cons_ne_nil _ _)
  | some (j, r), val :: rest, k, hn, hres => by
      have hr := hres j r rfl
      simp only [addresses_cons, List.mem_cons, not_or] at hr
      obtain ⟨pick, hpick⟩ := Validator.comparePick_ok_of_ne hr.1
      have hval := (List.nodup_cons.mp hn).1
      obtain ⟨x, hx, hsome⟩ := getValWithMostPriorityFrom_ok
        (if pick then some (k, val) else some (j, r)) (k + 1)
        (List.nodup_cons.mp hn).2 (fun j' r' hr' => by
          split at hr'
          · cases hr'; exact hval
          · cases hr'; exact hr.2)
      refine ⟨x, ?_, fun _ => ?_⟩
      · simp [getValWithMostPriorityFrom, hpick, hx]
      · cases rest with
        | nil =>
            simp only [getValWithMostPriorityFrom] at hx
            split at hx <;> (cases hx; exact Option.some_ne_none _)
        | cons _ _ => exact hsome (List.cons_ne_nil _ _)

lemma getValWithMostPriority_ok (vals : ValidatorSet) (hn : (addresses vals.validators).Nodup) :
    ∃ x, vals.getValWithMostPriority = .ok x :=
  let ⟨x, hx, _⟩ := getValWithMostPriorityFrom_ok none 0 hn fun _ _ h => by cases h
  ⟨x, hx⟩

/-- What a successful round of the weighted round-robin did. -/
lemma incrementProposerPriority_ok {vals vals' : ValidatorSet} {p : Validator}
    (h : vals.incrementProposerPriority = .ok (p, vals')) :
    ∃ i m total valsT,
      getValWithMostPriority (vals.mapPriorities fun v =>
        safeAddClip v.proposerPriority v.votingPower) = .ok (some (i, m)) ∧
      TotalVotingPower (vals.mapPriorities fun v =>
        safeAddClip v.proposerPriority v.votingPower) = .ok (total, valsT) ∧
      p = { m with proposerPriority := safeSubClip m.proposerPriority total } ∧
      vals' = { valsT with validators := valsT.validators.set i p } := by
  unfold incrementProposerPriority at h
  obtain ⟨mostest, hmost, h⟩ := ExceptRun.bind_eq_ok h
  split at h
  · cases h
  rename_i i m
  obtain ⟨⟨total, valsT⟩, htot, h⟩ := ExceptRun.bind_eq_ok h
  cases h
  exact ⟨i, m, total, valsT, hmost, htot, rfl, rfl⟩

/-- A round of the weighted round-robin on a set with a filled cache changes priorities only. -/
lemma incrementProposerPriority_samePowers {vals vals' : ValidatorSet} {p : Validator}
    (ht : vals.totalVotingPower ≠ 0) (h : vals.incrementProposerPriority = .ok (p, vals')) :
    SamePowers vals vals' := by
  obtain ⟨i, m, total, valsT, hmost, htot, rfl, rfl⟩ := incrementProposerPriority_ok h
  rw [TotalVotingPower_of_ne (show (mapPriorities vals _).totalVotingPower ≠ 0 from ht)] at htot
  cases htot
  have hm := getValWithMostPriority_mem hmost
  refine (mapPriorities_samePowers vals fun v => safeAddClip v.proposerPriority v.votingPower
    ).trans ⟨rfl, ?_⟩
  -- the proposer is written back where it was found, with its priority changed only
  have hi : i < (vals.mapPriorities _).validators.length := (List.getElem?_eq_some_iff.mp hm).1
  have hget : (mapPriorities vals fun v => safeAddClip v.proposerPriority v.votingPower)
      |>.validators[i] = m := (List.getElem?_eq_some_iff.mp hm).2
  simp only [List.map_set, Validator.withoutPriority_setPriority]
  rw [← hget, ← List.getElem_map Validator.withoutPriority, List.set_getElem_self]
  simpa using hi

lemma incrementTimes_samePowers : ∀ {n : Nat} {vals vals' : ValidatorSet}
    {p p' : Option Validator}, vals.totalVotingPower ≠ 0 →
    incrementTimes n vals p = .ok (p', vals') → SamePowers vals vals'
  | 0, _, _, _, _, _, h => by cases h; exact SamePowers.refl _
  | n + 1, vals, vals', p, p', ht, h => by
      obtain ⟨⟨proposer, valsI⟩, hinc, h⟩ := ExceptRun.bind_eq_ok h
      have hI := incrementProposerPriority_samePowers ht hinc
      exact hI.trans (incrementTimes_samePowers (hI.1.symm ▸ ht) h)

/-- What a successful `IncrementProposerPriority` went through. -/
lemma IncrementProposerPriority_ok {vals vals' : ValidatorSet} {times : Int}
    (h : vals.IncrementProposerPriority times = .ok vals') :
    ∃ total valsT valsR valsS proposer valsI,
      vals.TotalVotingPower = .ok (total, valsT) ∧
      valsT.RescalePriorities (wrap64 (PriorityWindowSizeFactor * total)) = .ok valsR ∧
      valsR.shiftByAvgProposerPriority = .ok valsS ∧
      incrementTimes times.toNat valsS none = .ok (proposer, valsI) ∧
      vals' = { valsI with proposer := proposer } := by
  unfold IncrementProposerPriority at h
  split at h
  · cases h
  split at h
  · cases h
  obtain ⟨⟨total, valsT⟩, htot, h⟩ := ExceptRun.bind_eq_ok h
  obtain ⟨valsR, hres, h⟩ := ExceptRun.bind_eq_ok h
  obtain ⟨valsS, hsh, h⟩ := ExceptRun.bind_eq_ok h
  obtain ⟨⟨proposer, valsI⟩, hinc, h⟩ := ExceptRun.bind_eq_ok h
  cases h
  exact ⟨total, valsT, valsR, valsS, proposer, valsI, htot, hres, hsh, hinc, rfl⟩

/-- `IncrementProposerPriority` keeps a valid set valid. -/
lemma Valid.IncrementProposerPriority {vals vals' : ValidatorSet} {times : Int} (hv : vals.Valid)
    (h : vals.IncrementProposerPriority times = .ok vals') : vals'.Valid := by
  obtain ⟨total, valsT, valsR, valsS, proposer, valsI, htot, hres, hsh, hinc, rfl⟩ :=
    IncrementProposerPriority_ok h
  rw [TotalVotingPower_of_ne hv.total_pos.ne'] at htot
  cases htot
  have hR := RescalePriorities_samePowers hres
  have hS := hR.trans (shiftByAvgProposerPriority_samePowers hsh)
  have hI := hS.trans (incrementTimes_samePowers (hS.1.symm ▸ hv.total_pos.ne') hinc)
  exact hv.of_samePowers hI

/-! ## Change sets -/

/-- What a successful `updateWithChangeSet` on a non-empty change list went through. -/
lemma updateWithChangeSet_ok {vals vals' : ValidatorSet} {changes : List Validator}
    {allowDeletes : Bool} (hne : changes ≠ [])
    (h : vals.updateWithChangeSet changes allowDeletes = .ok vals') :
    ∃ updates deletes removed tvp valsT valsR valsU total valsS valsC valsD,
      processChanges changes = .ok (updates, deletes) ∧
      ¬ (numNewValidators updates vals = 0 ∧ vals.validators.length = deletes.length) ∧
      verifyRemovals deletes vals = .ok removed ∧
      verifyUpdates updates vals removed = .ok (tvp, valsT) ∧
      (valsT.applyUpdates (computeNewPriorities updates valsT tvp)).applyRemovals deletes
        = .ok valsR ∧
      valsR.updateTotalVotingPower = .ok valsU ∧
      valsU.TotalVotingPower = .ok (total, valsS) ∧
      valsS.RescalePriorities (wrap64 (PriorityWindowSizeFactor * total)) = .ok valsC ∧
      valsC.shiftByAvgProposerPriority = .ok valsD ∧
      vals' = { valsD with validators := sortByVotingPower valsD.validators } := by
  unfold updateWithChangeSet at h
  rw [if_neg (by simpa using hne)] at h
  obtain ⟨⟨updates, deletes⟩, hpc, h⟩ := ExceptRun.bind_eq_ok h
  dsimp only at h
  -- the two guards: deletions not allowed, and an empty result
  split at h
  · cases h
  split at h
  · cases h
  rename_i hempty
  obtain ⟨removed, hrem, h⟩ := ExceptRun.bind_eq_ok h
  obtain ⟨⟨tvp, valsT⟩, hupd, h⟩ := ExceptRun.bind_eq_ok h
  dsimp only at h
  obtain ⟨valsR, happ, h⟩ := ExceptRun.bind_eq_ok h
  obtain ⟨valsU, htot, h⟩ := ExceptRun.bind_eq_ok h
  obtain ⟨⟨total, valsS⟩, hTVP, h⟩ := ExceptRun.bind_eq_ok h
  dsimp only at h
  obtain ⟨valsC, hres, h⟩ := ExceptRun.bind_eq_ok h
  obtain ⟨valsD, hsh, h⟩ := ExceptRun.bind_eq_ok h
  cases h
  exact ⟨updates, deletes, removed, tvp, valsT, valsR, valsU, total, valsS, valsC, valsD, hpc,
    by simpa using hempty, hrem, hupd, happ, htot, hTVP, hres, hsh, rfl⟩

/-- A successful update gives the same set for every reordering of its change list: the
change list enters only through `changes.isEmpty` and `processChanges`. -/
lemma updateWithChangeSet_of_perm {vals vals' : ValidatorSet} {changes changes' : List Validator}
    {allowDeletes : Bool} (hp : changes.Perm changes')
    (h : vals.updateWithChangeSet changes allowDeletes = .ok vals') :
    vals.updateWithChangeSet changes' allowDeletes = .ok vals' := by
  have hempty : changes'.isEmpty = changes.isEmpty := hp.isEmpty_eq.symm
  unfold updateWithChangeSet at h ⊢
  rw [hempty]
  by_cases hc : changes.isEmpty
  · rw [if_pos hc] at h ⊢
    exact h
  · rw [if_neg hc] at h ⊢
    obtain ⟨r, hpc, h⟩ := ExceptRun.bind_eq_ok h
    rw [processChanges_perm hp hpc, ExceptRun.ok_bind]
    exact h

/-- **`UpdateWithChangeSet` does not depend on the order of the change list.**  Applied to a
change list and to any permutation of it, it succeeds with the same set (same validators in
the same order, same priorities, same proposer and cached total) or fails on both.  Go's sorts
are not stable, but `processChanges` succeeds only on distinct addresses, where the sort by
address has one result, and everything after it reads the sorted lists only. -/
theorem UpdateWithChangeSet_perm_iff (vals : ValidatorSet) {changes changes' : List Validator}
    (hp : changes.Perm changes') (vals' : ValidatorSet) :
    vals.UpdateWithChangeSet changes = .ok vals' ↔ vals.UpdateWithChangeSet changes' = .ok vals' :=
  ⟨updateWithChangeSet_of_perm hp, updateWithChangeSet_of_perm hp.symm⟩

/-- The set `NewValidatorSet` makes of three validators of powers 3, 3 and 2. -/
def threeSet : ValidatorSet :=
  ⟨[⟨[0], [0], 3, -5⟩, ⟨[1], [1], 3, 3⟩, ⟨[2], [2], 2, 2⟩], some ⟨[0], [0], 3, -5⟩, 8⟩

/-- The change list that removes the third validator and raises the second to power 4, in both
orders: the update succeeds either way, with the same set. -/
theorem UpdateWithChangeSet_perm_iff_removal :
    (∃ valz, valz ≠ [] ∧ NewValidatorSet valz = .ok threeSet) ∧
      List.Perm ([⟨[2], [2], 0, 0⟩, ⟨[1], [1], 4, 0⟩] : List Validator)
        [⟨[1], [1], 4, 0⟩, ⟨[2], [2], 0, 0⟩] ∧
      threeSet.UpdateWithChangeSet [⟨[2], [2], 0, 0⟩, ⟨[1], [1], 4, 0⟩] =
        .ok ⟨[⟨[1], [1], 4, 4⟩, ⟨[0], [0], 3, -4⟩], some ⟨[0], [0], 3, -5⟩, 7⟩ ∧
      (threeSet.UpdateWithChangeSet [⟨[2], [2], 0, 0⟩, ⟨[1], [1], 4, 0⟩] =
          .ok ⟨[⟨[1], [1], 4, 4⟩, ⟨[0], [0], 3, -4⟩], some ⟨[0], [0], 3, -5⟩, 7⟩ ↔
        threeSet.UpdateWithChangeSet [⟨[1], [1], 4, 0⟩, ⟨[2], [2], 0, 0⟩] =
          .ok ⟨[⟨[1], [1], 4, 4⟩, ⟨[0], [0], 3, -4⟩], some ⟨[0], [0], 3, -5⟩, 7⟩) :=
  ⟨⟨[⟨[0], [0], 3, 0⟩, ⟨[1], [1], 3, 0⟩, ⟨[2], [2], 2, 0⟩], List.cons_ne_nil _ _, by decide⟩,
    List.Perm.swap _ _ _, by decide,
    UpdateWithChangeSet_perm_iff _ (List.Perm.swap _ _ _) _⟩

lemma numNewValidators_eq_zero {updates : List Validator} {vals : ValidatorSet} :
    numNewValidators updates vals = 0 ↔ ∀ u ∈ updates, u.address ∈ addresses vals.validators := by
  simp [numNewValidators, List.filter_eq_nil_iff, ← hasAddress_iff]

lemma computeNewPriorities_withoutPriority (updates : List Validator) (vals : ValidatorSet)
    (t : Int) : (computeNewPriorities updates vals t).map Validator.withoutPriority
      = updates.map Validator.withoutPriority := by
  unfold computeNewPriorities
  rw [List.map_map]
  refine List.map_congr_left fun u _ => ?_
  simp only [Function.comp_apply]
  split <;> rfl

/-- On a well-formed set with a correct cache, a successful `verifyUpdates` read the cache
without changing the set, and the total after the updates and removals is within the bound. -/
lemma verifyUpdates_le {vals valsT : ValidatorSet} {updates : List Validator} {removed tvp : Int}
    (hw : WellFormed vals.validators) (ht : vals.totalVotingPower = powerSum vals.validators)
    (hU : ∀ u ∈ updates, 0 ≤ u.votingPower ∧ u.votingPower ≤ MaxTotalVotingPower)
    (hlow : ((addresses updates).map (powerOf vals.validators)).sum + removed
      ≤ powerSum vals.validators) (h0 : 0 ≤ removed)
    (h : verifyUpdates updates vals removed = .ok (tvp, valsT)) :
    valsT = vals ∧ powerSum vals.validators - removed + powerSum updates
      - ((addresses updates).map (powerOf vals.validators)).sum ≤ MaxTotalVotingPower := by
  unfold verifyUpdates at h
  dsimp only at h
  rw [TotalVotingPower_eq hw ht, ExceptRun.ok_bind] at h
  dsimp only at h
  obtain ⟨t, hadd, h⟩ := ExceptRun.bind_eq_ok h
  cases h
  -- `addDeltas` runs over the updates sorted by delta: the same sums
  have hperm := List.perm_insertionSort
    (fun a b => ¬ updateDelta vals b < updateDelta vals a) updates
  have hsum : ((addresses (updates.insertionSort
      fun a b => ¬ updateDelta vals b < updateDelta vals a)).map (powerOf vals.validators)).sum
      = ((addresses updates).map (powerOf vals.validators)).sum :=
    ((hperm.map Validator.address).map (powerOf vals.validators)).sum_eq
  have hpow := powerSum_perm hperm
  have hpos := sum_powerOf_nonneg hw.power_nonneg (addresses updates)
  have hE := hw.sum_le
  rw [ht, wrap64_of_mem (inInt64_of_abs_le (by omega) (by omega))] at hadd
  obtain ⟨heq, hle⟩ := addDeltas_eq hw.bounds (fun u hu => hU u (hperm.subset hu))
    (by omega) (by omega) hadd
  exact ⟨rfl, by omega⟩

section ApplyChanges

variable {vals : ValidatorSet} {updates deletes us : List Validator}

/-- The merge of the updates `us` (with their new priorities) into the address-sorted set. -/
lemma mem_merged (hn : (addresses vals.validators).Nodup) (hus : AddressSorted us) {v : Validator} :
    v ∈ mergeUpdates (sortByAddress vals.validators) us ↔
      v ∈ us ∨ (v ∈ vals.validators ∧ v.address ∉ addresses us) := by
  rw [(mergeUpdates_spec (sortByAddress_sorted hn) hus).1.mem_iff]
  simp [(sortByAddress_perm _).mem_iff]

/-- Once the checks have passed, `applyUpdates` and `applyRemovals` build the merge of the
updates into the set, without the removals, and do not fail. -/
lemma applyChanges_eq (hn : (addresses vals.validators).Nodup)
    (hc : ProcessedChanges updates deletes) (hus : addresses us = addresses updates)
    (hfound : ∀ d ∈ deletes, d.address ∈ addresses vals.validators) :
    (vals.applyUpdates us).applyRemovals deletes = .ok { vals with validators :=
      ((mergeUpdates (sortByAddress vals.validators) us).filter
        fun v => v.address ∉ addresses deletes) } := by
  have hsortU : AddressSorted us := hc.updates_sorted.of_addresses_eq hus
  have hsorted := (mergeUpdates_spec (sortByAddress_sorted hn) hsortU).2
  -- a removal is in the set and not among the updates, so the merge kept it
  have hfound' : ∀ d ∈ deletes,
      d.address ∈ addresses (mergeUpdates (sortByAddress vals.validators) us) := by
    intro d hd
    obtain ⟨e, he, hed⟩ := mem_addresses.mp (hfound d hd)
    have hnot : e.address ∉ addresses us := by
      rw [hus, hed]
      exact fun hu => hc.disjoint hu (address_mem_addresses hd)
    exact mem_addresses.mpr ⟨e, (mem_merged hn hsortU).mpr (.inr ⟨he, hnot⟩), hed⟩
  unfold applyRemovals applyUpdates
  rw [if_neg (not_lt.mpr (length_le_of_found hc.deletes_sorted.nodup hfound')),
    removeSorted_eq hsorted hc.deletes_sorted hfound']
  rfl

/-- The powers after the change: the set's, minus the removed and the replaced ones, plus the
updates'. -/
lemma powerSum_applied (hn : (addresses vals.validators).Nodup)
    (hc : ProcessedChanges updates deletes)
    (hus : us.map Validator.withoutPriority = updates.map Validator.withoutPriority) :
    powerSum ((mergeUpdates (sortByAddress vals.validators) us).filter
        fun v => v.address ∉ addresses deletes)
      = powerSum vals.validators
        - powerSum (vals.validators.filter fun v => v.address ∈ addresses deletes)
        + powerSum updates - ((addresses updates).map (powerOf vals.validators)).sum := by
  have haddr := addresses_of_map_withoutPriority hus
  have hsortU : AddressSorted us := hc.updates_sorted.of_addresses_eq haddr
  have hperm := (mergeUpdates_spec (sortByAddress_sorted hn) hsortU).1
  set E := vals.validators
  set K := addresses updates ++ addresses deletes
  -- the updates survive the removals; the kept entries are those outside `K`
  have hkeep : us.filter (fun v => v.address ∉ addresses deletes) = us := by
    refine List.filter_eq_self.mpr fun u hu => ?_
    have : u.address ∈ addresses updates := haddr ▸ address_mem_addresses hu
    simpa using hc.disjoint this
  have hrest : ((sortByAddress E).filter fun v => v.address ∉ addresses us).filter
      (fun v => v.address ∉ addresses deletes)
      = (sortByAddress E).filter fun v => v.address ∉ K := by
    rw [List.filter_filter]
    refine List.filter_congr fun v _ => ?_
    simp [K, haddr, Bool.and_comm]
  have hK := sum_powerOf_eq hn hc.nodup
  have hD := sum_powerOf_eq hn hc.deletes_sorted.nodup
  have hsplit := powerSum_filter_add E fun v => decide (v.address ∈ K)
  have hnot : (E.filter fun v => !decide (v.address ∈ K)) = E.filter fun v => v.address ∉ K := by
    simp
  calc powerSum ((mergeUpdates (sortByAddress E) us).filter fun v => v.address ∉ addresses deletes)
      = powerSum us + powerSum ((sortByAddress E).filter fun v => v.address ∉ K) := by
        rw [powerSum_perm (hperm.filter _), List.filter_append, hkeep, hrest, powerSum_append]
    _ = powerSum updates + powerSum (E.filter fun v => v.address ∉ K) := by
        rw [powerSum_of_map_withoutPriority hus,
          powerSum_perm ((sortByAddress_perm E).filter _)]
    _ = _ := by
        rw [← hnot]
        simp only [K, List.map_append, List.sum_append] at hK hsplit
        rw [← hD]
        linarith

/-- The list after the change is well formed: the merge keeps distinct addresses, its entries
come from the updates or the set, and the powers add up to what `verifyUpdates` bounded. -/
lemma wellFormed_applied (hw : WellFormed vals.validators) (hc : ProcessedChanges updates deletes)
    (hus : us.map Validator.withoutPriority = updates.map Validator.withoutPriority)
    (hle : powerSum vals.validators
        - powerSum (vals.validators.filter fun v => v.address ∈ addresses deletes)
        + powerSum updates - ((addresses updates).map (powerOf vals.validators)).sum
      ≤ MaxTotalVotingPower) :
    WellFormed ((mergeUpdates (sortByAddress vals.validators) us).filter
      fun v => v.address ∉ addresses deletes) := by
  have hsortU : AddressSorted us :=
    hc.updates_sorted.of_addresses_eq (addresses_of_map_withoutPriority hus)
  -- every entry carries the power of an update or of an entry of the set
  have hfrom : ∀ v ∈ (mergeUpdates (sortByAddress vals.validators) us).filter
      (fun v => v.address ∉ addresses deletes),
      0 < v.votingPower ∧ v.votingPower ≤ MaxTotalVotingPower := by
    intro v hv
    rcases (mem_merged hw.nodup hsortU).mp (List.mem_filter.mp hv).1 with hv | ⟨hv, -⟩
    · obtain ⟨w, hw', -, hp⟩ := exists_of_map_withoutPriority hus hv
      exact hp ▸ ⟨hc.updates_pos w hw', hc.updates_le w hw'⟩
    · exact ⟨hw.power_pos v hv, hw.power_le v hv⟩
  refine ⟨?_, fun v hv => (hfrom v hv).1, fun v hv => (hfrom v hv).2, ?_⟩
  · exact (((mergeUpdates_spec (sortByAddress_sorted hw.nodup) hsortU).2).filter _).nodup
  · rw [powerSum_applied hw.nodup hc hus]
    exact hle

/-- A change set that passed the empty-set check leaves a non-empty list: an update or an entry
the change set does not remove survives. -/
lemma applied_ne_nil (hw : WellFormed vals.validators) (hc : ProcessedChanges updates deletes)
    (hus : us.map Validator.withoutPriority = updates.map Validator.withoutPriority)
    (hfound : ∀ d ∈ deletes, d.address ∈ addresses vals.validators)
    (hne : ¬ (numNewValidators updates vals = 0 ∧ vals.validators.length = deletes.length)) :
    (mergeUpdates (sortByAddress vals.validators) us).filter
      (fun v => v.address ∉ addresses deletes) ≠ [] := by
  have haddr := addresses_of_map_withoutPriority hus
  have hsortU : AddressSorted us := hc.updates_sorted.of_addresses_eq haddr
  intro hN
  apply hne
  -- every update would survive, so there are none
  have hus_nil : us = [] := by
    refine List.eq_nil_iff_forall_not_mem.mpr fun u hu => ?_
    have hud : u.address ∉ addresses deletes :=
      hc.disjoint (haddr ▸ address_mem_addresses hu)
    have : u ∈ (mergeUpdates (sortByAddress vals.validators) us).filter
        (fun v => v.address ∉ addresses deletes) :=
      List.mem_filter.mpr ⟨(mem_merged hw.nodup hsortU).mpr (.inl hu), by simpa using hud⟩
    rw [hN] at this
    simp at this
  have hupd_nil : updates = [] := by
    rw [hus_nil, List.map_nil] at hus
    exact List.map_eq_nil_iff.mp hus.symm
  -- and every entry of the set would survive unless it is removed
  have hall : ∀ e ∈ vals.validators, e.address ∈ addresses deletes := by
    intro e he
    by_contra hd
    have : e ∈ (mergeUpdates (sortByAddress vals.validators) us).filter
        (fun v => v.address ∉ addresses deletes) :=
      List.mem_filter.mpr ⟨(mem_merged hw.nodup hsortU).mpr (.inr ⟨he, by simp [hus_nil]⟩),
        by simpa using hd⟩
    rw [hN] at this
    simp at this
  exact ⟨numNewValidators_eq_zero.mpr (by simp [hupd_nil]),
    le_antisymm (length_le_of_found hw.nodup hall) (length_le_of_found hc.deletes_sorted.nodup hfound)⟩

end ApplyChanges

/-- The final sort of `updateWithChangeSet` turns a well-formed non-empty list with a correct
cache into a valid set. -/
lemma valid_sortByVotingPower {vals : ValidatorSet} (hw : WellFormed vals.validators)
    (hne : vals.validators ≠ []) (ht : vals.totalVotingPower = powerSum vals.validators) :
    Valid { vals with validators := sortByVotingPower vals.validators } where
  toWellFormed := hw.perm (List.perm_insertionSort _ _)
  nonempty := by
    intro h
    exact hne (List.eq_nil_of_length_eq_zero
      ((List.length_insertionSort _ _).symm.trans (congrArg List.length h)))
  sorted := by
    -- sorted by the non-strict order, and no two entries tie since addresses differ
    have hne' := nodup_addresses_iff.mp ((hw.perm (List.perm_insertionSort VotingPowerLe
      vals.validators)).nodup)
    refine ((List.pairwise_insertionSort VotingPowerLe vals.validators).and hne').imp ?_
    rintro a b ⟨hab, hne⟩
    exact (validatorsByVotingPowerLess_total hne).resolve_right hab
  total_eq := ht.trans (powerSum_perm (List.perm_insertionSort _ _)).symm

/-- Once `verifyRemovals` and `verifyUpdates` have passed on a well-formed set with a correct
cache, applying the changes cannot fail: it leaves a well-formed list, non-empty when the
empty-set check passed. -/
lemma applyChanges_spec {vals valsT : ValidatorSet} {updates deletes : List Validator}
    {removed tvp : Int} (hw : WellFormed vals.validators)
    (ht : vals.totalVotingPower = powerSum vals.validators) (hc : ProcessedChanges updates deletes)
    (hrem : verifyRemovals deletes vals = .ok removed)
    (hupd : verifyUpdates updates vals removed = .ok (tvp, valsT)) :
    valsT = vals ∧ ∃ N,
      (vals.applyUpdates (computeNewPriorities updates vals tvp)).applyRemovals deletes
        = .ok { vals with validators := N } ∧ WellFormed N ∧
      (¬ (numNewValidators updates vals = 0 ∧ vals.validators.length = deletes.length) →
        N ≠ []) := by
  obtain ⟨hfound, rfl⟩ :=
    verifyRemovals_eq hw.nodup hw.power_nonneg hw.sum_le hc.deletes_sorted.nodup hrem
  -- the updated and the removed validators are distinct entries of the set
  have hlow : ((addresses updates).map (powerOf vals.validators)).sum
      + powerSum (vals.validators.filter fun v => v.address ∈ addresses deletes)
      ≤ powerSum vals.validators := by
    have hK := sum_powerOf_eq hw.nodup hc.nodup
    have hD := sum_powerOf_eq hw.nodup hc.deletes_sorted.nodup
    have hsub := powerSum_filter_le
      (fun v => decide (v.address ∈ addresses updates ++ addresses deletes)) hw.power_nonneg
    simp only [List.map_append, List.sum_append] at hK
    omega
  obtain ⟨rfl, hle⟩ := verifyUpdates_le hw ht hc.updates_nonneg hlow
    (powerSum_nonneg fun v hv => hw.power_nonneg v (List.mem_filter.mp hv).1) hupd
  have hus := computeNewPriorities_withoutPriority updates valsT tvp
  exact ⟨rfl, _, applyChanges_eq hw.nodup hc (addresses_of_map_withoutPriority hus) hfound,
    wellFormed_applied hw hc hus hle, applied_ne_nil hw hc hus hfound⟩

/-- A successful change set on a well-formed set with a correct cache leaves a valid set. -/
lemma updateWithChangeSet_valid {vals vals' : ValidatorSet} {changes : List Validator}
    {allowDeletes : Bool} (hw : WellFormed vals.validators)
    (ht : vals.totalVotingPower = powerSum vals.validators) (hne : changes ≠ [])
    (h : vals.updateWithChangeSet changes allowDeletes = .ok vals') : vals'.Valid := by
  obtain ⟨updates, deletes, removed, tvp, valsT, valsR, valsU, total, valsS, valsC, valsD, hpc,
    hempty, hrem, hupd, happ, htot, hTVP, hres, hsh, rfl⟩ := updateWithChangeSet_ok hne h
  obtain ⟨rfl, N, happ', hN, hNne⟩ :=
    applyChanges_spec hw ht (processChanges_processed hpc) hrem hupd
  rw [happ'] at happ
  cases happ
  rw [updateTotalVotingPower_eq hN.power_nonneg hN.sum_le] at htot
  cases htot
  rw [TotalVotingPower_of_ne (hN.powerSum_pos (hNne hempty)).ne'] at hTVP
  cases hTVP
  -- rescaling and recentring change priorities only
  have hD := (RescalePriorities_samePowers hres).trans (shiftByAvgProposerPriority_samePowers hsh)
  refine valid_sortByVotingPower (hN.of_map_withoutPriority hD.2) ?_ ?_
  · intro hnil
    have h2 := hD.2
    rw [hnil, List.map_nil] at h2
    exact hNne hempty (List.map_eq_nil_iff.mp h2.symm)
  · rw [hD.1, powerSum_of_map_withoutPriority hD.2]

/-- `UpdateWithChangeSet` keeps a valid set valid. -/
lemma Valid.UpdateWithChangeSet {vals vals' : ValidatorSet} {changes : List Validator}
    (hv : vals.Valid) (h : vals.UpdateWithChangeSet changes = .ok vals') : vals'.Valid := by
  by_cases hne : changes = []
  · subst hne
    cases h
    exact hv
  · exact updateWithChangeSet_valid hv.toWellFormed hv.total_eq hne h

/-- `NewValidatorSet` of a non-empty list, when it returns, returns a valid set. -/
lemma NewValidatorSet_valid {valz : List Validator} {vals : ValidatorSet} (hne : valz ≠ [])
    (h : NewValidatorSet valz = .ok vals) : vals.Valid := by
  unfold NewValidatorSet at h
  split at h
  · cases h
  · cases h
  · rename_i vals₀ h₀
    have hv₀ := updateWithChangeSet_valid WellFormed.nil rfl hne h₀
    rw [if_pos (List.length_pos_of_ne_nil hne)] at h
    exact hv₀.IncrementProposerPriority h

/-! ## Reachable sets -/

/-- The validator sets reachable from a non-empty genesis list through successful updates and
increments by an `int32` number of rounds `times ≥ 1`. -/
inductive Reachable : ValidatorSet → Prop
  | new {valz : List Validator} {vals : ValidatorSet} :
      valz ≠ [] → NewValidatorSet valz = .ok vals → Reachable vals
  | update {vals vals' : ValidatorSet} {changes : List Validator} :
      Reachable vals → vals.UpdateWithChangeSet changes = .ok vals' → Reachable vals'
  | increment {vals vals' : ValidatorSet} {times : Int} :
      Reachable vals → 1 ≤ times → times ≤ MaxInt32 →
      vals.IncrementProposerPriority times = .ok vals' → Reachable vals'

/-- Every reachable set is valid. -/
lemma Reachable.valid {vals : ValidatorSet} (h : Reachable vals) : vals.Valid := by
  induction h with
  | new hne hnew => exact NewValidatorSet_valid hne hnew
  | update _ hupd ih => exact ih.UpdateWithChangeSet hupd
  | increment _ _ _ hinc ih => exact ih.IncrementProposerPriority hinc

end ValidatorSet

end Tendermint
