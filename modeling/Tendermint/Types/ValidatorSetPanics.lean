import Tendermint.Types.ValidatorSetInvariant
import Tendermint.Types.ProposerPriority

/-!
# The panics the invariant rules out

Three panics of `types/validator_set.go` guard against a validator set that is already
corrupted: `updateTotalVotingPower` panics when the powers sum past `MaxTotalVotingPower`,
`verifyRemovals` when there are more removals than validators, and `CompareProposerPriority`
when it meets the same validator twice.  `InvariantPanic` names these three failures.

On a valid set no call of `UpdateWithChangeSet` or `IncrementProposerPriority` ends in one of
them.  Every other failure of these calls is a returned error, the nil-pointer panic of an empty
scan, or one of the panics of the priority arithmetic (`RescalePriorities`,
`shiftByAvgProposerPriority`); whether those can happen is a question about the size of the
priorities, not about the shape of the set.

Each function gets an `ExceptRun.FailsOnly` lemma, built through the binds of its body; where a
step cannot fail on a well-formed set, its success lemma from `ValidatorSetInvariant` is used
and the run continues from its result.
-/

namespace Tendermint

namespace ValidatorSet

open ExceptRun

/-- The three panics that only a corrupted validator set reaches. -/
def InvariantPanic : GoError → Prop
  | .err _ => False
  | .panic msg => msg = "Total voting power should be guarded to not exceed" ∨
      msg = "more deletes than validators" ∨ msg = "Cannot compare identical validators"

instance : DecidablePred InvariantPanic
  | .err _ => inferInstanceAs (Decidable False)
  | .panic _ => inferInstanceAs (Decidable (_ ∨ _ ∨ _))

@[simp] lemma not_invariantPanic_err (msg : String) : ¬ InvariantPanic (.err msg) := id

/-! ## The priority arithmetic fails only with its own panics -/

lemma goDiv_failsOnly (a b : Int) : FailsOnly (¬ InvariantPanic ·) (goDiv a b) := by
  unfold goDiv
  split <;> simp [InvariantPanic]

lemma dividePriorities_failsOnly : ∀ (l : List Validator) (ratio : Int),
    FailsOnly (¬ InvariantPanic ·) (dividePriorities l ratio)
  | [], _ => failsOnly_pure _ _
  | _ :: l, ratio =>
      (goDiv_failsOnly _ _).bind fun _ _ =>
        (dividePriorities_failsOnly l ratio).bind fun _ _ => failsOnly_pure _ _

lemma computeMaxMinPriorityDiff_failsOnly (vals : ValidatorSet) :
    FailsOnly (¬ InvariantPanic ·) vals.computeMaxMinPriorityDiff := by
  unfold computeMaxMinPriorityDiff
  split
  · simp [InvariantPanic]
  · dsimp only
    split <;> simp

lemma RescalePriorities_failsOnly (vals : ValidatorSet) (diffMax : Int) :
    FailsOnly (¬ InvariantPanic ·) (vals.RescalePriorities diffMax) := by
  unfold RescalePriorities
  refine FailsOnly.ite (fun _ => by simp [InvariantPanic]) fun _ =>
    FailsOnly.ite (fun _ => failsOnly_pure _ _) fun _ => ?_
  exact (computeMaxMinPriorityDiff_failsOnly vals).bind fun _ _ =>
    (goDiv_failsOnly _ _).bind fun _ _ =>
      FailsOnly.ite (fun _ => (dividePriorities_failsOnly _ _).bind fun _ _ => failsOnly_pure _ _)
        fun _ => failsOnly_pure _ _

lemma computeAvgProposerPriority_failsOnly (vals : ValidatorSet) :
    FailsOnly (¬ InvariantPanic ·) vals.computeAvgProposerPriority := by
  unfold computeAvgProposerPriority
  dsimp only
  split
  · simp [InvariantPanic]
  · split <;> simp [InvariantPanic]

lemma shiftByAvgProposerPriority_failsOnly (vals : ValidatorSet) :
    FailsOnly (¬ InvariantPanic ·) vals.shiftByAvgProposerPriority := by
  unfold shiftByAvgProposerPriority
  exact FailsOnly.ite (fun _ => by simp [InvariantPanic]) fun _ =>
    (computeAvgProposerPriority_failsOnly vals).bind fun _ _ => failsOnly_pure _ _

/-! ## Proposer selection -/

/-- On distinct addresses and a filled cache, a round of the weighted round-robin can fail only
with the nil-pointer panic of an empty scan: the scan never compares a validator with itself. -/
lemma incrementProposerPriority_failsOnly {vals : ValidatorSet}
    (hn : (addresses vals.validators).Nodup) (ht : vals.totalVotingPower ≠ 0) :
    FailsOnly (¬ InvariantPanic ·) vals.incrementProposerPriority := by
  unfold incrementProposerPriority
  dsimp only
  obtain ⟨x, hx⟩ := getValWithMostPriority_ok
    (vals.mapPriorities fun v => safeAddClip v.proposerPriority v.votingPower)
    (by simpa [mapPriorities, addresses, Function.comp_def] using hn)
  rw [hx, ok_bind]
  rcases x with _ | ⟨i, m⟩
  · simp [InvariantPanic]
  · rw [TotalVotingPower_of_ne (show (mapPriorities vals _).totalVotingPower ≠ 0 from ht)]
    simp

lemma incrementTimes_failsOnly : ∀ (n : Nat) {vals : ValidatorSet} (p : Option Validator),
    (addresses vals.validators).Nodup → vals.totalVotingPower ≠ 0 →
    FailsOnly (¬ InvariantPanic ·) (incrementTimes n vals p)
  | 0, _, _, _, _ => failsOnly_pure _ _
  | n + 1, _, _, hn, ht => (incrementProposerPriority_failsOnly hn ht).bind fun _ h => by
      -- the round changed priorities only, so the next round starts from the same shape
      have hs := incrementProposerPriority_samePowers ht h
      exact incrementTimes_failsOnly n _ (addresses_of_map_withoutPriority hs.2 ▸ hn)
        (hs.1 ▸ ht)

/-- On a valid set, `IncrementProposerPriority` does not reach any of the three panics. -/
lemma IncrementProposerPriority_failsOnly {vals : ValidatorSet} (hv : vals.Valid) (times : Int) :
    FailsOnly (¬ InvariantPanic ·) (vals.IncrementProposerPriority times) := by
  unfold IncrementProposerPriority
  refine FailsOnly.ite (fun _ => by simp [InvariantPanic]) fun _ =>
    FailsOnly.ite (fun _ => by simp [InvariantPanic]) fun _ => ?_
  rw [TotalVotingPower_of_ne hv.total_pos.ne', ok_bind]
  dsimp only
  refine (RescalePriorities_failsOnly _ _).bind fun valsR hR =>
    (shiftByAvgProposerPriority_failsOnly _).bind fun valsS hS => ?_
  have hs := (RescalePriorities_samePowers hR).trans (shiftByAvgProposerPriority_samePowers hS)
  exact (incrementTimes_failsOnly _ _ (addresses_of_map_withoutPriority hs.2 ▸ hv.nodup)
    (hs.1 ▸ hv.total_pos.ne')).bind fun _ _ => failsOnly_pure _ _

/-! ## Change sets -/

lemma processChangesFrom_failsOnly : ∀ (prevAddr : Address) (l : List Validator),
    FailsOnly (¬ InvariantPanic ·) (processChangesFrom prevAddr l)
  | _, [] => failsOnly_pure _ _
  | _, v :: l => by
      unfold processChangesFrom
      refine FailsOnly.ite (fun _ => by simp) fun _ => FailsOnly.ite (fun _ => by simp) fun _ =>
        FailsOnly.ite (fun _ => by simp) fun _ => ?_
      exact (processChangesFrom_failsOnly v.address l).bind fun _ _ => by
        dsimp only
        split <;> exact failsOnly_pure _ _

lemma removedPowerFrom_failsOnly (vals : ValidatorSet) : ∀ (removed : Int) (l : List Validator),
    FailsOnly (¬ InvariantPanic ·) (removedPowerFrom vals removed l)
  | _, [] => failsOnly_pure _ _
  | _, d :: l => by
      unfold removedPowerFrom
      split
      · simp
      · exact removedPowerFrom_failsOnly vals _ l

/-- Removals with distinct addresses never reach the length panic of `verifyRemovals`: by then
all of them were found in the set. -/
lemma verifyRemovals_failsOnly {vals : ValidatorSet} {deletes : List Validator}
    (hd : (addresses deletes).Nodup) : FailsOnly (¬ InvariantPanic ·) (verifyRemovals deletes vals) := by
  unfold verifyRemovals
  refine (removedPowerFrom_failsOnly vals 0 deletes).bind fun _ hr => ?_
  rw [if_neg (not_lt.mpr (length_le_of_found hd (removedPowerFrom_mem hr)))]
  exact failsOnly_pure _ _

lemma addDeltas_failsOnly (vals : ValidatorSet) : ∀ (tvp : Int) (l : List Validator),
    FailsOnly (¬ InvariantPanic ·) (addDeltas vals tvp l)
  | _, [] => failsOnly_pure _ _
  | _, u :: l => by
      unfold addDeltas
      dsimp only
      split
      · simp
      · exact addDeltas_failsOnly vals _ l

lemma verifyUpdates_failsOnly {vals : ValidatorSet} (hw : WellFormed vals.validators)
    (ht : vals.totalVotingPower = powerSum vals.validators) (updates : List Validator)
    (removed : Int) : FailsOnly (¬ InvariantPanic ·) (verifyUpdates updates vals removed) := by
  unfold verifyUpdates
  dsimp only
  rw [TotalVotingPower_eq hw ht, ok_bind]
  exact (addDeltas_failsOnly _ _ _).bind fun _ _ => failsOnly_pure _ _

/-- On a well-formed set with a correct cache, `updateWithChangeSet` fails only with the errors
of its checks or the panics of the priority arithmetic. -/
lemma updateWithChangeSet_failsOnly {vals : ValidatorSet} (hw : WellFormed vals.validators)
    (ht : vals.totalVotingPower = powerSum vals.validators) (changes : List Validator)
    (allowDeletes : Bool) :
    FailsOnly (¬ InvariantPanic ·) (vals.updateWithChangeSet changes allowDeletes) := by
  unfold updateWithChangeSet
  refine FailsOnly.ite (fun _ => failsOnly_pure _ _) fun _ => ?_
  refine (processChangesFrom_failsOnly _ _).bind fun ⟨updates, deletes⟩ hpc => ?_
  have hc := processChanges_processed hpc
  dsimp only
  refine FailsOnly.ite (fun _ => by simp) fun _ => FailsOnly.ite (fun _ => by simp) fun _ => ?_
  refine (verifyRemovals_failsOnly hc.deletes_sorted.nodup).bind fun _ hrem =>
    (verifyUpdates_failsOnly hw ht _ _).bind fun ⟨_, _⟩ hupd => ?_
  -- from here on only the priority arithmetic can fail
  obtain ⟨rfl, N, happ, hN, -⟩ := applyChanges_spec hw ht hc hrem hupd
  dsimp only
  rw [happ, ok_bind, updateTotalVotingPower_eq hN.power_nonneg hN.sum_le, ok_bind,
    TotalVotingPower_eq hN rfl, ok_bind]
  exact (RescalePriorities_failsOnly _ _).bind fun _ _ =>
    (shiftByAvgProposerPriority_failsOnly _).bind fun _ _ => failsOnly_pure _ _

/-! ## Every reachable set -/

/-- The representation invariant of `ValidatorSet` holds on every reachable set, and no call of
`UpdateWithChangeSet` or `IncrementProposerPriority` on it ends in the total-power panic of
`updateTotalVotingPower`, the length panic of `verifyRemovals` or the identical-validators panic
of `CompareProposerPriority`. -/
theorem reachable_representationInvariant {vals : ValidatorSet} (h : Reachable vals) :
    vals.Valid ∧
      (∀ changes, FailsOnly (¬ InvariantPanic ·) (vals.UpdateWithChangeSet changes)) ∧
      (∀ times, FailsOnly (¬ InvariantPanic ·) (vals.IncrementProposerPriority times)) := by
  have hv := h.valid
  exact ⟨hv, fun changes => updateWithChangeSet_failsOnly hv.toWellFormed hv.total_eq changes true,
    fun times => IncrementProposerPriority_failsOnly hv times⟩

theorem reachable_representationInvariant_jump :
    Reachable jumpWitness ∧ jumpWitness.Valid ∧
      (∀ changes, FailsOnly (¬ InvariantPanic ·) (jumpWitness.UpdateWithChangeSet changes)) ∧
      (∀ times, FailsOnly (¬ InvariantPanic ·) (jumpWitness.IncrementProposerPriority times)) :=
  ⟨jumpWitness_reachable, reachable_representationInvariant jumpWitness_reachable⟩

end ValidatorSet

end Tendermint
