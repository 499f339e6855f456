import Tendermint.Types.CommitVerify

/-!
# The time of a block (`state/state.go`, `types/time/time.go`)

A block at a height above the initial one must carry the time `MedianTime(LastCommit,
LastValidators)` (`validateBlock`): the median of the timestamps of the previous block's commit,
each weighted by its signer's power.  `MedianTime` looks each present signature up by address,
adds the power found to a total, and hands the weighted times to `WeightedMedian`, which sorts
them by time and returns the first one at which the weights seen reach half the total.

`MedianTime`'s comment says the result always lies between the timestamps of honest validators,
so that faulty ones cannot move it.  With faulty power below a third of the set that is not so:
the median is taken over the power that signed, not the set's, and `T / 2` is rounded down, so a
faulty signer whose power is half the signed power, rounded down, picks the time
(`MedianTime_faultyEarly`).
-/

namespace Tendermint

/-- `tmtime.WeightedTime`. -/
structure WeightedTime where
  time : Time
  weight : Int
  deriving DecidableEq, Repr

/-- The scan of `WeightedMedian` over the weighted times in ascending order: the first one whose
weight reaches what is left of `median`, or Go's zero time if none does. -/
def pickMedian : Int → List WeightedTime → Time
  | _, [] => 0
  | median, wt :: rest =>
    if median ≤ wt.weight then wt.time else pickMedian (wrap64 (median - wt.weight)) rest

/-- `WeightedMedian`.  `sort.Slice` orders the entries by time with the `nil` ones last, where
the scan skips them; the model sorts the present entries with a merge sort by time. -/
def WeightedMedian (weightedTimes : List (Option WeightedTime)) (totalVotingPower : Int) : Time :=
  pickMedian (totalVotingPower.tdiv 2)
    ((weightedTimes.filterMap id).mergeSort fun a b => decide (a.time ≤ b.time))

/-- The loop of `MedianTime` from a signature on, with the total so far: a present signature
whose address the set knows adds its validator's power to the total and its weighted time to the
list; every other slot stays `nil`. -/
def weightedTimesFrom (validators : ValidatorSet) :
    Int → List CommitSig → List (Option WeightedTime) × Int
  | total, [] => ([], total)
  | total, cs :: rest =>
    if cs.Absent then
      let r := weightedTimesFrom validators total rest
      (none :: r.1, r.2)
    else match validators.GetByAddress cs.validatorAddress with
      | none =>
        let r := weightedTimesFrom validators total rest
        (none :: r.1, r.2)
      | some (_, validator) =>
        let r := weightedTimesFrom validators (wrap64 (total + validator.votingPower)) rest
        (some ⟨cs.timestamp, validator.votingPower⟩ :: r.1, r.2)

/-- `MedianTime`. -/
def MedianTime (commit : Commit) (validators : ValidatorSet) : Time :=
  let r := weightedTimesFrom validators 0 commit.signatures
  WeightedMedian r.1 r.2

open ValidatorSet

/-- A validator of power one at the address `List.replicate 20 k`. -/
def unitValidator (k : UInt8) : Validator := ⟨List.replicate 20 k, [], 1, 0⟩

/-- Four validators of power one, in the order `NewValidatorSet` gives them. -/
def fourSet : ValidatorSet :=
  ⟨[unitValidator 1, unitValidator 2, unitValidator 3, unitValidator 4], none, 4⟩

lemma fourSet_valid : fourSet.Valid :=
  ⟨⟨by decide, by decide, by decide, by decide⟩, by decide, by decide, by decide⟩

/-- The commit of `oneBlockID` at height one where validator 1 signs at `tf`, validators 2 and 3
at `th`, and validator 4 is absent. -/
def earlyCommit (tf th : Time) : Commit :=
  NewCommit 1 0 oneBlockID
    [⟨.BlockIDFlagCommit, List.replicate 20 1, tf, [1]⟩,
      ⟨.BlockIDFlagCommit, List.replicate 20 2, th, [1]⟩,
      ⟨.BlockIDFlagCommit, List.replicate 20 3, th, [1]⟩, NewCommitSigAbsent]

/-- With faulty power below a third of the set, one faulty signer fixes the block time.
Validator 1 of four of power one is faulty (`3 * 1 < 4`) and signs at `tf`; validators 2 and 3
sign the block at a later `th`, and validator 4 is absent.  `VerifyCommit` accepts the commit,
and the signed power is `3`: the scan looks for `3 / 2 = 1`, which the first entry, `tf`, already
reaches. -/
theorem MedianTime_faultyEarly (tf th : Time) (h : tf < th) :
    fourSet.Valid ∧
      fourSet.VerifyCommit VoteSet.echoCrypto "chain" oneBlockID 1 (earlyCommit tf th) = .ok () ∧
      3 * (unitValidator 1).votingPower < fourSet.totalVotingPower ∧
      MedianTime (earlyCommit tf th) fourSet = tf ∧ MedianTime (earlyCommit tf th) fourSet < th := by
  have hsig : ∀ (i : Nat) (cs : CommitSig), (earlyCommit tf th).signatures[i]? = some cs →
      cs.Absent = false → SigVerifies VoteSet.echoCrypto fourSet "chain" (earlyCommit tf th) i cs := by
    intro i cs hi ha
    match i, hi with
    | 0, hi => cases hi; exact ⟨unitValidator 1, [1], rfl, rfl, rfl⟩
    | 1, hi => cases hi; exact ⟨unitValidator 2, [1], rfl, rfl, rfl⟩
    | 2, hi => cases hi; exact ⟨unitValidator 3, [1], rfl, rfl, rfl⟩
    | 3, hi => cases hi; cases ha
    | _ + 4, hi => cases hi
  have hpower : BitMask.weight Validator.votingPower
      ((earlyCommit tf th).signatures.map CommitSig.ForBlock) fourSet.validators = 3 := rfl
  have hmedian : MedianTime (earlyCommit tf th) fourSet = tf := by
    have hsorted : ([⟨tf, 1⟩, ⟨th, 1⟩, ⟨th, 1⟩] : List WeightedTime).mergeSort
        (fun a b => decide (a.time ≤ b.time)) = [⟨tf, 1⟩, ⟨th, 1⟩, ⟨th, 1⟩] :=
      List.mergeSort_of_pairwise (by simp [h.le])
    show pickMedian (Int.tdiv 3 2) (([⟨tf, 1⟩, ⟨th, 1⟩, ⟨th, 1⟩] : List WeightedTime).mergeSort
        (fun a b => decide (a.time ≤ b.time))) = tf
    rw [hsorted]
    rfl
  refine ⟨fourSet_valid, VerifyCommit_ok fourSet_valid rfl rfl rfl hsig (by rw [hpower]; decide),
    by decide, hmedian, by rw [hmedian]; exact h⟩

theorem MedianTime_faultyEarly_zero :
    (0 : Time) < 100 ∧ fourSet.Valid ∧
      fourSet.VerifyCommit VoteSet.echoCrypto "chain" oneBlockID 1 (earlyCommit 0 100) = .ok () ∧
      3 * (unitValidator 1).votingPower < fourSet.totalVotingPower ∧
      MedianTime (earlyCommit 0 100) fourSet = 0 ∧ MedianTime (earlyCommit 0 100) fourSet < 100 :=
  ⟨by decide, MedianTime_faultyEarly 0 100 (by decide)⟩

end Tendermint
