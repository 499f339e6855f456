import Tendermint.Types.Validator
import Tendermint.Lib.Except

/-!
# The validator set (`types/validator_set.go`)

A `ValidatorSet` is a list of validators, the current proposer and a cached total voting
power.  Two families of operations change it, and this file models both as the Go code
computes them.

**Proposer priorities.**  `IncrementProposerPriority times` first rescales the priorities so
that their spread is at most `2 · total` (`RescalePriorities`), then recentres them on their
floored average (`shiftByAvgProposerPriority`), then runs `times` rounds of the weighted
round-robin step `incrementProposerPriority`: every priority grows by its voting power and the
largest one, the proposer, pays the total back.  All additions go through the clipping
`safeAddClip` / `safeSubClip`; the Go `int64` arithmetic outside them is wrapped with
`wrap64` where it could overflow.

**Validator changes.**  `updateWithChangeSet` validates a change list (`processChanges`,
`verifyRemovals`, `verifyUpdates`), gives new validators the priority `-1.125 · total`
(`computeNewPriorities`), merges the updates into the address-sorted list (`applyUpdates`),
deletes the removals (`applyRemovals`), recomputes the total, rescales, recentres and finally
sorts by voting power.

Go's `sort.Sort` is not stable; the model sorts with `List.insertionSort` under the same `Less`.
The two agree whenever `Less` is a strict total order on the list, which it is on every list
with distinct addresses (`ValidatorSet.Valid`).  A Go method on `*ValidatorSet` returns the
updated set; a returned error leaves the caller's set as it was, up to the total-power cache
being filled in (with the value the invariant says it already has).
-/

namespace Tendermint

/-! ## Constants and clipped arithmetic -/

/-- `MaxTotalVotingPower = int64(math.MaxInt64) / 8`. -/
def MaxTotalVotingPower : Int := MaxInt64 / 8

/-- `PriorityWindowSizeFactor`. -/
def PriorityWindowSizeFactor : Int := 2

/-- `safeAdd`: the sum, and whether it overflowed (in which case the value is `-1`). -/
def safeAdd (a b : Int) : Int × Bool :=
  if b > 0 ∧ a > MaxInt64 - b then (-1, true)
  else if b < 0 ∧ a < MinInt64 - b then (-1, true)
  else (a + b, false)

/-- `safeSub`: the difference, and whether it overflowed. -/
def safeSub (a b : Int) : Int × Bool :=
  if b > 0 ∧ a < MinInt64 + b then (-1, true)
  else if b < 0 ∧ a > MaxInt64 + b then (-1, true)
  else (a - b, false)

/-- `safeAddClip`: the sum, clipped to the `int64` range on overflow. -/
def safeAddClip (a b : Int) : Int :=
  match safeAdd a b with
  | (_, true) => if b < 0 then MinInt64 else MaxInt64
  | (c, false) => c

/-- `safeSubClip`: the difference, clipped to the `int64` range on overflow. -/
def safeSubClip (a b : Int) : Int :=
  match safeSub a b with
  | (_, true) => if b > 0 then MinInt64 else MaxInt64
  | (c, false) => c

lemma maxTotalVotingPower_eq : MaxTotalVotingPower = 2 ^ 60 - 1 := rfl

/-- Sums and differences within eight times the power bound are `int64`s. -/
lemma inInt64_of_abs_le {x : Int} (h1 : -(8 * MaxTotalVotingPower) ≤ x)
    (h2 : x ≤ 7 * MaxTotalVotingPower) : InInt64 x := by
  unfold InInt64 MinInt64 MaxInt64
  rw [maxTotalVotingPower_eq] at h1 h2
  omega

/-- Without overflow, `safeAddClip` is addition. -/
lemma safeAddClip_eq {a b : Int} (h : InInt64 (a + b)) : safeAddClip a b = a + b := by
  unfold InInt64 at h
  unfold safeAddClip safeAdd
  split_ifs <;> first | omega | rfl

/-! ## Orders -/

/-- `ValidatorsByVotingPower.Less`: higher power first, then smaller address. -/
def ValidatorsByVotingPowerLess (a b : Validator) : Prop :=
  a.votingPower > b.votingPower ∨ (a.votingPower = b.votingPower ∧ BytesLt a.address b.address)

instance (a b : Validator) : Decidable (ValidatorsByVotingPowerLess a b) :=
  inferInstanceAs (Decidable (_ ∨ _))

/-- `ValidatorsByAddress.Less`. -/
def ValidatorsByAddressLess (a b : Validator) : Prop := BytesLt a.address b.address

instance (a b : Validator) : Decidable (ValidatorsByAddressLess a b) :=
  inferInstanceAs (Decidable (BytesLt _ _))

/-- The order `sort.Sort(ValidatorsByAddress(l))` leaves a list in: no entry is `Less` than
one before it. -/
def AddressLe (a b : Validator) : Prop := ¬ ValidatorsByAddressLess b a

instance : DecidableRel AddressLe := fun _ _ => inferInstanceAs (Decidable (¬ _))

/-- The order `sort.Sort(ValidatorsByVotingPower(l))` leaves a list in. -/
def VotingPowerLe (a b : Validator) : Prop := ¬ ValidatorsByVotingPowerLess b a

instance : DecidableRel VotingPowerLe := fun _ _ => inferInstanceAs (Decidable (¬ _))

/-- `sort.Sort(ValidatorsByAddress(l))`. -/
def sortByAddress (l : List Validator) : List Validator := l.insertionSort AddressLe

/-- `sort.Sort(ValidatorsByVotingPower(l))`. -/
def sortByVotingPower (l : List Validator) : List Validator := l.insertionSort VotingPowerLe

/-! ## The set and its queries -/

/-- `types.ValidatorSet`: the validators, the proposer (Go keeps a pointer into the list; the
model keeps the validator it pointed to when it was chosen) and the cached total voting power,
`0` standing for "not computed yet". -/
structure ValidatorSet where
  validators : List Validator
  proposer : Option Validator
  totalVotingPower : Int
  deriving DecidableEq, Repr

namespace ValidatorSet

/-- `IsNilOrEmpty`. -/
def IsNilOrEmpty (vals : ValidatorSet) : Bool := vals.validators.isEmpty

/-- `Size`. -/
def Size (vals : ValidatorSet) : Nat := vals.validators.length

/-- `HasAddress`. -/
def HasAddress (vals : ValidatorSet) (address : Address) : Bool :=
  vals.validators.any fun v => v.address == address

/-- `GetByAddress`: the index and validator of the first entry with this address. -/
def GetByAddress (vals : ValidatorSet) (address : Address) : Option (Nat × Validator) :=
  match vals.validators.findIdx? (fun v => v.address == address) with
  | some i => (vals.validators[i]?).map fun v => (i, v)
  | none => none

/-- `GetByAddress` returns an entry of the set with the address asked for. -/
lemma GetByAddress_eq_some {vals : ValidatorSet} {address : Address} {j : Nat} {val : Validator}
    (h : vals.GetByAddress address = some (j, val)) :
    vals.validators[j]? = some val ∧ val.address = address := by
  unfold GetByAddress at h
  split at h
  · rename_i i hi
    obtain ⟨hlt, hp, -⟩ := List.findIdx?_eq_some_iff_getElem.mp hi
    rw [List.getElem?_eq_getElem hlt, Option.map_some, Option.some.injEq, Prod.mk.injEq] at h
    obtain ⟨rfl, rfl⟩ := h
    exact ⟨List.getElem?_eq_getElem hlt, by simpa using hp⟩
  · cases h

/-- `GetByIndex`. -/
def GetByIndex (vals : ValidatorSet) (index : Int) : Option (Address × Validator) :=
  if index < 0 then none
  else (vals.validators[index.toNat]?).map fun v => (v.address, v)

lemma GetByIndex_of_getElem? {vals : ValidatorSet} {index : Int} {val : Validator}
    (h0 : 0 ≤ index) (h : vals.validators[index.toNat]? = some val) :
    vals.GetByIndex index = some (val.address, val) := by
  simp [GetByIndex, not_lt.mpr h0, h]

/-- The loop of `updateTotalVotingPower`: a clipped running sum that panics as soon as it
passes `MaxTotalVotingPower`. -/
def sumVotingPower : Int → List Validator → Go Int
  | sum, [] => pure sum
  | sum, val :: rest =>
      let sum' := safeAddClip sum val.votingPower
      if sum' > MaxTotalVotingPower then
        throw (.panic "Total voting power should be guarded to not exceed")
      else sumVotingPower sum' rest

/-- `updateTotalVotingPower`. -/
def updateTotalVotingPower (vals : ValidatorSet) : Go ValidatorSet := do
  let sum ← sumVotingPower 0 vals.validators
  pure { vals with totalVotingPower := sum }

/-- `TotalVotingPower`: the cache, filled in first if it is still `0`. -/
def TotalVotingPower (vals : ValidatorSet) : Go (Int × ValidatorSet) :=
  if vals.totalVotingPower = 0 then do
    let vals ← vals.updateTotalVotingPower
    pure (vals.totalVotingPower, vals)
  else pure (vals.totalVotingPower, vals)

/-- A filled cache is returned as it is. -/
lemma TotalVotingPower_of_ne {vals : ValidatorSet} (h : vals.totalVotingPower ≠ 0) :
    vals.TotalVotingPower = .ok (vals.totalVotingPower, vals) := by
  simp [TotalVotingPower, h, pure, Except.pure]

/-- Apply `f` to every proposer priority. -/
def mapPriorities (vals : ValidatorSet) (f : Validator → Int) : ValidatorSet :=
  { vals with validators := vals.validators.map fun v => { v with proposerPriority := f v } }

/-! ## Proposer priorities -/

/-- `computeMaxMinPriorityDiff`: `max - min` of the priorities, made non-negative, with Go's
wrap-around on the subtraction. -/
def computeMaxMinPriorityDiff (vals : ValidatorSet) : Go Int :=
  if vals.IsNilOrEmpty then throw (.panic "empty validator set")
  else
    let max := vals.validators.foldl
      (fun m v => if v.proposerPriority > m then v.proposerPriority else m) MinInt64
    let min := vals.validators.foldl
      (fun m v => if v.proposerPriority < m then v.proposerPriority else m) MaxInt64
    let diff := wrap64 (max - min)
    if diff < 0 then pure (wrap64 (-1 * diff)) else pure diff

/-- Divide every priority by `ratio`, as the loop of `RescalePriorities` does. -/
def dividePriorities : List Validator → Int → Go (List Validator)
  | [], _ => pure []
  | v :: rest, ratio => do
      let p ← goDiv v.proposerPriority ratio
      let rest ← dividePriorities rest ratio
      pure ({ v with proposerPriority := p } :: rest)

/-- `RescalePriorities`: if the spread exceeds `diffMax`, divide every priority by
`ceil(diff / diffMax)`. -/
def RescalePriorities (vals : ValidatorSet) (diffMax : Int) : Go ValidatorSet :=
  if vals.IsNilOrEmpty then throw (.panic "empty validator set")
  else if diffMax ≤ 0 then pure vals
  else do
    let diff ← computeMaxMinPriorityDiff vals
    let ratio ← goDiv (wrap64 (wrap64 (diff + diffMax) - 1)) diffMax
    if diff > diffMax then
      let vs ← dividePriorities vals.validators ratio
      pure { vals with validators := vs }
    else pure vals

/-- The loop of `getValWithMostPriority`, remembering which entry Go's `res` points to. -/
def getValWithMostPriorityFrom : Option (Nat × Validator) → List Validator → Nat →
    Go (Option (Nat × Validator))
  | res, [], _ => pure res
  | none, val :: rest, i => getValWithMostPriorityFrom (some (i, val)) rest (i + 1)
  | some (j, r), val :: rest, i => do
      let pickOther ← r.comparePick val
      getValWithMostPriorityFrom (if pickOther then some (i, val) else some (j, r)) rest (i + 1)

/-- `getValWithMostPriority`: the position and value of the validator it returns. -/
def getValWithMostPriority (vals : ValidatorSet) : Go (Option (Nat × Validator)) :=
  getValWithMostPriorityFrom none vals.validators 0

/-- `incrementProposerPriority`: one round of the weighted round-robin.  Returns the proposer
and the updated set. -/
def incrementProposerPriority (vals : ValidatorSet) : Go (Validator × ValidatorSet) := do
  let vals := vals.mapPriorities fun v => safeAddClip v.proposerPriority v.votingPower
  let mostest ← vals.getValWithMostPriority
  match mostest with
  | none => throw (.panic "runtime error: invalid memory address or nil pointer dereference")
  | some (i, m) =>
      let (total, vals) ← vals.TotalVotingPower
      let m := { m with proposerPriority := safeSubClip m.proposerPriority total }
      pure (m, { vals with validators := vals.validators.set i m })

/-- `computeAvgProposerPriority`: the floored (`big.Int` Euclidean) average, which must fit
an `int64`. -/
def computeAvgProposerPriority (vals : ValidatorSet) : Go Int :=
  let n : Int := vals.validators.length
  let sum := (vals.validators.map (·.proposerPriority)).sum
  if n = 0 then throw (.panic "division by zero")
  else
    let avg := sum / n
    if InInt64 avg then pure avg
    else throw (.panic "Cannot represent avg ProposerPriority as an int64")

/-- `shiftByAvgProposerPriority`. -/
def shiftByAvgProposerPriority (vals : ValidatorSet) : Go ValidatorSet :=
  if vals.IsNilOrEmpty then throw (.panic "empty validator set")
  else do
    let avg ← vals.computeAvgProposerPriority
    pure (vals.mapPriorities fun v => safeSubClip v.proposerPriority avg)

/-- The loop of `IncrementProposerPriority`: `n` rounds, keeping the last proposer. -/
def incrementTimes : Nat → ValidatorSet → Option Validator → Go (Option Validator × ValidatorSet)
  | 0, vals, proposer => pure (proposer, vals)
  | n + 1, vals, _ => do
      let (proposer, vals) ← vals.incrementProposerPriority
      incrementTimes n vals (some proposer)

/-- `IncrementProposerPriority(times)`: rescale and recentre once, then `times` rounds. -/
def IncrementProposerPriority (vals : ValidatorSet) (times : Int) : Go ValidatorSet :=
  if vals.IsNilOrEmpty then throw (.panic "empty validator set")
  else if times ≤ 0 then
    throw (.panic "Cannot call IncrementProposerPriority with non-positive times")
  else do
    let (total, vals) ← vals.TotalVotingPower
    let diffMax := wrap64 (PriorityWindowSizeFactor * total)
    let vals ← vals.RescalePriorities diffMax
    let vals ← vals.shiftByAvgProposerPriority
    let (proposer, vals) ← incrementTimes times.toNat vals none
    pure { vals with proposer := proposer }

/-- The loop of `findProposer`: an entry with the address of the proposer so far is passed
over, every other one is compared with it. -/
def findProposerFrom : Option Validator → List Validator → Go (Option Validator)
  | proposer, [] => pure proposer
  | proposer, val :: rest =>
    if proposer.any (·.address == val.address) then findProposerFrom proposer rest
    else do
      let proposer ← Validator.CompareProposerPriority proposer val
      findProposerFrom (some proposer) rest

/-- `findProposer`. -/
def findProposer (vals : ValidatorSet) : Go (Option Validator) :=
  findProposerFrom none vals.validators

/-- `GetProposer`: the remembered proposer, found and remembered first if there is none. -/
def GetProposer (vals : ValidatorSet) : Go (Option Validator × ValidatorSet) :=
  if vals.validators.isEmpty then pure (none, vals)
  else match vals.proposer with
    | some proposer => pure (some proposer, vals)
    | none => do
      let proposer ← vals.findProposer
      pure (proposer, { vals with proposer := proposer })

/-! ## Validator changes -/

/-- The scan of `processChanges` over the address-sorted changes: `prevAddr` starts as Go's
`nil` address, so an empty address already counts as a duplicate. -/
def processChangesFrom : Address → List Validator → Go (List Validator × List Validator)
  | _, [] => pure ([], [])
  | prevAddr, valUpdate :: rest =>
      if valUpdate.address = prevAddr then throw (.err "duplicate entry")
      else if valUpdate.votingPower < 0 then throw (.err "voting power can't be negative")
      else if valUpdate.votingPower > MaxTotalVotingPower then
        throw (.err "to prevent clipping/overflow, voting power can't be higher than")
      else do
        let (updates, removals) ← processChangesFrom valUpdate.address rest
        if valUpdate.votingPower = 0 then pure (updates, valUpdate :: removals)
        else pure (valUpdate :: updates, removals)

/-- `processChanges`: the changes sorted by address and split into updates and removals. -/
def processChanges (origChanges : List Validator) : Go (List Validator × List Validator) :=
  processChangesFrom [] (sortByAddress origChanges)

/-- The `delta` closure of `verifyUpdates`: the change of total power one update makes. -/
def updateDelta (vals : ValidatorSet) (update : Validator) : Int :=
  match vals.GetByAddress update.address with
  | some (_, val) => wrap64 (update.votingPower - val.votingPower)
  | none => update.votingPower

/-- The loop of `verifyUpdates`: the running total, failing as soon as it passes
`MaxTotalVotingPower`. -/
def addDeltas (vals : ValidatorSet) : Int → List Validator → Go Int
  | tvp, [] => pure tvp
  | tvp, upd :: rest =>
      let tvp := wrap64 (tvp + updateDelta vals upd)
      if tvp > MaxTotalVotingPower then
        throw (.err "total voting power of resulting valset exceeds max")
      else addDeltas vals tvp rest

/-- `verifyUpdates`: the total power after the updates and before the removals, the updates
being applied in increasing order of their delta. -/
def verifyUpdates (updates : List Validator) (vals : ValidatorSet) (removedPower : Int) :
    Go (Int × ValidatorSet) := do
  let updatesCopy := updates.insertionSort fun a b => ¬ updateDelta vals b < updateDelta vals a
  let (total, vals) ← vals.TotalVotingPower
  let tvpAfterRemovals ← addDeltas vals (wrap64 (total - removedPower)) updatesCopy
  pure (wrap64 (tvpAfterRemovals + removedPower), vals)

/-- `numNewValidators`. -/
def numNewValidators (updates : List Validator) (vals : ValidatorSet) : Nat :=
  (updates.filter fun u => !vals.HasAddress u.address).length

/-- `computeNewPriorities`: a new validator starts at `-1.125 · total`, an updated one keeps
its priority. -/
def computeNewPriorities (updates : List Validator) (vals : ValidatorSet)
    (updatedTotalVotingPower : Int) : List Validator :=
  updates.map fun valUpdate =>
    match vals.GetByAddress valUpdate.address with
    | none =>
        let p := wrap64 (updatedTotalVotingPower + (updatedTotalVotingPower >>> 3))
        { valUpdate with proposerPriority := wrap64 (-p) }
    | some (_, val) => { valUpdate with proposerPriority := val.proposerPriority }

/-- One head `e` of the existing list against the updates that come before it: smaller
updates are emitted, an equal one replaces `e`, and once `e` is smaller the merge continues
with the rest of the existing list (`next`). -/
def mergeUpdatesFrom (e : Validator) (existing : List Validator)
    (next : List Validator → List Validator) : List Validator → List Validator
  | [] => e :: existing
  | u :: updates =>
      if bytesCompare e.address u.address = .lt then e :: next (u :: updates)
      else if e.address = u.address then u :: next updates
      else u :: mergeUpdatesFrom e existing next updates

/-- The merge loop of `applyUpdates`: on equal addresses the update replaces the existing
entry. -/
def mergeUpdates : List Validator → List Validator → List Validator
  | [], updates => updates
  | e :: existing, updates => mergeUpdatesFrom e existing (mergeUpdates existing) updates

/-- `applyUpdates`: sort the existing validators by address and merge the updates in. -/
def applyUpdates (vals : ValidatorSet) (updates : List Validator) : ValidatorSet :=
  { vals with validators := mergeUpdates (sortByAddress vals.validators) updates }

/-- The loop of `verifyRemovals`: every removal must be in the set; sums their powers. -/
def removedPowerFrom (vals : ValidatorSet) : Int → List Validator → Go Int
  | removed, [] => pure removed
  | removed, valUpdate :: rest =>
      match vals.GetByAddress valUpdate.address with
      | none => throw (.err "failed to find validator to remove")
      | some (_, val) => removedPowerFrom vals (wrap64 (removed + val.votingPower)) rest

/-- `verifyRemovals`. -/
def verifyRemovals (deletes : List Validator) (vals : ValidatorSet) : Go Int := do
  let removed ← removedPowerFrom vals 0 deletes
  if deletes.length > vals.validators.length then throw (.panic "more deletes than validators")
  else pure removed

/-- The loop of `applyRemovals`: walk the address-sorted list, dropping each deletion where it
is met; running off the end of the list is Go's index-out-of-range panic. -/
def removeSorted : List Validator → List Validator → Go (List Validator)
  | existing, [] => pure existing
  | [], _ :: _ => throw (.panic "runtime error: index out of range")
  | e :: existing, d :: deletes =>
      if e.address = d.address then removeSorted existing deletes
      else do
        let rest ← removeSorted existing (d :: deletes)
        pure (e :: rest)

/-- `applyRemovals`. -/
def applyRemovals (vals : ValidatorSet) (deletes : List Validator) : Go ValidatorSet :=
  if deletes.length > vals.validators.length then
    throw (.panic "runtime error: makeslice: len out of range")
  else do
    let vs ← removeSorted vals.validators deletes
    pure { vals with validators := vs }

/-- `updateWithChangeSet(changes, allowDeletes)`. -/
def updateWithChangeSet (vals : ValidatorSet) (changes : List Validator) (allowDeletes : Bool) :
    Go ValidatorSet :=
  if changes.isEmpty then pure vals
  else do
    let (updates, deletes) ← processChanges changes
    if !allowDeletes && deletes.length ≠ 0 then
      throw (.err "cannot process validators with voting power 0")
    if numNewValidators updates vals = 0 && vals.validators.length = deletes.length then
      throw (.err "applying the validator changes would result in empty set")
    let removedVotingPower ← verifyRemovals deletes vals
    let (tvpAfterUpdatesBeforeRemovals, vals) ← verifyUpdates updates vals removedVotingPower
    let updates := computeNewPriorities updates vals tvpAfterUpdatesBeforeRemovals
    let vals := vals.applyUpdates updates
    let vals ← vals.applyRemovals deletes
    let vals ← vals.updateTotalVotingPower
    let (total, vals) ← vals.TotalVotingPower
    let vals ← vals.RescalePriorities (wrap64 (PriorityWindowSizeFactor * total))
    let vals ← vals.shiftByAvgProposerPriority
    pure { vals with validators := sortByVotingPower vals.validators }

/-- `UpdateWithChangeSet`. -/
def UpdateWithChangeSet (vals : ValidatorSet) (changes : List Validator) : Go ValidatorSet :=
  vals.updateWithChangeSet changes true

end ValidatorSet

/-- `NewValidatorSet`: an error from the change set becomes a panic. -/
def NewValidatorSet (valz : List Validator) : Go ValidatorSet :=
  match (ValidatorSet.mk [] none 0).updateWithChangeSet valz false with
  | .error (.err msg) => throw (.panic ("Cannot create validator set: " ++ msg))
  | .error (.panic msg) => throw (.panic msg)
  | .ok vals => if valz.length > 0 then vals.IncrementProposerPriority 1 else pure vals

end Tendermint
