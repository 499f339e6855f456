import Tendermint.Types.ValidatorSetInvariant

/-!
# Proposer-priority arithmetic over whole runs

`IncrementProposerPriority times` rescales and recentres the priorities **once** and then runs
`times` rounds of the round-robin step, while `times` calls of `IncrementProposerPriority 1`
rescale and recentre before **every** round.  The two agree only as long as no round pushes
the spread of the priorities past `2 · total`; the first round after an update that brings a
new validator in at `-1.125 · total` can do exactly that.

`jumpWitness` is such a set, reached from a three-validator genesis by one update; on it one
call with `times = 2` and two calls with `times = 1` end in different priorities.  This is the
computation `LoadValidators` (`state/store.go`) relies on when it rebuilds the set of a height
from the last checkpoint with one call of `IncrementProposerPriority(height - lastStoredHeight)`,
while the chain itself advanced the set by one call per height.
-/

namespace Tendermint

namespace ValidatorSet

/-- A validator with a one-byte address and no key, as the genesis file of a test chain. -/
def testValidator (a : UInt8) (power : Int) : Validator := ⟨[a], [], power, 0⟩

/-- The genesis set of the witness chain. -/
def jumpGenesis : List Validator := [testValidator 0 3, testValidator 4 4, testValidator 1 3]

/-- The one change set of the witness chain: validator `2` joins with power `2`, validator `4`
leaves. -/
def jumpChanges : List Validator := [testValidator 2 2, testValidator 4 0]

/-- The set after genesis and the update: priorities `6, 6, -10` for powers `3, 3, 2`, whose
spread `16` is exactly `2 · total`. -/
def jumpWitness : ValidatorSet :=
  ⟨[⟨[0], [], 3, 6⟩, ⟨[1], [], 3, 6⟩, ⟨[2], [], 2, -10⟩],
    some ⟨[4], [], 4, -6⟩, 8⟩

lemma jumpWitness_reachable : Reachable jumpWitness := by
  have hnew : NewValidatorSet jumpGenesis =
      .ok ⟨[⟨[4], [], 4, -6⟩, ⟨[0], [], 3, 3⟩, ⟨[1], [], 3, 3⟩], some ⟨[4], [], 4, -6⟩, 10⟩ := by
    decide
  have hupd : ValidatorSet.UpdateWithChangeSet
      ⟨[⟨[4], [], 4, -6⟩, ⟨[0], [], 3, 3⟩, ⟨[1], [], 3, 3⟩], some ⟨[4], [], 4, -6⟩, 10⟩
      jumpChanges = .ok jumpWitness := by
    decide
  exact .update (.new (by decide) hnew) hupd

/-- **`IncrementProposerPriority(k)` is not `k` calls of `IncrementProposerPriority(1)`.**  On
the reachable `jumpWitness`, one call with `times = 2` leaves the priorities `4, 4, -6`; two
calls with `times = 1` leave `3, -1, -2`: the first round raises the spread to `17 > 16`, which
the second single call rescales away and the two-round call does not. -/
theorem incrementProposerPriority_jump_ne_steps :
    Reachable jumpWitness ∧
    (jumpWitness.IncrementProposerPriority 2 >>= fun s => pure (s.validators.map (·.proposerPriority)))
      = .ok [4, 4, -6] ∧
    (jumpWitness.IncrementProposerPriority 1 >>= fun s => s.IncrementProposerPriority 1 >>=
      fun s => pure (s.validators.map (·.proposerPriority))) = .ok [3, -1, -2] :=
  ⟨jumpWitness_reachable, by decide, by decide⟩

end ValidatorSet

end Tendermint
