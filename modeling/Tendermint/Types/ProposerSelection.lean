import Tendermint.Types.ProposerPriority

/-!
# Who proposes (`GetProposer` over successive rounds)

A chain asks its validator set for the proposer of a round with `GetProposer` and moves to the
next round with `IncrementProposerPriority(1)`.  `proposerSequence k vals` is that loop run `k`
times, as `TestProposerSelection2` runs it, and `proposerCount` counts how often an address was
returned.

The weighted round-robin is meant to be exact: over `P` rounds, `P` the total power, each
validator proposes as often as its power.  It is exact only while no call rescales: every call
of `IncrementProposerPriority(1)` first divides the priorities when their spread exceeds
`2 · P`, and from the all-zero priorities `NewValidatorSet` starts at, the spread can pass
`2 · P` within the first `P` rounds.  `fairGenesis` is such a set; one of its power-one
validators proposes twice in its first `P = 168` rounds (`proposerSequence_fairGenesis`).
-/

namespace Tendermint

namespace ValidatorSet

/-- The proposers `GetProposer` returns before each of `k` calls of
`IncrementProposerPriority(1)`; the loop stops at the first error. -/
def proposerSequence : Nat → ValidatorSet → Go (List (Option Validator))
  | 0, _ => pure []
  | k + 1, vals => do
    let (proposer, vals) ← vals.GetProposer
    let vals ← vals.IncrementProposerPriority 1
    let proposers ← proposerSequence k vals
    pure (proposer :: proposers)

/-- How often the validator at `address` was the proposer. -/
def proposerCount (proposers : List (Option Validator)) (address : Address) : Nat :=
  proposers.countP fun proposer => proposer.any (·.address == address)

/-- A remembered proposer is returned as it is. -/
lemma GetProposer_of_proposer {vals : ValidatorSet} {proposer : Validator}
    (hne : vals.validators ≠ []) (h : vals.proposer = some proposer) :
    vals.GetProposer = .ok (some proposer, vals) := by
  simp [GetProposer, List.isEmpty_iff, hne, h, pure, Except.pure]

/-- A run of at least one round ends with a proposer. -/
lemma incrementTimes_proposer : ∀ {n : Nat} {vals vals' : ValidatorSet} {p p' : Option Validator},
    incrementTimes (n + 1) vals p = .ok (p', vals') → ∃ proposer, p' = some proposer
  | 0, vals, vals', p, p', h => by
    obtain ⟨⟨proposer, valsI⟩, -, h⟩ := ExceptRun.bind_eq_ok h
    cases h
    exact ⟨proposer, rfl⟩
  | n + 1, vals, vals', p, p', h => by
    obtain ⟨⟨proposer, valsI⟩, -, h⟩ := ExceptRun.bind_eq_ok h
    exact incrementTimes_proposer h

/-- `IncrementProposerPriority` remembers the proposer of its last round. -/
lemma IncrementProposerPriority_proposer {vals vals' : ValidatorSet} {times : Int}
    (htimes : 1 ≤ times) (h : vals.IncrementProposerPriority times = .ok vals') :
    ∃ proposer, vals'.proposer = some proposer := by
  obtain ⟨-, -, -, valsS, p, valsI, -, -, -, hinc, rfl⟩ := IncrementProposerPriority_ok h
  obtain ⟨n, hn⟩ : ∃ n, times.toNat = n + 1 := ⟨times.toNat - 1, by omega⟩
  rw [hn] at hinc
  exact incrementTimes_proposer hinc

/-- `IncrementProposerPriority` succeeds only for a positive number of rounds. -/
lemma one_le_of_IncrementProposerPriority {vals vals' : ValidatorSet} {times : Int}
    (h : vals.IncrementProposerPriority times = .ok vals') : 1 ≤ times := by
  unfold IncrementProposerPriority at h
  split_ifs at h with hnil htimes
  omega

/-- On every reachable validator set, `IncrementProposerPriority` leaves a proposer, which
`GetProposer` then returns, leaving the set as it is. -/
theorem IncrementProposerPriority_GetProposer {vals vals' : ValidatorSet} {times : Int}
    (hreach : Reachable vals) (h : vals.IncrementProposerPriority times = .ok vals') :
    ∃ proposer, vals'.proposer = some proposer ∧ vals'.GetProposer = .ok (some proposer, vals') := by
  obtain ⟨proposer, hp⟩ :=
    IncrementProposerPriority_proposer (one_le_of_IncrementProposerPriority h) h
  have hne : vals'.validators ≠ [] := (hreach.valid.IncrementProposerPriority h).nonempty
  exact ⟨proposer, hp, GetProposer_of_proposer hne hp⟩

/-- Two validators of powers `1` and `2`. -/
def twoValidators : List Validator := [testValidator 0 1, testValidator 1 2]

/-- `NewValidatorSet` has run one round, whose proposer was the validator of power `2`; after the
next round the proposer is the validator of power `1`. -/
theorem IncrementProposerPriority_GetProposer_two :
    ∃ vals vals', NewValidatorSet twoValidators = .ok vals ∧ Reachable vals ∧
      vals.IncrementProposerPriority 1 = .ok vals' ∧
      (∃ proposer, vals'.proposer = some proposer ∧
        vals'.GetProposer = .ok (some proposer, vals')) ∧
      vals'.proposer.map (·.address) = some (testValidator 0 1).address := by
  have hrun : (NewValidatorSet twoValidators >>= fun vals => vals.IncrementProposerPriority 1 >>=
      fun vals' => pure (vals'.proposer.map (·.address))) = .ok (some (testValidator 0 1).address) := by
    decide +kernel
  obtain ⟨vals, hnew, h⟩ := ExceptRun.bind_eq_ok hrun
  obtain ⟨vals', hinc, h'⟩ := ExceptRun.bind_eq_ok h
  have hreach : Reachable vals := .new (by simp [twoValidators]) hnew
  exact ⟨vals, vals', hnew, hreach, hinc, IncrementProposerPriority_GetProposer hreach hinc,
    Except.ok.inj h'⟩

/-- Twelve validators with one-byte addresses `0, …, 11` and powers `1, 1, 1`, six times `5`,
and `45, 45, 45`: the total power is `168`. -/
def fairGenesis : List Validator :=
  [testValidator 0 1, testValidator 1 1, testValidator 2 1,
    testValidator 3 5, testValidator 4 5, testValidator 5 5,
    testValidator 6 5, testValidator 7 5, testValidator 8 5,
    testValidator 9 45, testValidator 10 45, testValidator 11 45]

/-- **Over its first `P` rounds, a set of total power `P` need not give each validator its
power's share.**  `fairGenesis` has distinct addresses, positive powers and total `168`; over the
first `168` rounds after `NewValidatorSet` the validator at address `0`, of power `1`, proposes
twice and the one at address `11`, of power `45`, only `44` times.  After `65` rounds the
priorities are `69, 69, 237` for the three of power `45`, `-11` for the six of power `5` and
`-103` for the three of power `1`: their spread `340` exceeds `2 · 168`, so the next call halves
every priority before its round, and the rounds that follow no longer replay the period. -/
theorem proposerSequence_fairGenesis :
    (fairGenesis.map (·.address)).Nodup ∧ (∀ v ∈ fairGenesis, 0 < v.votingPower) ∧
      (fairGenesis.map (·.votingPower)).sum = 168 ∧ 168 ≤ MaxTotalVotingPower ∧
      (NewValidatorSet fairGenesis >>= proposerSequence 168 >>= fun proposers =>
        pure (fairGenesis.map fun v => proposerCount proposers v.address)) =
        .ok [2, 1, 1, 5, 5, 5, 5, 5, 5, 45, 45, 44] :=
  ⟨by decide, by decide, by decide, by decide, by decide +kernel⟩

end ValidatorSet

end Tendermint
