import Tendermint.Types.VoteSet
import Tendermint.Lib.GoMap

/-!
# The vote sets of one height (`consensus/types/height_vote_set.go`)

`HeightVoteSet` keeps a prevote and a precommit `VoteSet` per round, in `roundVoteSets`.  The
rounds from 0 to `round` are meant to be there, made by `Reset` and `SetRound`; beyond them,
`AddVote` makes the vote sets of a round a peer sends votes for, at most two such catch-up
rounds per peer, recorded in `peerCatchupRounds`.  `POLInfo` looks for the last round up to
`round` whose prevotes have a `+2/3` majority.

`SetRound` starts its loop one round below the current one, at `SafeSubInt32(hvs.round, 1)`,
so that it fills the rounds between the old round and the new one.  From round 0 that start is
`-1`:

* `addRounds_mem` — the loop of `SetRound` adds exactly the rounds of its range that are not
  there yet;
* **`SetRound_adds_round_minus_one`** — after `NewHeightVoteSet`, `SetRound(r)` for any `r ≥ 0`
  (the consensus state calls it with `round + 1` on entering a round) leaves a vote set for round
  `-1`, and `r + 2` rounds with no catch-up round of any peer.

Go's `r++` on an `int32` would wrap at `MaxInt32`, where the source's loop does not end; the
model's loop runs over the rounds from `newRound` to `round`.
-/

namespace Tendermint

namespace Consensus

open GoMap ExceptRun

/-- `tmmath.ErrOverflowInt32`. -/
def ErrOverflowInt32 : String := "int32 overflow"

/-- `math.MinInt32`. -/
def MinInt32 : Int := -2 ^ 31

/-- `tmmath.SafeSubInt32`. -/
def SafeSubInt32 (a b : Int) : Go Int :=
  if b > 0 ∧ a < MinInt32 + b then throw (.panic ErrOverflowInt32)
  else if b < 0 ∧ a > MaxInt32 + b then throw (.panic ErrOverflowInt32)
  else pure (a - b)

/-- `ErrGotVoteFromUnwantedRound`. -/
def ErrGotVoteFromUnwantedRound : String :=
  "peer has sent a vote that does not match our round for more than one round"

/-- The errors of `AddVote`: its own, or one of the vote set's. -/
inductive AddVoteErr where
  | unwantedRound
  | voteSet (err : AddVoteError)

/-- `RoundVoteSet`. -/
structure RoundVoteSet where
  Prevotes : VoteSet
  Precommits : VoteSet

/-- `HeightVoteSet`. -/
structure HeightVoteSet where
  chainID : String
  height : Int
  valSet : ValidatorSet
  round : Int
  roundVoteSets : Map Int RoundVoteSet
  peerCatchupRounds : Map P2PID (List Int)

namespace HeightVoteSet

/-- `addRound`: the two vote sets of a round that has none yet. -/
def addRound (hvs : HeightVoteSet) (round : Int) : Go HeightVoteSet := do
  if round ∈ hvs.roundVoteSets then throw (.panic "addRound() for an existing round")
  let prevotes ← NewVoteSet hvs.chainID hvs.height round .PrevoteType hvs.valSet
  let precommits ← NewVoteSet hvs.chainID hvs.height round .PrecommitType hvs.valSet
  pure { hvs with roundVoteSets := hvs.roundVoteSets.insert round ⟨prevotes, precommits⟩ }

/-- `Reset`: round 0 only. -/
def Reset (hvs : HeightVoteSet) (height : Int) (valSet : ValidatorSet) : Go HeightVoteSet := do
  let hvs := { hvs with height := height, valSet := valSet, roundVoteSets := ∅,
                        peerCatchupRounds := ∅ }
  let hvs ← hvs.addRound 0
  pure { hvs with round := 0 }

/-- The loop of `SetRound` over `n` rounds from `r` on; a catch-up round already has its vote
sets and is skipped. -/
def addRounds : HeightVoteSet → Int → Nat → Go HeightVoteSet
  | hvs, _, 0 => pure hvs
  | hvs, r, n + 1 => do
    let hvs ← if r ∈ hvs.roundVoteSets then pure hvs else hvs.addRound r
    addRounds hvs (r + 1) n

/-- `SetRound`: the rounds from one below the current round up to `round`. -/
def SetRound (hvs : HeightVoteSet) (round : Int) : Go HeightVoteSet := do
  let newRound ← SafeSubInt32 hvs.round 1
  if hvs.round ≠ 0 ∧ round < newRound then throw (.panic "SetRound() must increment hvs.round")
  let hvs ← hvs.addRounds newRound (round + 1 - newRound).toNat
  pure { hvs with round := round }

/-- `getVoteSet`; `none` is Go's `nil`. -/
def getVoteSet (hvs : HeightVoteSet) (round : Int) (voteType : SignedMsgType) :
    Go (Option VoteSet) :=
  match hvs.roundVoteSets.lookup round with
  | none => pure none
  | some rvs =>
    match voteType with
    | .PrevoteType => pure (some rvs.Prevotes)
    | .PrecommitType => pure (some rvs.Precommits)
    | _ => throw (.panic "Unexpected vote type %X")

/-- The vote set of a round and type written back, as Go's pointer would have it. -/
def setVoteSet (hvs : HeightVoteSet) (round : Int) (voteType : SignedMsgType)
    (voteSet : VoteSet) : HeightVoteSet :=
  match hvs.roundVoteSets.lookup round with
  | none => hvs
  | some rvs =>
    let rvs := if voteType = .PrevoteType then { rvs with Prevotes := voteSet }
      else { rvs with Precommits := voteSet }
    { hvs with roundVoteSets := hvs.roundVoteSets.insert round rvs }

/-- `AddVote`: a round no vote set has is a peer's catch-up round, two at most. -/
def AddVote (crypto : Crypto) (hvs : HeightVoteSet) (vote : Vote) (peerID : P2PID) :
    Go (Bool × Option AddVoteErr × HeightVoteSet) := do
  if !IsVoteTypeValid vote.type then return (false, none, hvs)
  let (voteSet, hvs) ← match ← hvs.getVoteSet vote.round vote.type with
    | some voteSet => pure (some voteSet, hvs)
    | none =>
      let rndz := (hvs.peerCatchupRounds.lookup peerID).getD []
      if rndz.length < 2 then do
        let hvs ← hvs.addRound vote.round
        let voteSet ← hvs.getVoteSet vote.round vote.type
        pure (voteSet, { hvs with
          peerCatchupRounds := hvs.peerCatchupRounds.insert peerID (rndz ++ [vote.round]) })
      else pure (none, hvs)
  match voteSet with
  | none => pure (false, some .unwantedRound, hvs)
  | some voteSet => do
    let (added, err, voteSet) ← voteSet.addVote crypto (some vote)
    pure (added, err.map .voteSet, hvs.setVoteSet vote.round vote.type voteSet)

/-- The loop of `POLInfo`, from round `r` down over `n + 1` rounds. -/
def polLoop (hvs : HeightVoteSet) : Int → Nat → Go (Int × Option BlockID)
  | r, n => do
    let rvs ← hvs.getVoteSet r .PrevoteType
    match rvs.bind VoteSet.TwoThirdsMajority with
    | some polBlockID => pure (r, some polBlockID)
    | none =>
      match n with
      | 0 => pure (-1, none)
      | n + 1 => polLoop hvs (r - 1) n

/-- `POLInfo`: the last round up to `round` with a `+2/3` prevote majority, or `-1`. -/
def POLInfo (hvs : HeightVoteSet) : Go (Int × Option BlockID) :=
  if hvs.round < 0 then pure (-1, none) else hvs.polLoop hvs.round hvs.round.toNat

end HeightVoteSet

/-- `NewHeightVoteSet`. -/
def NewHeightVoteSet (chainID : String) (height : Int) (valSet : ValidatorSet) :
    Go HeightVoteSet :=
  HeightVoteSet.Reset ⟨chainID, 0, valSet, 0, ∅, ∅⟩ height valSet

namespace HeightVoteSet

/-! ## The rounds `SetRound` adds -/

lemma addRound_eq {hvs : HeightVoteSet} {round : Int} (hh : hvs.height ≠ 0)
    (hr : round ∉ hvs.roundVoteSets) :
    ∃ rvs, hvs.addRound round =
      .ok { hvs with roundVoteSets := hvs.roundVoteSets.insert round rvs } := by
  simp only [addRound, hr, if_false, NewVoteSet, hh, pure, Except.pure]
  exact ⟨_, rfl⟩

/-- One round of the loop: the round is there afterwards, and nothing else changes. -/
lemma addRound_mem {hvs : HeightVoteSet} (hh : hvs.height ≠ 0) (r : Int) :
    ∃ hvs', (if r ∈ hvs.roundVoteSets then pure hvs else hvs.addRound r) = .ok hvs' ∧
      hvs'.height = hvs.height ∧ hvs'.round = hvs.round ∧
      hvs'.peerCatchupRounds = hvs.peerCatchupRounds ∧
      ∀ k, k ∈ hvs'.roundVoteSets ↔ k ∈ hvs.roundVoteSets ∨ k = r := by
  by_cases hr : r ∈ hvs.roundVoteSets
  · refine ⟨hvs, if_pos hr, rfl, rfl, rfl, fun k => ?_⟩
    constructor
    · exact Or.inl
    · rintro (hk | rfl)
      · exact hk
      · exact hr
  · obtain ⟨rvs, heq⟩ := addRound_eq hh hr
    refine ⟨_, (if_neg hr).trans heq, rfl, rfl, rfl, fun k => ?_⟩
    simp only [AList.mem_insert]
    exact Or.comm

/-- The loop of `SetRound` succeeds at a height other than 0, and adds the rounds of its range
to those there. -/
lemma addRounds_mem : ∀ (n : Nat) {hvs : HeightVoteSet} (r : Int), hvs.height ≠ 0 →
    ∃ hvs', hvs.addRounds r n = .ok hvs' ∧ hvs'.round = hvs.round ∧
      hvs'.peerCatchupRounds = hvs.peerCatchupRounds ∧
      ∀ k, k ∈ hvs'.roundVoteSets ↔ k ∈ hvs.roundVoteSets ∨ (r ≤ k ∧ k < r + n)
  | 0, hvs, r, _ => ⟨hvs, rfl, rfl, rfl, fun k => by simp⟩
  | n + 1, hvs, r, hh => by
    obtain ⟨hvs₁, h₁, hh₁, hround₁, hpeers₁, hmem₁⟩ := addRound_mem hh r
    obtain ⟨hvs', h', hround', hpeers', hmem'⟩ := addRounds_mem n (r + 1) (hh₁ ▸ hh)
    refine ⟨hvs', ?_, hround'.trans hround₁, hpeers'.trans hpeers₁, fun k => ?_⟩
    · rw [addRounds]
      by_cases hr : r ∈ hvs.roundVoteSets
      · rw [if_pos hr] at h₁ ⊢
        rw [h₁, ok_bind]
        exact h'
      · rw [if_neg hr] at h₁ ⊢
        rw [h₁, ok_bind]
        exact h'
    · rw [hmem', hmem₁]
      by_cases hk : k ∈ hvs.roundVoteSets
      · simp only [hk, true_or]
      · simp only [hk, false_or]
        omega

/-- From round 0 the loop of `SetRound` starts at `-1`. -/
lemma SafeSubInt32_zero_one : SafeSubInt32 0 1 = .ok (-1) := rfl

/-- After `NewHeightVoteSet`, `SetRound(r)` for any `r ≥ 0` makes the vote sets of round `-1`
too: `r + 2` rounds, and no peer's catch-up round among them. -/
theorem SetRound_adds_round_minus_one (chainID : String) (height : Int) (valSet : ValidatorSet)
    (r : Int) (hh : height ≠ 0) (hr : 0 ≤ r) :
    ∃ hvs, (NewHeightVoteSet chainID height valSet >>= fun hvs => hvs.SetRound r) = .ok hvs ∧
      hvs.round = r ∧ (-1 : Int) ∈ hvs.roundVoteSets ∧ hvs.peerCatchupRounds.entries = [] ∧
      hvs.roundVoteSets.entries.length = r.toNat + 2 := by
  -- `Reset` leaves round 0 only
  obtain ⟨rvs, hreset⟩ := addRound_eq
    (show (⟨chainID, height, valSet, 0, ∅, ∅⟩ : HeightVoteSet).height ≠ 0 from hh)
    (AList.notMem_empty 0)
  set hvs₀ : HeightVoteSet := ⟨chainID, height, valSet, 0, (∅ : Map Int RoundVoteSet).insert 0 rvs, ∅⟩
  have hnew : NewHeightVoteSet chainID height valSet = .ok hvs₀ := by
    simp only [NewHeightVoteSet, Reset]
    rw [hreset]
    rfl
  -- the loop runs from `-1` to `r`
  obtain ⟨hvs₁, hloop, -, hpeers, hmem⟩ :=
    addRounds_mem (r + 1 - -1).toNat (-1) (show hvs₀.height ≠ 0 from hh)
  have hset : hvs₀.SetRound r = .ok { hvs₁ with round := r } := by
    have hround : hvs₀.round = 0 := rfl
    simp only [SetRound, hround, SafeSubInt32_zero_one, ok_bind, ne_eq, not_true_eq_false,
      false_and, if_false, hloop]
    rfl
  have hkeys : ∀ k, k ∈ hvs₁.roundVoteSets ↔ k ∈ Finset.Ico (-1 : Int) (r + 1) := by
    intro k
    rw [hmem, Finset.mem_Ico]
    simp only [hvs₀, AList.mem_insert, AList.notMem_empty, or_false]
    omega
  refine ⟨{ hvs₁ with round := r }, by rw [hnew, ok_bind, hset], rfl, (hkeys (-1)).mpr ?_,
    by rw [hpeers]; rfl, ?_⟩
  · rw [Finset.mem_Ico]
    omega
  · rw [length_eq_card _ hkeys, Int.card_Ico]
    omega

/-- `enterNewRound` at round 0 calls `SetRound(1)`: rounds `-1`, `0` and `1`. -/
theorem SetRound_adds_round_minus_one_enterNewRound :
    ∃ hvs, (NewHeightVoteSet "test-chain" 1 ⟨[], none, 0⟩ >>= fun hvs => hvs.SetRound 1) =
        .ok hvs ∧
      hvs.round = 1 ∧ (-1 : Int) ∈ hvs.roundVoteSets ∧ hvs.peerCatchupRounds.entries = [] ∧
      hvs.roundVoteSets.entries.length = (1 : Int).toNat + 2 :=
  SetRound_adds_round_minus_one "test-chain" 1 ⟨[], none, 0⟩ 1 (by decide) (by decide)

end HeightVoteSet

end Consensus

end Tendermint
