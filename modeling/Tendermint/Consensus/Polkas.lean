import Tendermint.Consensus.HeightVoteSet
import Tendermint.Types.VoteSetInvariant
import Tendermint.Lib.Run

/-!
# The `+2/3` majorities a height keeps

A vote set records the first block whose votes reach `+2/3` of the voting power in `maj23`,
and nothing it does afterwards overwrites that record: `recordVote` and `trackBlock` leave it
alone, and `addToBlock` sets it only while it is unset (`addVote_maj23`); a set that has a
`+2/3` majority keeps one (`HasTwoThirdsMajority_addVote`).

The consensus state reads the prevote majority of a round of its height as that round's polka
(`prevotePolka`).  The operations on the vote sets of a height only add polkas
(`Record.Extends`):

* `SetRound` adds the vote sets of new rounds, which are empty, and leaves the others alone, so
  the polkas stay as they are (`SetRound_prevotePolka`);
* `AddVote` may add a peer's catch-up round, and adds the vote to one vote set, which keeps its
  majority (`AddVote_prevotePolka`).
-/

namespace Tendermint

namespace VoteSet

open ExceptRun

variable {vs vs' : VoteSet} {vote : Vote} {blockKey : Bytes} {votingPower : Int} {b : BlockID}

lemma NewVoteSet_maj23 {chainID : String} {height round : Int} {type : SignedMsgType}
    {valSet : ValidatorSet} (h : NewVoteSet chainID height round type valSet = .ok vs) :
    vs.maj23 = none := by
  unfold NewVoteSet at h
  split at h
  · cases h
  · cases h
    rfl

lemma recordVote_maj23 {conflicting : Option Vote}
    (h : vs.recordVote vote blockKey votingPower = .ok (conflicting, vs')) :
    vs'.maj23 = vs.maj23 := by
  unfold recordVote at h
  obtain ⟨existing, -, h⟩ := bind_eq_ok h
  -- a first vote is stored, a conflicting one may replace the stored one: `maj23` is not read
  split at h
  · split_ifs at h <;> cases h <;> rfl
  · cases h
    rfl

lemma trackBlock_maj23 {conflicting : Option Vote} {bv : BlockVotes}
    (h : vs.trackBlock blockKey conflicting = some (bv, vs')) : vs'.maj23 = vs.maj23 := by
  unfold trackBlock at h
  split at h
  · split at h
    · cases h
    · cases h
      rfl
  · split at h
    · cases h
    · cases h
      rfl

/-- `addToBlock` records a majority only while none is recorded. -/
lemma addToBlock_maj23 {bv : BlockVotes}
    (h : vs.addToBlock vote blockKey votingPower bv = .ok vs') (hb : vs.maj23 = some b) :
    vs'.maj23 = some b := by
  unfold addToBlock at h
  obtain ⟨⟨total, valSet⟩, -, h⟩ := bind_eq_ok h
  obtain ⟨bv', -, h⟩ := bind_eq_ok h
  dsimp only at h
  split at h
  · rename_i hcross
    rw [hb] at hcross
    exact absurd hcross.2.2 (by simp)
  · cases h
    exact hb

lemma addVerifiedVote_maj23 {added : Bool} {conflicting : Option Vote}
    (h : vs.addVerifiedVote vote blockKey votingPower = .ok (added, conflicting, vs'))
    (hb : vs.maj23 = some b) : vs'.maj23 = some b := by
  unfold addVerifiedVote at h
  obtain ⟨⟨c, vs₁⟩, h₁, h⟩ := bind_eq_ok h
  have hb₁ : vs₁.maj23 = some b := (recordVote_maj23 h₁).trans hb
  dsimp only at h
  split at h
  · cases h
    exact hb₁
  · rename_i bv vs₂ h₂
    obtain ⟨vs₃, h₃, h⟩ := bind_eq_ok h
    cases h
    exact addToBlock_maj23 h₃ ((trackBlock_maj23 h₂).trans hb₁)

/-- A majority once recorded is kept by every vote added, whatever the vote. -/
lemma addVote_maj23 {crypto : Crypto} {vote : Option Vote} {added : Bool}
    {err : Option AddVoteError} (h : vs.addVote crypto vote = .ok (added, err, vs'))
    (hb : vs.maj23 = some b) : vs'.maj23 = some b := by
  rcases addVote_cases h with rfl | ⟨v, val, -, -, -, -, -, -, -, -, -, -, a, c, hv⟩
  · exact hb
  · exact addVerifiedVote_maj23 hv hb

lemma HasTwoThirdsMajority_addVote {crypto : Crypto} {vote : Option Vote} {added : Bool}
    {err : Option AddVoteError} (h : vs.addVote crypto vote = .ok (added, err, vs'))
    (hm : vs.HasTwoThirdsMajority) : vs'.HasTwoThirdsMajority := by
  obtain ⟨b, hb⟩ := Option.isSome_iff_exists.mp hm
  simp [HasTwoThirdsMajority, addVote_maj23 h hb]

end VoteSet

namespace Consensus

namespace HeightVoteSet

open ExceptRun GoMap

variable {hvs hvs' : HeightVoteSet}

/-- The polka of a round: the `+2/3` majority of its prevotes, if the height has its vote
sets. -/
def prevotePolka (hvs : HeightVoteSet) (round : Int) : Option BlockID :=
  (hvs.roundVoteSets.lookup round).bind fun rvs => rvs.Prevotes.TwoThirdsMajority

/-- The polka of a round is the majority of the prevote set `getVoteSet` returns for it. -/
lemma prevotePolka_eq_some_iff {round : Int} {b : BlockID} :
    hvs.prevotePolka round = some b ↔ ∃ prevotes, hvs.getVoteSet round .PrevoteType =
      .ok (some prevotes) ∧ prevotes.TwoThirdsMajority = some b := by
  unfold prevotePolka getVoteSet
  cases hvs.roundVoteSets.lookup round with
  | none => simp [pure, Except.pure]
  | some rvs => simp [pure, Except.pure]

/-- `addRound` adds the empty vote sets of a new round: no polka. -/
lemma addRound_prevotePolka {round : Int} (h : hvs.addRound round = .ok hvs') :
    hvs'.prevotePolka = hvs.prevotePolka := by
  unfold addRound at h
  dsimp only at h
  split at h
  · cases h
  rename_i hr
  obtain ⟨prevotes, hp, h⟩ := bind_eq_ok h
  obtain ⟨precommits, -, h⟩ := bind_eq_ok h
  cases h
  funext k
  simp only [prevotePolka, lookup_insert_ite]
  split_ifs with hk
  · subst hk
    rw [AList.lookup_eq_none.mpr hr]
    simp [VoteSet.TwoThirdsMajority, VoteSet.NewVoteSet_maj23 hp]
  · rfl

/-- The loop of `SetRound` adds rounds only: the polkas stay as they are. -/
lemma addRounds_prevotePolka : ∀ (n : Nat) {hvs hvs' : HeightVoteSet} (r : Int),
    hvs.addRounds r n = .ok hvs' → hvs'.prevotePolka = hvs.prevotePolka
  | 0, _, _, _, h => by
    cases h
    rfl
  | n + 1, hvs, hvs', r, h => by
    rw [addRounds] at h
    -- a round already there is skipped, a new one is added
    split at h
    · obtain ⟨hvs₁, h₁, h⟩ := bind_eq_ok h
      cases h₁
      exact addRounds_prevotePolka n (r + 1) h
    · obtain ⟨hvs₁, h₁, h⟩ := bind_eq_ok h
      rw [addRounds_prevotePolka n (r + 1) h, addRound_prevotePolka h₁]

/-- `SetRound` leaves the polkas of the height as they are. -/
lemma SetRound_prevotePolka {round : Int} (h : hvs.SetRound round = .ok hvs') :
    hvs'.prevotePolka = hvs.prevotePolka := by
  unfold SetRound at h
  obtain ⟨newRound, -, h⟩ := bind_eq_ok h
  dsimp only at h
  split at h
  · cases h
  obtain ⟨hvs₁, h₁, h⟩ := bind_eq_ok h
  cases h
  have e₁ := addRounds_prevotePolka _ newRound h₁
  exact e₁

/-- Writing back a vote set that keeps the majority of the one read keeps every polka. -/
lemma setVoteSet_prevotePolka {round : Int} {type : SignedMsgType} {vs vs' : VoteSet}
    (hget : hvs.getVoteSet round type = .ok (some vs))
    (hkeep : ∀ b, vs.maj23 = some b → vs'.maj23 = some b) :
    Record.Extends hvs.prevotePolka (hvs.setVoteSet round type vs').prevotePolka := by
  unfold getVoteSet at hget
  unfold setVoteSet
  split at hget
  · cases hget
  rename_i rvs hrvs
  intro k b hk
  simp only [prevotePolka, lookup_insert_ite] at hk ⊢
  split_ifs at hk ⊢ with hkr htype
  · -- the prevote set of the round is the one written back
    subst hkr htype
    rw [hrvs] at hk
    cases hget
    exact hkeep b hk
  · subst hkr
    rw [hrvs] at hk
    exact hk
  · exact hk

/-- The end of `AddVote`: the vote is added to the vote set found in a height with the polkas
of `hvs`, and the set is written back. -/
lemma prevotePolka_addVote_setVoteSet {hvs₁ : HeightVoteSet} {crypto : Crypto} {vote : Vote}
    {vs vs' : VoteSet} {added : Bool} {err : Option AddVoteError}
    (he : hvs₁.prevotePolka = hvs.prevotePolka)
    (hget : hvs₁.getVoteSet vote.round vote.type = .ok (some vs))
    (hadd : vs.addVote crypto (some vote) = .ok (added, err, vs')) :
    Record.Extends hvs.prevotePolka (hvs₁.setVoteSet vote.round vote.type vs').prevotePolka :=
  he ▸ setVoteSet_prevotePolka hget fun _ hb => VoteSet.addVote_maj23 hadd hb

/-- `AddVote` keeps every polka of the height: a catch-up round comes with empty vote sets, and
the vote set the vote is added to keeps its majority. -/
lemma AddVote_prevotePolka {crypto : Crypto} {vote : Vote} {peerID : P2PID} {added : Bool}
    {err : Option AddVoteErr} (h : hvs.AddVote crypto vote peerID = .ok (added, err, hvs')) :
    Record.Extends hvs.prevotePolka hvs'.prevotePolka := by
  unfold AddVote at h
  split at h
  · cases h
    rfl
  obtain ⟨current, hcur, h⟩ := bind_eq_ok h
  dsimp only at h
  split at h
  · -- the round has its vote sets
    rename_i vs
    obtain ⟨_, hsel, h⟩ := bind_eq_ok h
    cases hsel
    obtain ⟨⟨a, e, vs'⟩, hadd, h⟩ := bind_eq_ok h
    cases h
    exact prevotePolka_addVote_setVoteSet rfl hcur hadd
  · split at h
    · -- a peer's catch-up round, with new vote sets
      obtain ⟨hvs₂, h₂, h⟩ := bind_eq_ok h
      have e₂ := addRound_prevotePolka h₂
      obtain ⟨voteSet, hget, h⟩ := bind_eq_ok h
      obtain ⟨_, hsel, h⟩ := bind_eq_ok h
      cases hsel
      cases voteSet with
      | none =>
        cases h
        exact Record.Extends.of_eq e₂
      | some vs =>
        obtain ⟨⟨a, e, vs'⟩, hadd, h⟩ := bind_eq_ok h
        cases h
        exact prevotePolka_addVote_setVoteSet e₂ hget hadd
    · -- a peer with two catch-up rounds already: the vote is not added
      obtain ⟨_, hsel, h⟩ := bind_eq_ok h
      cases hsel
      cases h
      rfl

end HeightVoteSet

end Consensus

end Tendermint
