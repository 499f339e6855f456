import Tendermint.Types.Commit
import Tendermint.Types.VoteSetVotes

/-!
# From a vote set to a commit and back

`MakeCommit` turns a precommit vote set with a `+2/3` block into a commit; the commit should
pass `VerifyCommit` and `VerifyCommitLight` against the set's validators, sign the same bytes
as the votes it was made from, and turn back into a vote set with the same commit
(`CommitToVoteSet`).

That holds when the block with `+2/3` is a block (complete), and every vote the set was given
passed `ValidateBasic` (`makeCommit_roundTrip`).  Neither condition is checked by the vote set
itself: a `+2/3` for nil makes a commit that no validator set accepts, and a block ID that is
neither nil nor complete, which `AddVote` takes as it comes, makes `MakeCommit` panic
(`makeCommit_roundTrip_fails`).

The proof has three parts.  `MakeCommit_spec` says what each signature of the commit is, slot by
slot (`SigOf`); with the invariants of collected vote sets (`Collected.signed`) that gives the
vote each signature stands for and the power of the signatures for the block.  The checks of
`VerifyCommit` and `VerifyCommitLight` pass on any commit with valid signatures and enough
power (`VerifyCommit_ok`, `VerifyCommitLight_ok`).  `CommitToVoteSet` replays the commit's
votes one by one as first votes (`addCommitSigs_replay`), which rebuilds the same commit.
-/

namespace Tendermint

open ExceptRun

/-- A vote that verifies carries the address of the key and a signature of its sign bytes. -/
lemma Vote.Verify_eq_none {crypto : Crypto} {vote : Vote} {chainID : String} {pubKey : PubKey}
    (h : vote.Verify crypto chainID pubKey = .ok none) :
    crypto.pubKeyAddress pubKey = vote.validatorAddress ∧ ∃ signBytes,
      VoteSignBytes crypto chainID vote = .ok signBytes ∧
        crypto.verifySignature pubKey signBytes vote.signature = true := by
  unfold Vote.Verify at h
  split_ifs at h with ha
  · cases h
  · obtain ⟨sb, hsb, hrest⟩ := bind_eq_ok h
    split_ifs at hrest with hv
    · cases hrest
    · exact ⟨not_not.mp ha, sb, hsb, by simpa using hv⟩

namespace VoteSet

/-! ## The signatures `MakeCommit` writes -/

/-- What `MakeCommit` writes for a slot holding `o`, the `+2/3` block being `b`: an absent
signature is Go's `NewCommitSigAbsent()`, a present one carries the slot's vote and names its
block, and it is for the block exactly when the vote is for `b`. -/
structure SigOf (b : BlockID) (o : Option Vote) (cs : CommitSig) : Prop where
  absent : cs.Absent = true → cs = NewCommitSigAbsent
  present : cs.Absent = false → ∃ v, o = some v ∧ cs.validatorAddress = v.validatorAddress ∧
    cs.timestamp = v.timestamp ∧ cs.signature = v.signature ∧ cs.BlockID b = v.blockID
  forBlock : cs.ForBlock = true ↔ ∃ v, o = some v ∧ v.blockID = b

/-- One slot of `MakeCommit`, for a vote for nil or a complete block and a complete `b`. -/
lemma makeCommitSig_spec {b : BlockID} (hb : b.IsComplete = true) {o : Option Vote}
    (ho : ∀ v, o = some v → v.blockID.IsZero = true ∨ v.blockID.IsComplete = true) :
    ∃ cs, makeCommitSig b o = .ok cs ∧ SigOf b o cs := by
  cases o with
  | none =>
    refine ⟨_, rfl, fun _ => rfl, fun h => (by cases h), ?_⟩
    simp [NewCommitSigAbsent, CommitSig.ForBlock]
  | some v =>
    rcases ho v rfl with hz | hc
    · -- a vote for nil is written with the nil flag
      have hnc := BlockID.IsComplete_eq_false_of_IsZero hz
      have hne : v.blockID ≠ b := fun h => by rw [h, hb] at hnc; cases hnc
      refine ⟨⟨.BlockIDFlagNil, v.validatorAddress, v.timestamp, v.signature⟩, ?_, ?_, ?_, ?_⟩
      · simp [makeCommitSig, Vote.CommitSig, hnc, hz, CommitSig.ForBlock, pure, Except.pure]
      · intro h
        cases h
      · intro _
        exact ⟨v, rfl, rfl, rfl, rfl, (BlockID.IsZero_iff.mp hz).symm⟩
      · simp [CommitSig.ForBlock, hne]
    · by_cases hvb : v.blockID = b
      · -- a vote for `b` is written with the commit flag
        refine ⟨⟨.BlockIDFlagCommit, v.validatorAddress, v.timestamp, v.signature⟩, ?_, ?_, ?_, ?_⟩
        · simp [makeCommitSig, Vote.CommitSig, hb, hvb, CommitSig.ForBlock, pure, Except.pure]
        · intro h
          cases h
        · intro _
          exact ⟨v, rfl, rfl, rfl, rfl, hvb.symm⟩
        · simp [CommitSig.ForBlock, hvb]
      · -- a vote for another block is left out
        refine ⟨NewCommitSigAbsent, ?_, fun _ => rfl, fun h => (by cases h), ?_⟩
        · simp [makeCommitSig, Vote.CommitSig, hc, hvb, CommitSig.ForBlock, pure, Except.pure]
        · simp [NewCommitSigAbsent, CommitSig.ForBlock, hvb]

/-- The loop of `MakeCommit` over slots whose votes are for nil or a complete block. -/
lemma mapM_makeCommitSig {b : BlockID} (hb : b.IsComplete = true) :
    ∀ {votes : List (Option Vote)}, (∀ (i : Nat) (v : Vote), votes[i]? = some (some v) →
      v.blockID.IsZero = true ∨ v.blockID.IsComplete = true) →
    ∃ sigs, votes.mapM (makeCommitSig b) = .ok sigs ∧ sigs.length = votes.length ∧
      ∀ (i : Nat) (cs : CommitSig) (o : Option Vote), sigs[i]? = some cs → votes[i]? = some o →
        SigOf b o cs
  | [], _ => ⟨[], rfl, rfl, fun i cs o h => by simp at h⟩
  | o :: rest, hv => by
    obtain ⟨cs, hcs, hspec⟩ := @makeCommitSig_spec b hb o fun v ho => hv 0 v (by simp [ho])
    obtain ⟨sigs, hsigs, hlen, hall⟩ :=
      mapM_makeCommitSig hb fun i v h => hv (i + 1) v (by simpa using h)
    refine ⟨cs :: sigs, ?_, by simp [hlen], ?_⟩
    · simp [List.mapM_cons, hcs, hsigs, pure, Except.pure]
    · intro i cs' o' h1 h2
      cases i with
      | zero =>
        simp only [List.getElem?_cons_zero, Option.some.injEq] at h1 h2
        subst h1 h2
        exact hspec
      | succ i => exact hall i cs' o' (by simpa using h1) (by simpa using h2)

/-- `MakeCommit` on a precommit set with a `+2/3` block `b`, whose votes are all for nil or a
complete block. -/
lemma MakeCommit_spec {vs : VoteSet} {b : BlockID} (hpre : vs.signedMsgType = .PrecommitType)
    (hb : vs.maj23 = some b) (hc : b.IsComplete = true)
    (hv : ∀ (i : Nat) (v : Vote), vs.votes[i]? = some (some v) →
      v.blockID.IsZero = true ∨ v.blockID.IsComplete = true) :
    ∃ sigs, vs.MakeCommit = .ok (NewCommit vs.height vs.round b sigs) ∧
      sigs.length = vs.votes.length ∧
      ∀ (i : Nat) (cs : CommitSig) (o : Option Vote), sigs[i]? = some cs →
        vs.votes[i]? = some o → SigOf b o cs := by
  obtain ⟨sigs, hsigs, hlen, hall⟩ := mapM_makeCommitSig hc hv
  refine ⟨sigs, ?_, hlen, hall⟩
  unfold MakeCommit
  rw [if_neg (by simp [hpre]), hb]
  dsimp only
  rw [hsigs, ok_bind]
  rfl

end VoteSet

/-! ## Checking a commit against a validator set -/

namespace CommitSig

lemma not_Absent_of_ForBlock {cs : CommitSig} (h : cs.ForBlock = true) : cs.Absent = false := by
  obtain ⟨flag, a, t, s⟩ := cs
  cases flag <;> simp_all [ForBlock, Absent]

lemma ForBlock_eq_false_of_Absent {cs : CommitSig} (h : cs.Absent = true) :
    cs.ForBlock = false := by
  obtain ⟨flag, a, t, s⟩ := cs
  cases flag <;> simp_all [ForBlock, Absent]

end CommitSig

/-- A mask that leaves out its first entry weighs over the list from `idx` what its tail weighs
from `idx + 1`. -/
lemma weight_false_cons_drop {α : Type} (w : α → Int) (bits : List Bool) (l : List α)
    (idx : Nat) : BitMask.weight w (false :: bits) (l.drop idx) =
      BitMask.weight w bits (l.drop (idx + 1)) := by
  rw [← List.tail_drop]
  cases l.drop idx with
  | nil => simp
  | cons a rest => simp

/-- The sum of the powers from `idx` on is the power at `idx` and the sum after it. -/
lemma sum_drop_eq {l : List Validator} {idx : Nat} {val : Validator}
    (h : l[idx]? = some val) :
    ((l.drop idx).map Validator.votingPower).sum =
      val.votingPower + ((l.drop (idx + 1)).map Validator.votingPower).sum := by
  obtain ⟨hi, hv⟩ := List.getElem?_eq_some_iff.mp h
  rw [List.drop_eq_getElem_cons hi, hv, List.map_cons, List.sum_cons]

lemma sum_drop_succ_le {l : List Validator} (hw : ∀ v ∈ l, 0 ≤ v.votingPower) (idx : Nat) :
    ((l.drop (idx + 1)).map Validator.votingPower).sum ≤
      ((l.drop idx).map Validator.votingPower).sum := by
  rw [← List.tail_drop]
  have hw' : ∀ v ∈ l.drop idx, 0 ≤ v.votingPower := fun v hv => hw v (List.mem_of_mem_drop hv)
  cases hd : l.drop idx with
  | nil => simp
  | cons a rest =>
    rw [hd] at hw'
    simp only [List.tail_cons, List.map_cons, List.sum_cons]
    have := hw' a List.mem_cons_self
    omega

namespace ValidatorSet

variable {crypto : Crypto} {vals : ValidatorSet} {chainID : String} {commit : Commit}

/-- The signature `cs` at position `idx` of the commit verifies under validator `idx`. -/
def SigVerifies (crypto : Crypto) (vals : ValidatorSet) (chainID : String) (commit : Commit)
    (idx : Nat) (cs : CommitSig) : Prop :=
  ∃ val sb, vals.validators[idx]? = some val ∧ commit.VoteSignBytes crypto chainID idx = .ok sb ∧
    crypto.verifySignature val.pubKey sb cs.signature = true

/-- The loop of `VerifyCommit`, over signatures that all verify, adds to `t` the power of those
for the block. -/
lemma verifyCommitSigs_eq (hw : ∀ v ∈ vals.validators, 0 ≤ v.votingPower) :
    ∀ (sigs : List CommitSig) (idx : Nat) (t : Int),
      (∀ (k : Nat) (cs : CommitSig), sigs[k]? = some cs → cs.Absent = false →
        SigVerifies crypto vals chainID commit (idx + k) cs) →
      0 ≤ t → t + ((vals.validators.drop idx).map Validator.votingPower).sum ≤ MaxInt64 →
      verifyCommitSigs crypto vals chainID commit idx t sigs =
        .ok (t + BitMask.weight Validator.votingPower (sigs.map CommitSig.ForBlock)
          (vals.validators.drop idx))
  | [], idx, t, _, _, _ => by simp [verifyCommitSigs, pure, Except.pure]
  | cs :: rest, idx, t, hsig, ht, hmax => by
    have hrest : ∀ (k : Nat) (cs' : CommitSig), rest[k]? = some cs' → cs'.Absent = false →
        SigVerifies crypto vals chainID commit (idx + 1 + k) cs' := fun k cs' h ha => by
      rw [show idx + 1 + k = idx + (k + 1) by omega]
      exact hsig (k + 1) cs' (by simpa using h) ha
    have hle := sum_drop_succ_le hw idx
    by_cases ha : cs.Absent = true
    · -- an absent signature is skipped
      rw [verifyCommitSigs, if_pos ha, verifyCommitSigs_eq hw rest (idx + 1) t hrest ht (by omega),
        List.map_cons, CommitSig.ForBlock_eq_false_of_Absent ha, weight_false_cons_drop]
    · -- a present one is checked, and counted if it is for the block
      obtain ⟨val, sb, hval, hsb, hver⟩ := hsig 0 cs rfl (by simpa using ha)
      rw [Nat.add_zero] at hval hsb
      have hsum := sum_drop_eq hval
      have hp := hw val (List.mem_of_getElem? hval)
      have hnn : 0 ≤ ((vals.validators.drop (idx + 1)).map Validator.votingPower).sum :=
        List.sum_nonneg fun x hx => by
          obtain ⟨v, hv, rfl⟩ := List.mem_map.mp hx
          exact hw v (List.mem_of_mem_drop hv)
      have hwrap : wrap64 (t + val.votingPower) = t + val.votingPower :=
        wrap64_of_mem ⟨by unfold MinInt64; omega, by omega⟩
      obtain ⟨hi, hvi⟩ := List.getElem?_eq_some_iff.mp hval
      rw [verifyCommitSigs, if_neg ha, goIndex_of_lt (by omega) (by simpa using hi), ok_bind]
      simp only [Int.toNat_natCast]
      rw [hvi, hsb, ok_bind, hver]
      simp only [Bool.not_true, Bool.false_eq_true, if_false]
      rw [List.map_cons, List.drop_eq_getElem_cons hi, hvi, BitMask.weight_cons]
      split
      · rw [hwrap, verifyCommitSigs_eq hw rest (idx + 1) (t + val.votingPower) hrest (by omega)
          (by omega)]
        congr 1
        omega
      · rw [verifyCommitSigs_eq hw rest (idx + 1) t hrest ht (by omega)]
        congr 1
        omega

/-- The loop of `VerifyCommitLight`, over signatures for the block that all verify, returns as
soon as the tally passes `needed`, which it does when all of them together pass it. -/
lemma verifyCommitLightSigs_ok (hw : ∀ v ∈ vals.validators, 0 ≤ v.votingPower) (needed : Int) :
    ∀ (sigs : List CommitSig) (idx : Nat) (t : Int),
      (∀ (k : Nat) (cs : CommitSig), sigs[k]? = some cs → cs.ForBlock = true →
        SigVerifies crypto vals chainID commit (idx + k) cs) →
      0 ≤ t → t ≤ needed →
      needed < t + BitMask.weight Validator.votingPower (sigs.map CommitSig.ForBlock)
        (vals.validators.drop idx) →
      t + ((vals.validators.drop idx).map Validator.votingPower).sum ≤ MaxInt64 →
      verifyCommitLightSigs crypto vals chainID commit needed idx t sigs = .ok ()
  | [], idx, t, _, _, hle, hlt, _ => by
    simp only [List.map_nil, BitMask.weight_nil_left, Int.add_zero] at hlt
    omega
  | cs :: rest, idx, t, hsig, ht, hle, hlt, hmax => by
    have hrest : ∀ (k : Nat) (cs' : CommitSig), rest[k]? = some cs' → cs'.ForBlock = true →
        SigVerifies crypto vals chainID commit (idx + 1 + k) cs' := fun k cs' h hf => by
      rw [show idx + 1 + k = idx + (k + 1) by omega]
      exact hsig (k + 1) cs' (by simpa using h) hf
    have hsle := sum_drop_succ_le hw idx
    by_cases hf : cs.ForBlock = true
    · -- a signature for the block is checked and counted
      obtain ⟨val, sb, hval, hsb, hver⟩ := hsig 0 cs rfl hf
      rw [Nat.add_zero] at hval hsb
      have hsum := sum_drop_eq hval
      have hp := hw val (List.mem_of_getElem? hval)
      have hnn : 0 ≤ ((vals.validators.drop (idx + 1)).map Validator.votingPower).sum :=
        List.sum_nonneg fun x hx => by
          obtain ⟨v, hv, rfl⟩ := List.mem_map.mp hx
          exact hw v (List.mem_of_mem_drop hv)
      have hwrap : wrap64 (t + val.votingPower) = t + val.votingPower :=
        wrap64_of_mem ⟨by unfold MinInt64; omega, by omega⟩
      obtain ⟨hi, hvi⟩ := List.getElem?_eq_some_iff.mp hval
      rw [List.map_cons, hf, List.drop_eq_getElem_cons hi, hvi, BitMask.weight_cons,
        if_pos rfl] at hlt
      rw [verifyCommitLightSigs, if_neg (by simp [hf]), goIndex_of_lt (by omega) (by simpa using hi),
        ok_bind]
      simp only [Int.toNat_natCast]
      rw [hvi, hsb, ok_bind, hver]
      simp only [Bool.not_true, Bool.false_eq_true, if_false]
      rw [hwrap]
      split
      · rfl
      · exact verifyCommitLightSigs_ok hw needed rest (idx + 1) (t + val.votingPower) hrest
          (by omega) (by omega) (by omega) (by omega)
    · -- any other signature is skipped
      have hf' : cs.ForBlock = false := by simpa using hf
      rw [List.map_cons, hf', weight_false_cons_drop] at hlt
      rw [verifyCommitLightSigs, if_pos (by simp [hf'])]
      exact verifyCommitLightSigs_ok hw needed rest (idx + 1) t hrest ht hle hlt (by omega)

/-- The power needed by `VerifyCommit`: `TotalVotingPower() * 2 / 3`, with no overflow on a
valid set. -/
lemma goNeeded_eq (hv : vals.Valid) :
    (wrap64 (vals.totalVotingPower * 2)).tdiv 3 = vals.totalVotingPower * 2 / 3 := by
  have := VoteSet.goQuorum_eq hv
  omega

/-- `VerifyCommit` accepts a commit for `blockID` at `height` with one signature per validator,
every present signature valid, and more than two thirds of the power signing the block. -/
lemma VerifyCommit_ok {blockID : BlockID} {height : Int} (hv : vals.Valid)
    (hsize : commit.signatures.length = vals.Size) (hheight : commit.height = height)
    (hblock : commit.blockID = blockID)
    (hsig : ∀ (i : Nat) (cs : CommitSig), commit.signatures[i]? = some cs → cs.Absent = false →
      SigVerifies crypto vals chainID commit i cs)
    (hpower : vals.totalVotingPower * 2 / 3 < BitMask.weight Validator.votingPower
      (commit.signatures.map CommitSig.ForBlock) vals.validators) :
    vals.VerifyCommit crypto chainID blockID height commit = .ok () := by
  have htot := hv.total_eq
  have hsum : (vals.validators.map Validator.votingPower).sum = vals.totalVotingPower := by
    rw [htot]
    rfl
  have hmax : vals.totalVotingPower ≤ MaxTotalVotingPower := htot ▸ hv.sum_le
  have hmax' : MaxTotalVotingPower ≤ MaxInt64 := by
    rw [maxTotalVotingPower_eq]
    unfold MaxInt64
    omega
  have hloop := verifyCommitSigs_eq hv.power_nonneg commit.signatures 0 0
    (fun k cs h ha => by rw [Nat.zero_add]; exact hsig k cs h ha) le_rfl
    (by rw [List.drop_zero, Int.zero_add, hsum]; omega)
  rw [List.drop_zero, Int.zero_add] at hloop
  unfold VerifyCommit
  rw [if_neg (by omega), if_neg (by omega), if_neg (by simp [hblock]),
    TotalVotingPower_of_ne hv.total_pos.ne', ok_bind]
  dsimp only
  rw [goNeeded_eq hv, hloop, ok_bind, if_neg (by omega)]
  rfl

/-- `VerifyCommitLight` accepts the same commits. -/
lemma VerifyCommitLight_ok {blockID : BlockID} {height : Int} (hv : vals.Valid)
    (hsize : commit.signatures.length = vals.Size) (hheight : commit.height = height)
    (hblock : commit.blockID = blockID)
    (hsig : ∀ (i : Nat) (cs : CommitSig), commit.signatures[i]? = some cs → cs.Absent = false →
      SigVerifies crypto vals chainID commit i cs)
    (hpower : vals.totalVotingPower * 2 / 3 < BitMask.weight Validator.votingPower
      (commit.signatures.map CommitSig.ForBlock) vals.validators) :
    vals.VerifyCommitLight crypto chainID blockID height commit = .ok () := by
  have htot := hv.total_eq
  have hsum : (vals.validators.map Validator.votingPower).sum = vals.totalVotingPower := by
    rw [htot]
    rfl
  have hmax : vals.totalVotingPower ≤ MaxTotalVotingPower := htot ▸ hv.sum_le
  have hmax' : MaxTotalVotingPower ≤ MaxInt64 := by
    rw [maxTotalVotingPower_eq]
    unfold MaxInt64
    omega
  have hpos := hv.total_pos
  unfold VerifyCommitLight
  rw [if_neg (by omega), if_neg (by omega), if_neg (by simp [hblock]),
    TotalVotingPower_of_ne hv.total_pos.ne', ok_bind]
  dsimp only
  rw [goNeeded_eq hv]
  exact verifyCommitLightSigs_ok hv.power_nonneg _ commit.signatures 0 0
    (fun k cs h hf => by
      rw [Nat.zero_add]
      exact hsig k cs h (CommitSig.not_Absent_of_ForBlock hf))
    le_rfl (by omega) (by rw [List.drop_zero, Int.zero_add]; exact hpower)
    (by rw [List.drop_zero, Int.zero_add, hsum]; omega)

end ValidatorSet

/-! ## Turning a commit back into a vote set -/

/-- The vote `GetVote` rebuilds from the signature `cs` in slot `i` of `c`. -/
def Commit.rebuiltVote (c : Commit) (i : Nat) (cs : CommitSig) : Vote :=
  { type := .PrecommitType, height := c.height, round := c.round,
    blockID := cs.BlockID c.blockID, timestamp := cs.timestamp,
    validatorAddress := cs.validatorAddress, validatorIndex := i, signature := cs.signature }

/-- The votes a commit stands for, one slot per signature: the rebuilt vote of a present
signature, nothing for an absent one. -/
def Commit.rebuiltVotes (c : Commit) : List (Option Vote) :=
  c.signatures.mapIdx fun i cs => if cs.Absent then none else some (c.rebuiltVote i cs)

lemma Commit.GetVote_eq {c : Commit} {i : Nat} {cs : CommitSig} (h : c.signatures[i]? = some cs) :
    c.GetVote i = .ok (c.rebuiltVote i cs) := by
  unfold Commit.GetVote
  rw [goIndex_eq_ok.mpr ⟨Int.natCast_nonneg i, by simpa using h⟩, ok_bind]
  rfl

lemma Commit.VoteSignBytes_of_GetVote {crypto : Crypto} {chainID : String} {c : Commit} {i : Nat}
    {v : Vote} (h : c.GetVote i = .ok v) :
    c.VoteSignBytes crypto chainID i = Tendermint.VoteSignBytes crypto chainID v := by
  unfold Commit.VoteSignBytes
  rw [h, ok_bind]

/-- A vote of the commit's height and round, of validator `i`, is the vote rebuilt from a
signature that carries its fields and names its block. -/
lemma Commit.rebuiltVote_eq {c : Commit} {i : Nat} {cs : CommitSig} {v : Vote}
    (htype : v.type = .PrecommitType) (hheight : v.height = c.height) (hround : v.round = c.round)
    (hidx : v.validatorIndex = i) (haddr : cs.validatorAddress = v.validatorAddress)
    (hts : cs.timestamp = v.timestamp) (hsig : cs.signature = v.signature)
    (hblock : cs.BlockID c.blockID = v.blockID) : c.rebuiltVote i cs = v := by
  cases v
  simp_all [Commit.rebuiltVote]

lemma Commit.rebuiltVotes_getElem? (c : Commit) (i : Nat) :
    c.rebuiltVotes[i]? =
      c.signatures[i]?.map fun cs => if cs.Absent then none else some (c.rebuiltVote i cs) := by
  simp [Commit.rebuiltVotes, List.getElem?_mapIdx]

lemma Commit.rebuiltVotes_eq_some {c : Commit} {i : Nat} {v : Vote}
    (h : c.rebuiltVotes[i]? = some (some v)) :
    ∃ cs, c.signatures[i]? = some cs ∧ cs.Absent = false ∧ c.rebuiltVote i cs = v := by
  rw [Commit.rebuiltVotes_getElem?] at h
  obtain ⟨cs, hcs, hv⟩ := Option.map_eq_some_iff.mp h
  cases ha : cs.Absent
  · simp only [ha, Bool.false_eq_true, if_false, Option.some.injEq] at hv
    exact ⟨cs, hcs, ha, hv⟩
  · simp [ha] at hv

/-- The block a present signature names: the commit's block for a signature for it, nil
otherwise. -/
lemma CommitSig.BlockID_of_present {cs : CommitSig} (b : Tendermint.BlockID) (ha : cs.Absent = false) :
    (cs.ForBlock = true ∧ cs.BlockID b = b) ∨
      (cs.ForBlock = false ∧ cs.BlockID b = ⟨[], ⟨0, []⟩⟩) := by
  obtain ⟨flag, a, t, s⟩ := cs
  cases flag <;> simp_all [CommitSig.ForBlock, CommitSig.Absent, CommitSig.BlockID]

/-- `MakeCommit` writes back a present signature from the vote rebuilt from it. -/
lemma makeCommitSig_rebuiltVote {c : Commit} {i : Nat} {cs : CommitSig}
    (hc : c.blockID.IsComplete = true) (ha : cs.Absent = false) :
    VoteSet.makeCommitSig c.blockID (some (c.rebuiltVote i cs)) = .ok cs := by
  obtain ⟨flag, a, t, s⟩ := cs
  cases flag with
  | BlockIDFlagAbsent => cases ha
  | BlockIDFlagCommit =>
    simp [VoteSet.makeCommitSig, Commit.rebuiltVote, Vote.CommitSig, CommitSig.BlockID, hc,
      CommitSig.ForBlock, pure, Except.pure]
  | BlockIDFlagNil =>
    simp [VoteSet.makeCommitSig, Commit.rebuiltVote, Vote.CommitSig, CommitSig.BlockID,
      BlockID.IsComplete, BlockID.IsZero, PartSetHeader.IsZero, CommitSig.ForBlock, pure,
      Except.pure]

/-- The first `j` slots of `T`, the others empty, with slot `j` filled from `T`. -/
lemma take_append_replicate_set {α : Type} {T : List (Option α)} {j : Nat} (hj : j < T.length) :
    (T.take j ++ List.replicate (T.length - j) none).set j T[j] =
      T.take (j + 1) ++ List.replicate (T.length - (j + 1)) none := by
  have hlen : (T.take j).length = j := by simp; omega
  rw [show T.length - j = T.length - (j + 1) + 1 by omega, List.replicate_succ,
    List.set_append_right _ _ (by omega), hlen, Nat.sub_self, List.set_cons_zero,
    List.take_succ_eq_append_getElem hj, List.append_assoc, List.singleton_append]

lemma take_append_replicate_none {α : Type} {T : List (Option α)} {j : Nat} (hj : j < T.length)
    (h : T[j] = none) : T.take j ++ List.replicate (T.length - j) none =
      T.take (j + 1) ++ List.replicate (T.length - (j + 1)) none := by
  rw [show T.length - j = T.length - (j + 1) + 1 by omega, List.replicate_succ,
    List.take_succ_eq_append_getElem hj, h, List.append_assoc, List.singleton_append]

lemma take_append_replicate_getElem? {α : Type} {T : List (Option α)} {j : Nat}
    (hj : j < T.length) : (T.take j ++ List.replicate (T.length - j) none)[j]? = some none := by
  rw [List.getElem?_append_right (by simp), List.getElem?_replicate]
  simp
  omega

namespace VoteSet

/-- Where `CommitToVoteSet` stands once the signatures before `j` are replayed: a set of the
round of `ref` that holds the first `j` slots of `T` and nothing else, each vote filed under
its block, no validator twice, and a `maj23`, if any, that is the block of one of the votes. -/
structure Replayed (ref : VoteSet) (T : List (Option Vote)) (j : Nat) (w : VoteSet) : Prop where
  inv : Inv w
  sameRound : SameRound ref w
  stored : Stored (fun i v => T[i]? = some (some v)) w
  noConflict : NoConflict w
  filed : Filed w
  votes : w.votes = T.take j ++ List.replicate (T.length - j) none
  maj23 : ∀ b, w.maj23 = some b → ∃ (i : Nat) (v : Vote), T[i]? = some (some v) ∧ v.blockID = b

/-- The loop of `CommitToVoteSet` adds the votes `T` lists, one per present signature, each as
its validator's first vote, and never panics. -/
lemma addCommitSigs_replay {crypto : Crypto} {c : Commit} {ref : VoteSet}
    {T : List (Option Vote)} (hlen : T.length = c.signatures.length)
    (hT : ∀ (i : Nat) (cs : CommitSig), c.signatures[i]? = some cs →
      (cs.Absent = true ∧ T[i]? = some none) ∨
        (cs.Absent = false ∧ ∃ v, c.GetVote i = .ok v ∧ T[i]? = some (some v)))
    (hchk : ∀ (i : Nat) (v : Vote), T[i]? = some (some v) → Checked crypto ref i v) :
    ∀ (k j : Nat) (w : VoteSet), T.length - j = k → j ≤ T.length → Replayed ref T j w →
      ∃ w', addCommitSigs crypto c j (c.signatures.drop j) w = .ok w' ∧
        Replayed ref T T.length w'
  | 0, j, w, hk, hj, hw => by
    have hjl : j = T.length := by omega
    subst hjl
    rw [hlen, List.drop_length]
    exact ⟨w, rfl, hlen ▸ hw⟩
  | k + 1, j, w, hk, hj, hw => by
    have hj' : j < c.signatures.length := by omega
    have hjT : j < T.length := by omega
    rw [List.drop_eq_getElem_cons hj']
    rcases hT j _ (List.getElem?_eq_getElem hj') with ⟨ha, hnone⟩ | ⟨ha, v, hv, hsome⟩
    · -- an absent signature: the slot stays empty
      have hTj : T[j] = none := by
        rw [List.getElem?_eq_getElem hjT] at hnone
        exact Option.some.inj hnone
      rw [addCommitSigs, if_pos ha]
      exact addCommitSigs_replay hlen hT hchk k (j + 1) w (by omega) (by omega)
        { hw with votes := hw.votes.trans (take_append_replicate_none hjT hTj) }
    · -- a present one: its vote is the validator's first, and is added
      have hc := (hchk j v hsome).of_sameRound hw.sameRound
      have hidx : v.validatorIndex.toNat = j := by rw [hc.index]; rfl
      have hslot : w.votes[v.validatorIndex.toNat]? = some none := by
        rw [hidx, hw.votes]
        exact take_append_replicate_getElem? hjT
      obtain ⟨w', hadd, hfresh⟩ := addVote_fresh hw.inv hw.noConflict (hidx ▸ hc) hslot
      obtain ⟨hst, hsr⟩ := addVote_stored hw.stored (fun _ => hidx ▸ hsome) hadd
      have hTj : T[j] = some v := by
        rw [List.getElem?_eq_getElem hjT] at hsome
        exact Option.some.inj hsome
      have hw' : Replayed ref T (j + 1) w' := {
        inv := (addVote_inv hw.inv hadd).1
        sameRound := hw.sameRound.trans hsr
        stored := hst
        noConflict := hfresh.noConflict
        filed := hw.filed.of_addedFresh hfresh
        votes := by
          rw [hfresh.votes, hidx, hw.votes, ← hTj]
          exact take_append_replicate_set hjT
        maj23 := fun b hb => by
          rcases hfresh.maj23 with h | h
          · exact hw.maj23 b (h ▸ hb)
          · rw [h] at hb
            cases hb
            exact ⟨j, v, hsome, rfl⟩ }
      obtain ⟨w'', hrun, hfin⟩ :=
        addCommitSigs_replay hlen hT hchk k (j + 1) w' (by omega) (by omega) hw'
      refine ⟨w'', ?_, hfin⟩
      rw [addCommitSigs, if_neg (by simpa using ha), hv, ok_bind, hadd, ok_bind]
      exact hrun

/-- `NewVoteSet` returns for any height but `0`. -/
lemma NewVoteSet_ok {chainID : String} {height round : Int} {signedMsgType : SignedMsgType}
    {valSet : ValidatorSet} (hh : height ≠ 0) :
    ∃ vs, NewVoteSet chainID height round signedMsgType valSet = .ok vs ∧ vs.chainID = chainID ∧
      vs.height = height ∧ vs.round = round ∧ vs.signedMsgType = signedMsgType ∧
      vs.valSet = valSet := by
  unfold NewVoteSet
  rw [if_neg hh]
  exact ⟨_, rfl, rfl, rfl, rfl, rfl, rfl⟩

/-- A new vote set has replayed nothing yet. -/
lemma Replayed.new {chainID : String} {height round : Int} {signedMsgType : SignedMsgType}
    {vals : ValidatorSet} {T : List (Option Vote)} {w0 : VoteSet} (hv : vals.Valid)
    (hnew : NewVoteSet chainID height round signedMsgType vals = .ok w0)
    (hlen : T.length = vals.Size) : Replayed w0 T 0 w0 := by
  have hinv := NewVoteSet_inv hv hnew
  unfold NewVoteSet at hnew
  split at hnew
  · cases hnew
  · cases hnew
    exact {
      inv := hinv
      sameRound := SameRound.refl _
      stored := ⟨fun i v h => by simp [List.getElem?_replicate] at h, fun k bv i v hk => by cases hk⟩
      noConflict := fun k bv hk => by cases hk
      filed := fun i v h => by simp [List.getElem?_replicate] at h
      votes := by simp [hlen]
      maj23 := fun b hb => by cases hb }

section Replay

variable {ref w : VoteSet} {c : Commit}

lemma Replayed.votes_eq (hw : Replayed ref c.rebuiltVotes c.rebuiltVotes.length w) :
    w.votes = c.rebuiltVotes := by
  rw [hw.votes]
  simp

/-- Once a commit for a complete block is replayed, with more than two thirds of the power
signing the block, its block is the one with `+2/3`. -/
lemma Replayed.maj23_eq (hw : Replayed ref c.rebuiltVotes c.rebuiltVotes.length w)
    (hc : c.blockID.IsComplete = true)
    (hpower : w.valSet.totalVotingPower * 2 / 3 < BitMask.weight Validator.votingPower
      (c.signatures.map CommitSig.ForBlock) w.valSet.validators) :
    w.maj23 = some c.blockID := by
  have hvotes := hw.votes_eq
  -- every signature for the block left its vote in the block's entry
  have hfiled : ∀ (i : Nat) (cs : CommitSig), c.signatures[i]? = some cs → cs.ForBlock = true →
      ∃ bv v, w.votesByBlock c.blockID.Key = some bv ∧ bv.votes[i]? = some (some v) := by
    intro i cs hcs hf
    have ha := CommitSig.not_Absent_of_ForBlock hf
    have hT : w.votes[i]? = some (some (c.rebuiltVote i cs)) := by
      simp [hvotes, Commit.rebuiltVotes_getElem?, hcs, ha]
    obtain ⟨bv, hk, hbv⟩ := hw.filed i _ hT
    have hb : (c.rebuiltVote i cs).blockID = c.blockID := by
      rcases CommitSig.BlockID_of_present c.blockID ha with ⟨-, h⟩ | ⟨h, -⟩
      · exact h
      · rw [hf] at h
        cases h
    exact ⟨bv, _, hb ▸ hk, hbv⟩
  have hmask : ∀ i : Nat, (c.signatures.map CommitSig.ForBlock)[i]? = some true →
      ∃ cs, c.signatures[i]? = some cs ∧ cs.ForBlock = true := by
    intro i hi
    simpa [List.getElem?_map] using hi
  have hlen : c.signatures.length = w.valSet.validators.length := by
    rw [← hw.inv.length_eq, hvotes]
    simp [Commit.rebuiltVotes]
  have hpos := hw.inv.valid.total_pos
  -- the block's entry holds the power of the signatures for it, more than two thirds
  obtain ⟨bv, hk, hq⟩ : ∃ bv, w.votesByBlock c.blockID.Key = some bv ∧ w.quorum ≤ bv.sum := by
    cases hk : w.votesByBlock c.blockID.Key with
    | none =>
      have hzero := @BitMask.weight_mono _ Validator.votingPower _ hw.inv.valid.power_nonneg
        (c.signatures.map CommitSig.ForBlock) (List.replicate c.signatures.length false)
        (by simp) fun i hi => by
          obtain ⟨cs, hcs, hf⟩ := hmask i hi
          obtain ⟨bv, v, hbv, -⟩ := hfiled i cs hcs hf
          rw [hk] at hbv
          cases hbv
      rw [BitMask.weight_replicate_false] at hzero
      omega
    | some bv =>
      have hbi := hw.inv.blocks _ bv hk
      have hle := @BitMask.weight_mono _ Validator.votingPower _ hw.inv.valid.power_nonneg
        (c.signatures.map CommitSig.ForBlock) (bv.votes.map Option.isSome)
        (by simp [hbi.length_eq, hlen]) fun i hi => by
          obtain ⟨cs, hcs, hf⟩ := hmask i hi
          obtain ⟨bv', v, hbv', hv⟩ := hfiled i cs hcs hf
          rw [hk] at hbv'
          cases hbv'
          simp [hv]
      refine ⟨bv, rfl, ?_⟩
      rw [hbi.sum_eq]
      unfold quorum votedPower
      omega
  -- the `+2/3` block is the block of a replayed vote, so the commit's block or nil
  obtain ⟨b, hb⟩ := Option.isSome_iff_exists.mp (hw.inv.maj23_iff.mpr ⟨_, bv, hk, hq⟩)
  obtain ⟨bv', hk', hq', -⟩ := hw.inv.maj23_block b hb
  have hkey := hw.inv.quorum_key_unique hw.noConflict hw.stored hk hk' hq hq'
  obtain ⟨i, v, hv, rfl⟩ := hw.maj23 b hb
  obtain ⟨cs, -, ha, rfl⟩ := Commit.rebuiltVotes_eq_some hv
  have hzc : (c.rebuiltVote i cs).blockID.IsZero = true ∨
      (c.rebuiltVote i cs).blockID.IsComplete = true := by
    rcases CommitSig.BlockID_of_present c.blockID ha with ⟨-, h⟩ | ⟨-, h⟩
    · exact .inr (by simp [Commit.rebuiltVote, h, hc])
    · exact .inl (by simp [Commit.rebuiltVote, h, BlockID.IsZero, PartSetHeader.IsZero])
  rw [hb, BlockID.Key_inj (.inr hc) hzc hkey]

end Replay

/-- A commit for a complete block, whose present signatures are valid votes of their
validators with more than two thirds of the power for the block, whose absent entries are
`NewCommitSigAbsent()` and whose hash is not cached, turns into a vote set without a panic,
and that vote set makes the same commit. -/
lemma CommitToVoteSet_MakeCommit {crypto : Crypto} {chainID : String} {c : Commit}
    {vals : ValidatorSet} (hv : vals.Valid) (hh : c.height ≠ 0)
    (hc : c.blockID.IsComplete = true) (hhash : c.hash = none)
    (hsize : c.signatures.length = vals.Size)
    (habs : ∀ (i : Nat) (cs : CommitSig), c.signatures[i]? = some cs → cs.Absent = true →
      cs = NewCommitSigAbsent)
    (hsig : ∀ (i : Nat) (cs : CommitSig), c.signatures[i]? = some cs → cs.Absent = false →
      cs.validatorAddress.length ≠ 0 ∧ ∃ val, vals.validators[i]? = some val ∧
        cs.validatorAddress = val.address ∧
        (c.rebuiltVote i cs).Verify crypto chainID val.pubKey = .ok none)
    (hpower : vals.totalVotingPower * 2 / 3 < BitMask.weight Validator.votingPower
      (c.signatures.map CommitSig.ForBlock) vals.validators) :
    ∃ vs, CommitToVoteSet crypto chainID c vals = .ok vs ∧ vs.MakeCommit = .ok c := by
  obtain ⟨w0, hnew, hch, hh0, hr0, ht0, hvals0⟩ :=
    @NewVoteSet_ok chainID c.height c.round .PrecommitType vals hh
  have hlenT : c.rebuiltVotes.length = c.signatures.length := by simp [Commit.rebuiltVotes]
  have hT : ∀ (i : Nat) (cs : CommitSig), c.signatures[i]? = some cs →
      (cs.Absent = true ∧ c.rebuiltVotes[i]? = some none) ∨
        (cs.Absent = false ∧ ∃ v, c.GetVote i = .ok v ∧ c.rebuiltVotes[i]? = some (some v)) := by
    intro i cs hcs
    cases ha : cs.Absent
    · exact .inr ⟨rfl, _, Commit.GetVote_eq hcs, by simp [Commit.rebuiltVotes_getElem?, hcs, ha]⟩
    · exact .inl ⟨rfl, by simp [Commit.rebuiltVotes_getElem?, hcs, ha]⟩
  -- each rebuilt vote passes the checks of `addVote` on the new set
  have hchk : ∀ (i : Nat) (v : Vote), c.rebuiltVotes[i]? = some (some v) →
      Checked crypto w0 i v := by
    intro i v hi
    obtain ⟨cs, hcs, ha, rfl⟩ := Commit.rebuiltVotes_eq_some hi
    obtain ⟨hne, val, hval, haddr, hver⟩ := hsig i cs hcs ha
    exact ⟨rfl, hh0.symm, hr0.symm, ht0.symm, hne, val, hvals0 ▸ hval, haddr, hch ▸ hver⟩
  obtain ⟨w, hrun, hw⟩ := addCommitSigs_replay hlenT hT hchk _ 0 w0 rfl (Nat.zero_le _)
    (Replayed.new hv hnew (by rw [hlenT, hsize]))
  have hvalsw : w.valSet.validators = vals.validators := by rw [hw.sameRound.validators, hvals0]
  have htot : w.valSet.totalVotingPower = vals.totalVotingPower := by
    rw [hw.inv.valid.total_eq, hv.total_eq, hvalsw]
  have hmaj := hw.maj23_eq hc (by rw [htot, hvalsw]; exact hpower)
  -- `MakeCommit` writes back every signature of `c`
  have hsigs : w.votes.mapM (makeCommitSig c.blockID) = .ok c.signatures := by
    rw [hw.votes_eq]
    refine ExceptRun.mapM_eq_ok hlenT fun i o cs ho hcs => ?_
    rw [Commit.rebuiltVotes_getElem?, hcs, Option.map_some, Option.some.injEq] at ho
    subst ho
    cases ha : cs.Absent
    · simp only [Bool.false_eq_true, if_false]
      exact makeCommitSig_rebuiltVote hc ha
    · rw [habs i cs hcs ha]
      rfl
  refine ⟨w, ?_, ?_⟩
  · unfold CommitToVoteSet
    rw [hnew, ok_bind]
    exact hrun
  · unfold MakeCommit
    rw [if_neg (by simp [hw.sameRound.signedMsgType, ht0]), hmaj]
    dsimp only
    rw [hsigs, ok_bind, hw.sameRound.height, hw.sameRound.round, hh0, hr0]
    cases c
    cases hhash
    rfl

/-! ## A one-validator chain -/

/-- A signature scheme whose signature of a message is the message: it verifies exactly what
it signs. -/
def echoCrypto : Crypto where
  pubKeyAddress _ := List.replicate 20 1
  verifySignature _ signBytes signature := signBytes == signature
  marshalDelimited _ := [1]

/-- The validator of a one-validator chain, with an address of twenty bytes. -/
def loneValidator : Validator := ⟨List.replicate 20 1, [], 1, 0⟩

/-- The precommits of height 1 over the one-validator set, as `NewVoteSet` makes them. -/
def loneVoteSet : VoteSet where
  chainID := "chain"
  height := 1
  round := 0
  signedMsgType := .PrecommitType
  valSet := ⟨[loneValidator], some loneValidator, 1⟩
  votesBitArray := NewBitArray 1
  votes := List.replicate 1 none
  sum := 0
  maj23 := none
  votesByBlock := fun _ => none
  peerMaj23s := fun _ => none

/-- The validator's precommit for `blockID`, signed under `echoCrypto`. -/
def loneVote (blockID : BlockID) : Vote where
  type := .PrecommitType
  height := 1
  round := 0
  blockID := blockID
  timestamp := 0
  validatorAddress := List.replicate 20 1
  validatorIndex := 0
  signature := [1]

/-- The set once `AddVote` has taken that precommit. -/
def loneVoted (blockID : BlockID) : VoteSet :=
  match loneVoteSet.addVote echoCrypto (some (loneVote blockID)) with
  | .ok (_, _, vs) => vs
  | .error _ => loneVoteSet

lemma loneVoteSet_valid : ValidatorSet.Valid ⟨[loneValidator], some loneValidator, 1⟩ :=
  (@ValidatorSet.Reachable.new [loneValidator] _ (List.cons_ne_nil _ _) (by decide)).valid

lemma loneVoteSet_new :
    NewVoteSet "chain" 1 0 .PrecommitType ⟨[loneValidator], some loneValidator, 1⟩ =
      .ok loneVoteSet := rfl

/-! ## A three-validator chain -/

/-- A signature scheme whose keys are the addresses, and whose signature of a message is the
message. -/
def keyedCrypto : Crypto where
  pubKeyAddress pubKey := pubKey
  verifySignature _ signBytes signature := signBytes == signature
  marshalDelimited _ := [1]

/-- Three validators of powers 5, 1 and 1, whose keys are their twenty-byte addresses. -/
def trioValidators : List Validator :=
  [⟨List.replicate 20 1, List.replicate 20 1, 5, 0⟩,
    ⟨List.replicate 20 2, List.replicate 20 2, 1, 0⟩,
    ⟨List.replicate 20 3, List.replicate 20 3, 1, 0⟩]

/-- The set `NewValidatorSet` makes of them. -/
def trioSet : ValidatorSet :=
  ⟨[⟨List.replicate 20 1, List.replicate 20 1, 5, -2⟩,
      ⟨List.replicate 20 2, List.replicate 20 2, 1, 1⟩,
      ⟨List.replicate 20 3, List.replicate 20 3, 1, 1⟩],
    some ⟨List.replicate 20 1, List.replicate 20 1, 5, -2⟩, 7⟩

lemma trioSet_valid : trioSet.Valid :=
  (@ValidatorSet.Reachable.new trioValidators _ (List.cons_ne_nil _ _) (by decide)).valid

/-- The precommit of the validator at `index` of the set, for `blockID`. -/
def trioVote (index : Nat) (blockID : BlockID) : Vote where
  type := .PrecommitType
  height := 1
  round := 0
  blockID := blockID
  timestamp := 0
  validatorAddress := List.replicate 20 (index + 1).toUInt8
  validatorIndex := index
  signature := [1]

/-- The block the first validator precommits for. -/
def trioBlock : BlockID := ⟨List.replicate 32 1, ⟨1, List.replicate 32 2⟩⟩

/-- The precommits of height 1 over the set: the third validator's for nil, then the first's
for the block; the second validator's is absent. -/
def trioVoted : VoteSet :=
  match NewVoteSet "chain" 1 0 .PrecommitType trioSet with
  | .error _ => loneVoteSet
  | .ok vs₀ =>
    match vs₀.addVote keyedCrypto (some (trioVote 2 ⟨[], ⟨0, []⟩⟩)) with
    | .error _ => vs₀
    | .ok (_, _, vs₁) =>
      match vs₁.addVote keyedCrypto (some (trioVote 0 trioBlock)) with
      | .error _ => vs₁
      | .ok (_, _, vs₂) => vs₂

lemma trioVoted_collected :
    Collected keyedCrypto (fun v => v.ValidateBasic = .ok ()) trioVoted := by
  obtain ⟨vs₀, h₀⟩ : ∃ vs₀, NewVoteSet "chain" 1 0 .PrecommitType trioSet = .ok vs₀ := ⟨_, rfl⟩
  obtain ⟨vs₁, h₁⟩ : ∃ vs₁,
      vs₀.addVote keyedCrypto (some (trioVote 2 ⟨[], ⟨0, []⟩⟩)) = .ok (true, none, vs₁) := by
    cases h₀
    exact ⟨_, rfl⟩
  obtain ⟨vs₂, h₂⟩ : ∃ vs₂,
      vs₁.addVote keyedCrypto (some (trioVote 0 trioBlock)) = .ok (true, none, vs₂) := by
    cases h₀
    cases h₁
    exact ⟨_, rfl⟩
  have hv : trioVoted = vs₂ := by
    rw [trioVoted, h₀]
    dsimp only
    rw [h₁]
    dsimp only
    rw [h₂]
  rw [hv]
  exact .addVote _ _ _ (.addVote _ _ _ (.new trioSet_valid h₀) (by decide) h₁) (by decide) h₂

/-! ## The round trip -/

lemma exists_getElem?_of_length_eq {α β : Type} {l : List α} {l' : List β}
    (hlen : l.length = l'.length) {i : Nat} {b : β} (h : l'[i]? = some b) :
    ∃ a, l[i]? = some a := by
  have hi := (List.getElem?_eq_some_iff.mp h).1
  exact ⟨l[i], List.getElem?_eq_getElem (by omega)⟩

/-- The commit of a precommit set whose `+2/3` block is a block, built from votes that pass
`ValidateBasic`: it passes `VerifyCommit` and `VerifyCommitLight` against the set's validators,
each present signature signs the bytes of the vote of its slot, and `CommitToVoteSet` turns it
back into a vote set that makes the same commit. -/
theorem makeCommit_roundTrip {crypto : Crypto} {vs : VoteSet} {b : BlockID}
    (hcol : Collected crypto (fun v => v.ValidateBasic = .ok ()) vs)
    (hpre : vs.signedMsgType = .PrecommitType) (hmaj : vs.maj23 = some b)
    (hb : b.IsComplete = true) :
    ∃ c, vs.MakeCommit = .ok c ∧
      vs.valSet.VerifyCommit crypto vs.chainID b vs.height c = .ok () ∧
      vs.valSet.VerifyCommitLight crypto vs.chainID b vs.height c = .ok () ∧
      (∀ (i : Nat) (cs : CommitSig), c.signatures[i]? = some cs → cs.Absent = false →
        ∃ v, vs.votes[i]? = some (some v) ∧
          c.VoteSignBytes crypto vs.chainID i = VoteSignBytes crypto vs.chainID v) ∧
      ∃ vs2, CommitToVoteSet crypto vs.chainID c vs.valSet = .ok vs2 ∧ vs2.MakeCommit = .ok c := by
  have hs := hcol.signed
  have hzc : ∀ (i : Nat) (v : Vote), vs.votes[i]? = some (some v) →
      v.blockID.IsZero = true ∨ v.blockID.IsComplete = true :=
    fun i v h => Vote.blockID_of_ValidateBasic (hs.stored.votes i v h).2
  obtain ⟨sigs, hmk, hlen, hsig⟩ := MakeCommit_spec hpre hmaj hb hzc
  have hsize : sigs.length = vs.valSet.Size := by rw [hlen, hs.inv.length_eq]; rfl
  have hslot : ∀ (i : Nat) (cs : CommitSig), sigs[i]? = some cs →
      ∃ o, vs.votes[i]? = some o ∧ SigOf b o cs := by
    intro i cs hcs
    obtain ⟨o, ho⟩ := exists_getElem?_of_length_eq hlen.symm hcs
    exact ⟨o, ho, hsig i cs o hcs ho⟩
  -- each present signature rebuilds the checked vote of its slot
  have hvote : ∀ (i : Nat) (cs : CommitSig), sigs[i]? = some cs → cs.Absent = false →
      ∃ v, vs.votes[i]? = some (some v) ∧
        (NewCommit vs.height vs.round b sigs).rebuiltVote i cs = v ∧
        Checked crypto vs i v ∧ v.ValidateBasic = .ok () := by
    intro i cs hcs ha
    obtain ⟨o, ho, hso⟩ := hslot i cs hcs
    obtain ⟨v, rfl, haddr, hts, hsg, hbl⟩ := hso.present ha
    obtain ⟨hchk, hvb⟩ := hs.stored.votes i v ho
    exact ⟨v, ho, Commit.rebuiltVote_eq (hchk.type.trans hpre) hchk.height hchk.round hchk.index
      haddr hts hsg hbl, hchk, hvb⟩
  have hverifies : ∀ (i : Nat) (cs : CommitSig), sigs[i]? = some cs → cs.Absent = false →
      ValidatorSet.SigVerifies crypto vs.valSet vs.chainID (NewCommit vs.height vs.round b sigs)
        i cs := by
    intro i cs hcs ha
    obtain ⟨v, -, hrv, hchk, -⟩ := hvote i cs hcs ha
    obtain ⟨val, hval, -, hver⟩ := hchk.signed
    obtain ⟨-, sb, hsb, hok⟩ := Vote.Verify_eq_none hver
    have hget := (Commit.GetVote_eq hcs).trans (congrArg Except.ok hrv)
    refine ⟨val, sb, hval, (Commit.VoteSignBytes_of_GetVote hget).trans hsb, ?_⟩
    rw [← hrv] at hok
    exact hok
  -- the votes of the `+2/3` block are all written for the block
  have hpower : vs.valSet.totalVotingPower * 2 / 3 < BitMask.weight Validator.votingPower
      (sigs.map CommitSig.ForBlock) vs.valSet.validators := by
    obtain ⟨bv, hk, hq, hagree⟩ := hs.inv.maj23_block b hmaj
    have hbi := hs.inv.blocks _ bv hk
    have hle := @BitMask.weight_mono _ Validator.votingPower _ hs.inv.valid.power_nonneg
      (bv.votes.map Option.isSome) (sigs.map CommitSig.ForBlock)
      (by simp [hbi.length_eq, hlen, hs.inv.length_eq]) fun i hi => by
        obtain ⟨v, hv⟩ := exists_of_map_isSome hi
        obtain ⟨⟨-, hvb⟩, hkey⟩ := hs.stored.blocks _ bv i v hk hv
        have hvbk : v.blockID = b :=
          BlockID.Key_inj (Vote.blockID_of_ValidateBasic hvb) (.inr hb) hkey
        obtain ⟨cs, hcs⟩ := exists_getElem?_of_length_eq hlen (hagree i v hv)
        have hf := (hsig i cs _ hcs (hagree i v hv)).forBlock.mpr ⟨v, rfl, hvbk⟩
        simp [hcs, hf]
    rw [hbi.sum_eq] at hq
    unfold quorum votedPower at hq
    omega
  refine ⟨_, hmk, ValidatorSet.VerifyCommit_ok hs.inv.valid hsize rfl rfl hverifies hpower,
    ValidatorSet.VerifyCommitLight_ok hs.inv.valid hsize rfl rfl hverifies hpower, ?_, ?_⟩
  · intro i cs hcs ha
    obtain ⟨v, hv, hrv, -⟩ := hvote i cs hcs ha
    exact ⟨v, hv, Commit.VoteSignBytes_of_GetVote ((Commit.GetVote_eq hcs).trans (hrv ▸ rfl))⟩
  · refine CommitToVoteSet_MakeCommit hs.inv.valid hs.height_ne hb rfl hsize
      (fun i cs hcs ha => (hslot i cs hcs).elim fun _ h => h.2.absent ha) ?_ hpower
    intro i cs hcs ha
    obtain ⟨v, -, hrv, hchk, -⟩ := hvote i cs hcs ha
    obtain ⟨val, hval, haddr, hver⟩ := hchk.signed
    have hca : cs.validatorAddress = v.validatorAddress := by rw [← hrv]; rfl
    rw [hrv, hca]
    exact ⟨hchk.address_ne, val, hval, haddr, hver⟩

/-- The first validator precommits for the block, the second is absent and the third precommits
for nil: the commit holds one signature of each flag, in the order of the set, and it goes round. -/
theorem makeCommit_roundTrip_trio :
    (Collected keyedCrypto (fun v => v.ValidateBasic = .ok ()) trioVoted ∧
      trioVoted.signedMsgType = .PrecommitType ∧ trioVoted.maj23 = some trioBlock ∧
      trioBlock.IsComplete = true) ∧
    (trioVoted.MakeCommit.map fun c => c.signatures.map CommitSig.blockIDFlag) =
      .ok [.BlockIDFlagCommit, .BlockIDFlagAbsent, .BlockIDFlagNil] ∧
    ∃ c, trioVoted.MakeCommit = .ok c ∧
      trioVoted.valSet.VerifyCommit keyedCrypto trioVoted.chainID trioBlock trioVoted.height c =
        .ok () ∧
      trioVoted.valSet.VerifyCommitLight keyedCrypto trioVoted.chainID trioBlock
        trioVoted.height c = .ok () ∧
      (∀ (i : Nat) (cs : CommitSig), c.signatures[i]? = some cs → cs.Absent = false →
        ∃ v, trioVoted.votes[i]? = some (some v) ∧
          c.VoteSignBytes keyedCrypto trioVoted.chainID i =
            VoteSignBytes keyedCrypto trioVoted.chainID v) ∧
      ∃ vs2, CommitToVoteSet keyedCrypto trioVoted.chainID c trioVoted.valSet = .ok vs2 ∧
        vs2.MakeCommit = .ok c :=
  have hpre : trioVoted.signedMsgType = .PrecommitType := by decide +kernel
  have hmaj : trioVoted.maj23 = some trioBlock := by decide +kernel
  have hb : trioBlock.IsComplete = true := by decide
  ⟨⟨trioVoted_collected, hpre, hmaj, hb⟩, by decide +kernel,
    makeCommit_roundTrip trioVoted_collected hpre hmaj hb⟩

/-- Both conditions of `makeCommit_roundTrip` are needed.  With one validator and one
precommit: a `+2/3` for nil, from a vote that passes `ValidateBasic`, makes a commit that
`VerifyCommit` rejects for want of power; a `+2/3` for a block ID that passes its own
`ValidateBasic` but is neither nil nor complete makes `MakeCommit` panic. -/
theorem makeCommit_roundTrip_fails :
    (Collected echoCrypto (fun v => v.ValidateBasic = .ok ()) (loneVoted ⟨[], ⟨0, []⟩⟩) ∧
      (loneVoted ⟨[], ⟨0, []⟩⟩).signedMsgType = .PrecommitType ∧
      (loneVoted ⟨[], ⟨0, []⟩⟩).maj23 = some ⟨[], ⟨0, []⟩⟩ ∧
      (loneVoted ⟨[], ⟨0, []⟩⟩).MakeCommit =
        .ok (NewCommit 1 0 ⟨[], ⟨0, []⟩⟩ [⟨.BlockIDFlagNil, List.replicate 20 1, 0, [1]⟩]) ∧
      (loneVoted ⟨[], ⟨0, []⟩⟩).valSet.VerifyCommit echoCrypto "chain" ⟨[], ⟨0, []⟩⟩ 1
          (NewCommit 1 0 ⟨[], ⟨0, []⟩⟩ [⟨.BlockIDFlagNil, List.replicate 20 1, 0, [1]⟩]) =
        .error (ErrNotEnoughVotingPowerSigned 0 0)) ∧
    (Collected echoCrypto (fun _ => True) (loneVoted ⟨List.replicate 32 1, ⟨0, []⟩⟩) ∧
      (loneVoted ⟨List.replicate 32 1, ⟨0, []⟩⟩).signedMsgType = .PrecommitType ∧
      (loneVoted ⟨List.replicate 32 1, ⟨0, []⟩⟩).maj23 =
        some ⟨List.replicate 32 1, ⟨0, []⟩⟩ ∧
      (loneVoted ⟨List.replicate 32 1, ⟨0, []⟩⟩).MakeCommit =
        .error (.panic "Invalid vote %v - expected BlockID to be either empty or complete")) :=
  ⟨⟨.addVote (loneVote ⟨[], ⟨0, []⟩⟩) true none (.new loneVoteSet_valid loneVoteSet_new)
      (by decide) rfl, rfl, by decide, by decide, by decide⟩,
    ⟨.addVote (loneVote ⟨List.replicate 32 1, ⟨0, []⟩⟩) true none
      (.new loneVoteSet_valid loneVoteSet_new) trivial rfl, rfl, by decide, by decide⟩⟩

end VoteSet

end Tendermint
