import Tendermint.Types.CommitRoundTrip
import Tendermint.Types.ProposerPriority

/-!
# What a verified commit guarantees (`types/validator_set.go`)

`Types.CommitRoundTrip` shows that the three commit checks of a validator set accept the commits
they should.  This file goes the other way: what a commit that a check accepts says about the
validators who signed it.

`VerifyCommit` checks every signature that is present and tallies those for the block;
`VerifyCommitLight` checks only the signatures for the block and stops once the tally passes two
thirds.  On a valid set (the invariant `Valid` of every set the code builds) the light check
accepts every commit the full one does, and a commit it accepts has more than two thirds of the
power in validators whose signature for the block verifies (`VerifyCommitLight_shortcut`).

`VerifyCommitLightTrusting` looks signers up by address in a set that may not be the commit's.
A commit it accepts has a set of distinct validators, each with a verifying signature for the
block, whose power passes the trust level's share of the total
(`VerifyCommitLightTrusting_sound`).  The tally is an `int64` sum, which the powers of a valid
set keep from wrapping.
-/

namespace Tendermint

namespace ValidatorSet

open ExceptRun

variable {crypto : Crypto} {vals : ValidatorSet} {chainID : String} {commit : Commit}

/-- `SigVerifies` as a check: the signature `cs` at position `idx` verifies under validator
`idx`. -/
def sigValid (crypto : Crypto) (vals : ValidatorSet) (chainID : String) (commit : Commit)
    (idx : Nat) (cs : CommitSig) : Bool :=
  match vals.validators[idx]?, commit.VoteSignBytes crypto chainID idx with
  | some val, .ok sb => crypto.verifySignature val.pubKey sb cs.signature
  | _, _ => false

lemma sigValid_iff {idx : Nat} {cs : CommitSig} :
    sigValid crypto vals chainID commit idx cs = true ↔ SigVerifies crypto vals chainID commit idx cs := by
  unfold sigValid SigVerifies
  constructor
  · intro h
    split at h
    · rename_i val sb hval hsb
      exact ⟨val, sb, hval, hsb, h⟩
    · cases h
  · rintro ⟨val, sb, hval, hsb, hver⟩
    rw [hval, hsb]
    exact hver

/-- The bits of the signatures from position `idx` on that are for the block and verify. -/
def verifiedFrom (crypto : Crypto) (vals : ValidatorSet) (chainID : String) (commit : Commit) :
    Nat → List CommitSig → List Bool
  | _, [] => []
  | idx, cs :: rest =>
    (cs.ForBlock && sigValid crypto vals chainID commit idx cs) ::
      verifiedFrom crypto vals chainID commit (idx + 1) rest

/-- The validators whose signature in the commit is for the block and verifies, as a mask over
the set. -/
def verifiedForBlock (crypto : Crypto) (vals : ValidatorSet) (chainID : String)
    (commit : Commit) : List Bool :=
  verifiedFrom crypto vals chainID commit 0 commit.signatures

/-- A present signature that the loops check and that passes had a validator at its position,
sign bytes, and a signature that verifies under that validator's key. -/
lemma checkSig_ok {β : Type} {idx : Nat} {cs : CommitSig} {k : Validator → Go β} {r : β}
    (h : (do
      let val ← goIndex vals.validators idx
      let voteSignBytes ← commit.VoteSignBytes crypto chainID idx
      if !crypto.verifySignature val.pubKey voteSignBytes cs.signature then
        throw (errWrongSignature idx)
      else k val) = .ok r) :
    ∃ val, vals.validators[idx]? = some val ∧ SigVerifies crypto vals chainID commit idx cs ∧
      k val = .ok r := by
  obtain ⟨val, hval, h⟩ := bind_eq_ok h
  obtain ⟨sb, hsb, h⟩ := bind_eq_ok h
  have hget : vals.validators[idx]? = some val := by
    simpa using (goIndex_eq_ok.mp hval).2
  by_cases hver : crypto.verifySignature val.pubKey sb cs.signature = true
  · rw [hver] at h
    exact ⟨val, hget, ⟨val, sb, hget, hsb, hver⟩, h⟩
  · rw [Bool.not_eq_true] at hver
    rw [hver] at h
    cases h

/-- The loop of `VerifyCommit` passes only if every present signature verifies. -/
lemma verifyCommitSigs_inv : ∀ (sigs : List CommitSig) (idx : Nat) (t r : Int),
    verifyCommitSigs crypto vals chainID commit idx t sigs = .ok r →
      ∀ (k : Nat) (cs : CommitSig), sigs[k]? = some cs → cs.Absent = false →
        SigVerifies crypto vals chainID commit (idx + k) cs
  | [], _, _, _, _, _, _, hk, _ => by simp at hk
  | cs :: rest, idx, t, r, h, k, cs', hk, ha => by
    unfold verifyCommitSigs at h
    -- the rest is checked from `idx + 1` on, whether or not `cs` was skipped
    have hrest : ∀ t', verifyCommitSigs crypto vals chainID commit (idx + 1) t' rest = .ok r →
        ∀ k', rest[k']? = some cs' → k = k' + 1 →
          SigVerifies crypto vals chainID commit (idx + k) cs' := fun t' h' k' hk' hkk => by
      rw [hkk, show idx + (k' + 1) = idx + 1 + k' by omega]
      exact verifyCommitSigs_inv rest (idx + 1) t' r h' k' cs' hk' ha
    split at h
    · rename_i habs
      cases k with
      | zero =>
        simp only [List.getElem?_cons_zero, Option.some.injEq] at hk
        rw [hk] at habs
        rw [habs] at ha
        cases ha
      | succ k' => exact hrest t h k' (by simpa using hk) rfl
    · obtain ⟨val, -, hsig, h⟩ := checkSig_ok h
      cases k with
      | zero =>
        simp only [List.getElem?_cons_zero, Option.some.injEq] at hk
        rw [← hk]
        exact hsig
      | succ k' => exact hrest _ h k' (by simpa using hk) rfl

/-- The power `VerifyCommit` tallies: on a valid set, no `int64` arithmetic of the check
overflows. -/
lemma valid_sum_le {vals : ValidatorSet} (hv : vals.Valid) :
    (vals.validators.map Validator.votingPower).sum = vals.totalVotingPower ∧
      vals.totalVotingPower ≤ MaxInt64 := by
  have htot := hv.total_eq
  have hmax : vals.totalVotingPower ≤ MaxTotalVotingPower := htot ▸ hv.sum_le
  have hmax' : MaxTotalVotingPower ≤ MaxInt64 := by
    rw [maxTotalVotingPower_eq]
    unfold MaxInt64
    omega
  refine ⟨?_, by omega⟩
  rw [htot]
  rfl

/-- What `VerifyCommit` accepting a commit says: one signature per validator, the height and
block asked for, every present signature valid and more than two thirds of the power for the
block. -/
lemma VerifyCommit_inv {blockID : BlockID} {height : Int} (hv : vals.Valid)
    (h : vals.VerifyCommit crypto chainID blockID height commit = .ok ()) :
    commit.signatures.length = vals.Size ∧ commit.height = height ∧ commit.blockID = blockID ∧
      (∀ (i : Nat) (cs : CommitSig), commit.signatures[i]? = some cs → cs.Absent = false →
        SigVerifies crypto vals chainID commit i cs) ∧
      vals.totalVotingPower * 2 / 3 < BitMask.weight Validator.votingPower
        (commit.signatures.map CommitSig.ForBlock) vals.validators := by
  obtain ⟨hsum, hmax⟩ := valid_sum_le hv
  unfold VerifyCommit at h
  rw [ite_throw_eq_ok, ite_throw_eq_ok, ite_throw_eq_ok] at h
  obtain ⟨hsize, hheight, hblock, h⟩ := h
  rw [TotalVotingPower_of_ne hv.total_pos.ne', ok_bind] at h
  dsimp only at h
  rw [goNeeded_eq hv] at h
  obtain ⟨t, hloop, h⟩ := bind_eq_ok h
  have hsig : ∀ (i : Nat) (cs : CommitSig), commit.signatures[i]? = some cs →
      cs.Absent = false → SigVerifies crypto vals chainID commit i cs := fun i cs hi ha => by
    simpa using verifyCommitSigs_inv commit.signatures 0 0 t hloop i cs hi ha
  -- with every signature valid the tally is the power of the block's signers
  have heq := verifyCommitSigs_eq hv.power_nonneg commit.signatures 0 0
    (fun k cs hk ha => by rw [Nat.zero_add]; exact hsig k cs hk ha) le_rfl
    (by rw [List.drop_zero, Int.zero_add, hsum]; exact hmax)
  rw [hloop, List.drop_zero, Int.zero_add] at heq
  cases heq
  rw [ite_throw_eq_ok] at h
  refine ⟨by omega, by omega, ?_, hsig, by omega⟩
  exact (by simpa using hblock : blockID = commit.blockID).symm

/-- The loop of `VerifyCommitLight` passes only once the validators whose signature for the
block verifies carry more than `needed`. -/
lemma verifyCommitLightSigs_sound (hw : ∀ v ∈ vals.validators, 0 ≤ v.votingPower)
    (needed : Int) : ∀ (sigs : List CommitSig) (idx : Nat) (t : Int), 0 ≤ t →
      t + ((vals.validators.drop idx).map Validator.votingPower).sum ≤ MaxInt64 →
      verifyCommitLightSigs crypto vals chainID commit needed idx t sigs = .ok () →
      needed < t + BitMask.weight Validator.votingPower
        (verifiedFrom crypto vals chainID commit idx sigs) (vals.validators.drop idx)
  | [], _, _, _, _, h => by cases h
  | cs :: rest, idx, t, ht, hmax, h => by
    have hsle := sum_drop_succ_le hw idx
    unfold verifyCommitLightSigs at h
    split at h
    · -- a signature that is not for the block is skipped, and its bit is clear
      rename_i hf
      have hf' : cs.ForBlock = false := by simpa using hf
      have ih := verifyCommitLightSigs_sound hw needed rest (idx + 1) t ht (by omega) h
      rw [verifiedFrom, hf', Bool.false_and, weight_false_cons_drop]
      exact ih
    · -- a signature for the block was checked and counted
      rename_i hf
      have hf' : cs.ForBlock = true := by simpa using hf
      obtain ⟨val, hval, hsig, h⟩ := checkSig_ok h
      have hsum := sum_drop_eq hval
      have hp := hw val (List.mem_of_getElem? hval)
      have hnn : 0 ≤ ((vals.validators.drop (idx + 1)).map Validator.votingPower).sum :=
        List.sum_nonneg fun x hx => by
          obtain ⟨v, hv, rfl⟩ := List.mem_map.mp hx
          exact hw v (List.mem_of_mem_drop hv)
      have hwrap : wrap64 (t + val.votingPower) = t + val.votingPower :=
        wrap64_of_mem ⟨by unfold MinInt64; omega, by omega⟩
      obtain ⟨hi, hvi⟩ := List.getElem?_eq_some_iff.mp hval
      have hrest := @BitMask.weight_nonneg _ Validator.votingPower (vals.validators.drop (idx + 1))
        (fun v hv => hw v (List.mem_of_mem_drop hv))
        (verifiedFrom crypto vals chainID commit (idx + 1) rest)
      rw [verifiedFrom, hf', sigValid_iff.mpr hsig, Bool.and_true, List.drop_eq_getElem_cons hi,
        hvi, BitMask.weight_cons, if_pos rfl]
      rw [hwrap] at h
      dsimp only at h
      split at h
      · omega
      · have ih := verifyCommitLightSigs_sound hw needed rest (idx + 1) (t + val.votingPower)
          (by omega) (by omega) h
        omega

/-- What `VerifyCommitLight` accepting a commit says on a valid set: one signature per
validator, the height and block asked for, and more than two thirds of the power in validators
whose signature for the block verifies. -/
lemma VerifyCommitLight_sound {blockID : BlockID} {height : Int} (hv : vals.Valid)
    (h : vals.VerifyCommitLight crypto chainID blockID height commit = .ok ()) :
    commit.signatures.length = vals.Size ∧ commit.height = height ∧ commit.blockID = blockID ∧
      vals.totalVotingPower * 2 / 3 < BitMask.weight Validator.votingPower
        (verifiedForBlock crypto vals chainID commit) vals.validators := by
  obtain ⟨hsum, hmax⟩ := valid_sum_le hv
  unfold VerifyCommitLight at h
  rw [ite_throw_eq_ok, ite_throw_eq_ok, ite_throw_eq_ok] at h
  obtain ⟨hsize, hheight, hblock, h⟩ := h
  rw [TotalVotingPower_of_ne hv.total_pos.ne', ok_bind] at h
  dsimp only at h
  rw [goNeeded_eq hv] at h
  have hsound := verifyCommitLightSigs_sound hv.power_nonneg _ commit.signatures 0 0 le_rfl
    (by rw [List.drop_zero, Int.zero_add, hsum]; exact hmax) h
  rw [List.drop_zero, Int.zero_add] at hsound
  refine ⟨by omega, by omega, ?_, hsound⟩
  exact (by simpa using hblock : blockID = commit.blockID).symm

/-- On every valid validator set, `VerifyCommitLight` accepts every commit `VerifyCommit`
accepts, and a commit it accepts has one signature per validator, the height and block asked
for, and more than two thirds of the power in validators whose signature for the block
verifies. -/
theorem VerifyCommitLight_shortcut {blockID : BlockID} {height : Int} (hv : vals.Valid) :
    (vals.VerifyCommit crypto chainID blockID height commit = .ok () →
      vals.VerifyCommitLight crypto chainID blockID height commit = .ok ()) ∧
    (vals.VerifyCommitLight crypto chainID blockID height commit = .ok () →
      commit.signatures.length = vals.Size ∧ commit.height = height ∧
        commit.blockID = blockID ∧
        vals.totalVotingPower * 2 / 3 < BitMask.weight Validator.votingPower
          (verifiedForBlock crypto vals chainID commit) vals.validators) := by
  refine ⟨fun h => ?_, VerifyCommitLight_sound hv⟩
  obtain ⟨hsize, hheight, hblock, hsig, hpower⟩ := VerifyCommit_inv hv h
  exact VerifyCommitLight_ok hv hsize hheight hblock hsig hpower

/-- A block ID with hashes of the right size and one part. -/
def oneBlockID : BlockID := ⟨List.replicate 32 1, ⟨1, List.replicate 32 2⟩⟩

/-- The valid one-validator set of `Types.CommitRoundTrip`. -/
def loneSet : ValidatorSet := ⟨[VoteSet.loneValidator], some VoteSet.loneValidator, 1⟩

/-- The one-validator set's commit of `oneBlockID` at height one, signed under `echoCrypto`. -/
def loneCommit : Commit :=
  NewCommit 1 0 oneBlockID [⟨.BlockIDFlagCommit, List.replicate 20 1, 0, [1]⟩]

/-- The commit of `oneBlockID` at height one over the reachable `jumpWitness`: its two
validators of power `3` sign for the block under `echoCrypto`, and the third, of power `2`, is
absent. -/
def jumpCommit : Commit :=
  NewCommit 1 0 oneBlockID
    [⟨.BlockIDFlagCommit, [0], 0, [1]⟩, ⟨.BlockIDFlagCommit, [1], 0, [1]⟩,
      ⟨.BlockIDFlagAbsent, [], 0, []⟩]

theorem VerifyCommitLight_shortcut_jump :
    jumpWitness.Valid ∧
    jumpWitness.VerifyCommit VoteSet.echoCrypto "chain" oneBlockID 1 jumpCommit = .ok () ∧
    (jumpWitness.VerifyCommit VoteSet.echoCrypto "chain" oneBlockID 1 jumpCommit = .ok () →
      jumpWitness.VerifyCommitLight VoteSet.echoCrypto "chain" oneBlockID 1 jumpCommit = .ok ()) ∧
    (jumpWitness.VerifyCommitLight VoteSet.echoCrypto "chain" oneBlockID 1 jumpCommit = .ok () →
      jumpCommit.signatures.length = jumpWitness.Size ∧ jumpCommit.height = 1 ∧
        jumpCommit.blockID = oneBlockID ∧
        jumpWitness.totalVotingPower * 2 / 3 < BitMask.weight Validator.votingPower
          (verifiedForBlock VoteSet.echoCrypto jumpWitness "chain" jumpCommit)
          jumpWitness.validators) :=
  ⟨jumpWitness_reachable.valid, by decide, VerifyCommitLight_shortcut jumpWitness_reachable.valid⟩

/-- Validator `j` of the set has, at some position of the commit, a signature for the block from
its own address that verifies under its key. -/
def SignedForBlock (crypto : Crypto) (vals : ValidatorSet) (chainID : String) (commit : Commit)
    (j : Nat) : Prop :=
  ∃ (val : Validator) (i : Nat) (cs : CommitSig) (sb : Bytes), vals.validators[j]? = some val ∧ commit.signatures[i]? = some cs ∧
    cs.ForBlock = true ∧ cs.validatorAddress = val.address ∧
    commit.VoteSignBytes crypto chainID i = .ok sb ∧
    crypto.verifySignature val.pubKey sb cs.signature = true

/-- The power of the validators at the indices `S` of the set. -/
def powerAt (vals : ValidatorSet) (S : List Nat) : Int :=
  (S.map fun j => (vals.validators[j]?.map Validator.votingPower).getD 0).sum

lemma powerAt_cons {S : List Nat} {j : Nat} {val : Validator} (h : vals.validators[j]? = some val) :
    powerAt vals (j :: S) = val.votingPower + powerAt vals S := by
  simp [powerAt, h]

lemma powerAt_nonneg (hw : ∀ v ∈ vals.validators, 0 ≤ v.votingPower) (S : List Nat) :
    0 ≤ powerAt vals S := by
  unfold powerAt
  refine List.sum_nonneg fun x hx => ?_
  obtain ⟨j, -, rfl⟩ := List.mem_map.mp hx
  cases hj : vals.validators[j]? with
  | none => simp
  | some v => simpa using hw v (List.mem_of_getElem? hj)

/-- The loop of `VerifyCommitLightTrusting` keeps the validators it has counted as `S`: distinct,
each with a verifying signature for the block, none of them unseen, and the tally the wrap of
their power.  It passes only once some such set carries more than `needed`. -/
lemma verifyCommitLightTrustingSigs_sound (hw : ∀ v ∈ vals.validators, 0 ≤ v.votingPower)
    (needed : Int) : ∀ (sigs : List CommitSig) (idx : Nat) (S : List Nat) (seen : Nat → Option Nat),
      commit.signatures.drop idx = sigs → S.Nodup →
      (∀ j ∈ S, SignedForBlock crypto vals chainID commit j) → (∀ j, seen j = none → j ∉ S) →
      verifyCommitLightTrustingSigs crypto vals chainID commit needed idx (wrap64 (powerAt vals S))
        seen sigs = .ok () →
      ∃ S' : List Nat, S'.Nodup ∧ (∀ j ∈ S', SignedForBlock crypto vals chainID commit j) ∧
        needed < powerAt vals S'
  | [], _, _, _, _, _, _, _, h => by cases h
  | cs :: rest, idx, S, seen, hdrop, hnd, hS, hseen, h => by
    have hcs : commit.signatures[idx]? = some cs := by
      have h0 : (commit.signatures.drop idx)[0]? = some cs := by
        rw [hdrop]
        rfl
      rwa [List.getElem?_drop, Nat.add_zero] at h0
    have hrest : commit.signatures.drop (idx + 1) = rest := by
      rw [← List.drop_drop, hdrop]
      rfl
    unfold verifyCommitLightTrustingSigs at h
    split at h
    · -- not for the block: skipped
      exact verifyCommitLightTrustingSigs_sound hw needed rest (idx + 1) S seen hrest hnd hS
        hseen h
    · rename_i hf
      have hf' : cs.ForBlock = true := by simpa using hf
      split at h
      · -- an address the set does not know: skipped
        exact verifyCommitLightTrustingSigs_sound hw needed rest (idx + 1) S seen hrest hnd hS
          hseen h
      · rename_i valIdx val hget
        obtain ⟨hval, haddr⟩ := GetByAddress_eq_some hget
        split at h
        · cases h
        · -- a validator not counted yet: its signature is checked, then counted
          rename_i hnone
          obtain ⟨sb, hsb, h⟩ := bind_eq_ok h
          by_cases hver : crypto.verifySignature val.pubKey sb cs.signature = true
          · rw [hver] at h
            simp only [Bool.not_true, Bool.false_eq_true, if_false] at h
            have hnew : SignedForBlock crypto vals chainID commit valIdx :=
              ⟨val, idx, cs, sb, hval, hcs, hf', haddr.symm, hsb, hver⟩
            have hnd' : (valIdx :: S).Nodup := List.nodup_cons.mpr ⟨hseen valIdx hnone, hnd⟩
            have hS' : ∀ j ∈ valIdx :: S, SignedForBlock crypto vals chainID commit j := by
              intro j hj
              rcases List.mem_cons.mp hj with rfl | hj
              · exact hnew
              · exact hS j hj
            have htally : wrap64 (wrap64 (powerAt vals S) + val.votingPower) =
                wrap64 (powerAt vals (valIdx :: S)) := by
              rw [wrap64_add_wrap, powerAt_cons hval, Int.add_comm]
            rw [htally] at h
            split at h
            · rename_i hpass
              have hle := wrap64_le (x := powerAt vals (valIdx :: S))
                (by have := powerAt_nonneg hw (valIdx :: S); unfold MinInt64; omega)
              exact ⟨valIdx :: S, hnd', hS', by omega⟩
            · refine verifyCommitLightTrustingSigs_sound hw needed rest (idx + 1) (valIdx :: S) _
                hrest hnd' hS' ?_ h
              intro j hj
              by_cases hji : j = valIdx
              · subst hji
                simp at hj
              · rw [Function.update_of_ne hji] at hj
                exact List.not_mem_cons_of_ne_of_not_mem hji (hseen j hj)
          · rw [Bool.not_eq_true] at hver
            rw [hver] at h
            cases h

/-- `Valid` bounds the cached total: positive, and an `int64`. -/
lemma Valid.total_mem (hv : vals.Valid) : 0 < vals.totalVotingPower ∧ vals.totalVotingPower ≤ MaxInt64 :=
  ⟨hv.total_pos, (valid_sum_le hv).2⟩

/-- On every valid validator set and every `int64` trust level: a product
`TotalVotingPower() * Numerator` that overflows makes the check fail, and a commit it accepts
has a set of distinct validators of the set, each with a signature for the block from its own
address that verifies under its key, whose power passes
`TotalVotingPower() * Numerator / Denominator`. -/
theorem VerifyCommitLightTrusting_sound (hv : vals.Valid) {trustLevel : Fraction}
    (hnum : InInt64 trustLevel.numerator) :
    (¬ InInt64 (vals.totalVotingPower * trustLevel.numerator) →
      ∃ e, vals.VerifyCommitLightTrusting crypto chainID commit trustLevel = .error e) ∧
    (vals.VerifyCommitLightTrusting crypto chainID commit trustLevel = .ok () →
      ∃ S : List Nat, S.Nodup ∧ (∀ j ∈ S, SignedForBlock crypto vals chainID commit j) ∧
        (vals.totalVotingPower * trustLevel.numerator).tdiv trustLevel.denominator <
          powerAt vals S) := by
  obtain ⟨hpos, hmax⟩ := hv.total_mem
  have hmul := safeMul_pos hpos hmax hnum
  unfold VerifyCommitLightTrusting
  rw [TotalVotingPower_of_ne hpos.ne']
  constructor
  · intro hover
    -- a product out of range has a magnitude past `MaxInt64`
    have hbig : MaxInt64 < |vals.totalVotingPower * trustLevel.numerator| := by
      unfold InInt64 at hover
      rw [lt_abs]
      unfold MinInt64 MaxInt64 at *
      omega
    split
    · exact ⟨_, rfl⟩
    · rw [ok_bind]
      dsimp only
      rw [hmul, if_pos hbig]
      exact ⟨_, rfl⟩
  · intro h
    rw [ite_throw_eq_ok, ok_bind] at h
    obtain ⟨hden, h⟩ := h
    dsimp only at h
    rw [hmul] at h
    split at h
    · cases h
    · rename_i hfit
      dsimp only at h
      rw [if_neg Bool.false_ne_true, goDiv_of_fits (not_lt.mp hfit) hden, ok_bind] at h
      exact verifyCommitLightTrustingSigs_sound hv.power_nonneg _ commit.signatures 0 [] _ rfl
        List.nodup_nil (fun _ hj => by cases hj) (fun _ _ hj => by cases hj) h


theorem VerifyCommitLightTrusting_sound_jump :
    jumpWitness.Valid ∧ InInt64 (⟨1, 3⟩ : Fraction).numerator ∧
    jumpWitness.VerifyCommitLightTrusting VoteSet.echoCrypto "chain" jumpCommit ⟨1, 3⟩ = .ok () ∧
    (¬ InInt64 (jumpWitness.totalVotingPower * 1) →
      ∃ e, jumpWitness.VerifyCommitLightTrusting VoteSet.echoCrypto "chain" jumpCommit ⟨1, 3⟩ =
        .error e) ∧
    (jumpWitness.VerifyCommitLightTrusting VoteSet.echoCrypto "chain" jumpCommit ⟨1, 3⟩ = .ok () →
      ∃ S : List Nat, S.Nodup ∧
        (∀ j ∈ S, SignedForBlock VoteSet.echoCrypto jumpWitness "chain" jumpCommit j) ∧
        (jumpWitness.totalVotingPower * 1).tdiv 3 < powerAt jumpWitness S) :=
  ⟨jumpWitness_reachable.valid, by decide, by decide,
    @VerifyCommitLightTrusting_sound VoteSet.echoCrypto jumpWitness "chain" jumpCommit
      jumpWitness_reachable.valid ⟨1, 3⟩ (by decide)⟩

end ValidatorSet

end Tendermint
