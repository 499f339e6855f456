import Tendermint.Types.VoteSet

/-!
# Commits and their verification (`types/block.go`, `types/vote_set.go`,
`types/validator_set.go`)

A commit is what a block's successor carries as proof that the block was decided: the block ID,
the height and round, and one `CommitSig` per validator of the set, in the set's order.  A
signature says by its flag whether the validator precommitted the block (`Commit`), nil
(`Nil`), or nothing the commit includes (`Absent`); the vote it signed is rebuilt from the flag
and the position (`Commit.GetVote`).

`VoteSet.MakeCommit` turns a precommit vote set with a `+2/3` majority into a commit, and
`CommitToVoteSet` turns a commit back into a vote set by adding the rebuilt votes one by one.
Three functions of the validator set check a commit: `VerifyCommit` checks every signature
and tallies those for the block, `VerifyCommitLight` stops as soon as the tally passes two
thirds, and `VerifyCommitLightTrusting` tallies, against a possibly different set, the
signatures of the validators it knows by address.

The returned errors keep their text; integers are formatted as Go's `%d` and `%v` print them,
other format arguments are left as their verbs.  Each Go `for ... range` loop is a function
over the signatures still to visit and the position reached, and an early `return` ends it.
The validator set's cached total is read through `TotalVotingPower`; the write-back of the
cache is not threaded out of these read-only checks.
-/

namespace Tendermint

/-- `types.Commit`.  `hash` is the memo of `Hash()`, `none` until it is computed. -/
structure Commit where
  height : Int
  round : Int
  blockID : BlockID
  signatures : List CommitSig
  hash : Option Bytes
  deriving DecidableEq, Repr

/-- `NewCommit`: nothing memoised yet. -/
def NewCommit (height : Int) (round : Int) (blockID : BlockID) (commitSigs : List CommitSig) :
    Commit :=
  { height := height, round := round, blockID := blockID, signatures := commitSigs, hash := none }

/-- `(CommitSig).BlockID`: the commit's block for a signature of the block, the zero ID
otherwise. -/
def CommitSig.BlockID (cs : CommitSig) (commitBlockID : BlockID) : BlockID :=
  match cs.blockIDFlag with
  | .BlockIDFlagAbsent => ⟨[], ⟨0, []⟩⟩
  | .BlockIDFlagCommit => commitBlockID
  | .BlockIDFlagNil => ⟨[], ⟨0, []⟩⟩

/-! ## Errors -/

/-- `NewErrInvalidCommitSignatures(expected, actual)`. -/
def NewErrInvalidCommitSignatures (expected actual : Int) : GoError :=
  .err ("Invalid commit -- wrong set size: " ++ toString expected ++ " vs " ++ toString actual)

/-- `NewErrInvalidCommitHeight(expected, actual)`. -/
def NewErrInvalidCommitHeight (expected actual : Int) : GoError :=
  .err ("Invalid commit -- wrong height: " ++ toString expected ++ " vs " ++ toString actual)

/-- `ErrNotEnoughVotingPowerSigned{Got, Needed}`. -/
def ErrNotEnoughVotingPowerSigned (got needed : Int) : GoError :=
  .err ("invalid commit -- insufficient voting power: got " ++ toString got ++
    ", needed more than " ++ toString needed)

/-- The error of a signature that does not verify. -/
def errWrongSignature (idx : Nat) : GoError :=
  .err ("wrong signature (#" ++ toString idx ++ "): %X")

namespace Commit

/-- `GetVote`: the vote the signature at `valIdx` stands for.  An index out of range panics. -/
def GetVote (commit : Commit) (valIdx : Int) : Go Vote := do
  let commitSig ← goIndex commit.signatures valIdx
  pure { type := .PrecommitType, height := commit.height, round := commit.round,
         blockID := commitSig.BlockID commit.blockID, timestamp := commitSig.timestamp,
         validatorAddress := commitSig.validatorAddress, validatorIndex := valIdx,
         signature := commitSig.signature }

/-- `VoteSignBytes`: the sign bytes of the vote at `valIdx`. -/
def VoteSignBytes (crypto : Crypto) (commit : Commit) (chainID : String) (valIdx : Int) :
    Go Bytes := do
  let v ← commit.GetVote valIdx
  Tendermint.VoteSignBytes crypto chainID v

end Commit

/-! ## From vote sets to commits and back -/

namespace VoteSet

/-- One iteration of `MakeCommit`: the commit signature of a slot (`(*Vote).CommitSig`, which is
absent for an empty slot), made absent when it is for a block other than `maj23`. -/
def makeCommitSig (maj23 : BlockID) : Option Vote → Go CommitSig
  | none => pure NewCommitSigAbsent
  | some v => do
      let commitSig ← v.CommitSig
      if commitSig.ForBlock && !v.blockID.Equals maj23 then pure NewCommitSigAbsent
      else pure commitSig

/-- `MakeCommit`: the signatures of the `maj23` block and of nil, one per validator. -/
def MakeCommit (voteSet : VoteSet) : Go Commit :=
  if voteSet.signedMsgType ≠ .PrecommitType then
    throw (.panic "Cannot MakeCommit() unless VoteSet.Type is PrecommitType")
  else match voteSet.maj23 with
    | none => throw (.panic "Cannot MakeCommit() unless a blockhash has +2/3")
    | some maj23 => do
      let commitSigs ← voteSet.votes.mapM (makeCommitSig maj23)
      pure (NewCommit voteSet.height voteSet.round maj23 commitSigs)

end VoteSet

/-- The loop of `CommitToVoteSet` from signature `idx` on: every signature that is not absent
is added back as a vote, and a vote the set does not add panics. -/
def addCommitSigs (crypto : Crypto) (commit : Commit) :
    Nat → List CommitSig → VoteSet → Go VoteSet
  | _, [], voteSet => pure voteSet
  | idx, commitSig :: rest, voteSet =>
      if commitSig.Absent then addCommitSigs crypto commit (idx + 1) rest voteSet
      else do
        let vote ← commit.GetVote idx
        let (added, err, voteSet) ← voteSet.addVote crypto (some vote)
        if !added || err.isSome then throw (.panic "Failed to reconstruct LastCommit: %v")
        else addCommitSigs crypto commit (idx + 1) rest voteSet

/-- `CommitToVoteSet`: the precommit vote set of the commit's height and round, with the
commit's votes added. -/
def CommitToVoteSet (crypto : Crypto) (chainID : String) (commit : Commit)
    (vals : ValidatorSet) : Go VoteSet := do
  let voteSet ← NewVoteSet chainID commit.height commit.round .PrecommitType vals
  addCommitSigs crypto commit 0 commit.signatures voteSet

/-! ## Verification against a validator set -/

/-- `tmmath.Fraction`. -/
structure Fraction where
  numerator : Int
  denominator : Int
  deriving DecidableEq, Repr

/-- `safeMul`: the product, or `true` for an overflow.  Go negates in `int64`, so the absolute
value of `MinInt64` is `MinInt64` again. -/
def safeMul (a b : Int) : Int × Bool :=
  if a = 0 ∨ b = 0 then (0, false)
  else
    let absOfB := if b < 0 then wrap64 (-b) else b
    let absOfA := if a < 0 then wrap64 (-a) else a
    if absOfA > MaxInt64.tdiv absOfB then (0, true)
    else (wrap64 (a * b), false)

/-- With a positive first factor, `safeMul` reports an overflow exactly when the magnitude of the
product passes `MaxInt64` (a product of `MinInt64` included), and otherwise returns the product. -/
lemma safeMul_pos {a b : Int} (ha : 0 < a) (ha' : a ≤ MaxInt64) (hb : InInt64 b) :
    safeMul a b = if MaxInt64 < |a * b| then (0, true) else (a * b, false) := by
  have hbl : -2 ^ 63 ≤ b ∧ b ≤ 2 ^ 63 - 1 := hb
  have hal : a ≤ 2 ^ 63 - 1 := ha'
  unfold safeMul
  by_cases h0 : b = 0
  · simp [h0, show (0 : Int) ≤ MaxInt64 by decide]
  rw [if_neg (by omega)]
  by_cases hmin : b = MinInt64
  · -- the magnitude of `MinInt64` wraps to `MinInt64`, under which no positive factor fits
    subst hmin
    have habs : wrap64 (-MinInt64) = MinInt64 := by decide
    have hbig : MaxInt64 < |a * MinInt64| := by
      rw [abs_of_neg (by unfold MinInt64; nlinarith)]
      unfold MaxInt64 MinInt64
      nlinarith
    simp only [show MinInt64 < 0 by decide, if_true, habs, if_neg (show ¬ a < 0 by omega)]
    rw [if_pos (by rw [show MaxInt64.tdiv MinInt64 = 0 by decide]; omega), if_pos hbig]
  · have hn : 0 < (if b < 0 then wrap64 (-b) else b) := by
      split
      · rw [wrap64_neg_of_mem hb hmin]
        omega
      · omega
    -- the check compares `a` with `MaxInt64 / |b|`, that is `|a * b|` with `MaxInt64`
    have hmag : a * (if b < 0 then wrap64 (-b) else b) = |a * b| := by
      split
      · rw [wrap64_neg_of_mem hb hmin, abs_of_neg (by nlinarith)]
        ring
      · rw [abs_of_nonneg (by nlinarith)]
    simp only [if_neg (show ¬ a < 0 by omega)]
    by_cases hbig : MaxInt64 < |a * b|
    · rw [if_pos ((lt_tdiv_iff hn).mpr (by rw [hmag]; exact hbig)), if_pos hbig]
    · have hfit : InInt64 (a * b) := by
        have := abs_le.mp (not_lt.mp hbig)
        unfold InInt64 MinInt64 MaxInt64
        unfold MaxInt64 at this
        omega
      rw [if_neg ((not_congr (lt_tdiv_iff hn)).mpr (by rw [hmag]; exact hbig)), if_neg hbig,
        wrap64_of_mem hfit]

namespace ValidatorSet

/-- The loop of `VerifyCommit` from signature `idx` on: every signature that is not absent
must verify under validator `idx`, and those for the block are tallied. -/
def verifyCommitSigs (crypto : Crypto) (vals : ValidatorSet) (chainID : String)
    (commit : Commit) : Nat → Int → List CommitSig → Go Int
  | _, talliedVotingPower, [] => pure talliedVotingPower
  | idx, talliedVotingPower, commitSig :: rest =>
      if commitSig.Absent then
        verifyCommitSigs crypto vals chainID commit (idx + 1) talliedVotingPower rest
      else do
        let val ← goIndex vals.validators idx
        let voteSignBytes ← commit.VoteSignBytes crypto chainID idx
        if !crypto.verifySignature val.pubKey voteSignBytes commitSig.signature then
          throw (errWrongSignature idx)
        else
          -- stray signatures for nil are checked but not counted
          let talliedVotingPower := if commitSig.ForBlock
            then wrap64 (talliedVotingPower + val.votingPower) else talliedVotingPower
          verifyCommitSigs crypto vals chainID commit (idx + 1) talliedVotingPower rest

/-- `VerifyCommit`: more than two thirds of the set signed the block at this height. -/
def VerifyCommit (crypto : Crypto) (vals : ValidatorSet) (chainID : String) (blockID : BlockID)
    (height : Int) (commit : Commit) : Go Unit :=
  if vals.Size ≠ commit.signatures.length then
    throw (NewErrInvalidCommitSignatures vals.Size commit.signatures.length)
  else if height ≠ commit.height then
    throw (NewErrInvalidCommitHeight height commit.height)
  else if !blockID.Equals commit.blockID then
    throw (.err "invalid commit -- wrong block ID: want %v, got %v")
  else do
    let (total, _) ← vals.TotalVotingPower
    let votingPowerNeeded := (wrap64 (total * 2)).tdiv 3
    let talliedVotingPower ← verifyCommitSigs crypto vals chainID commit 0 0 commit.signatures
    if talliedVotingPower ≤ votingPowerNeeded then
      throw (ErrNotEnoughVotingPowerSigned talliedVotingPower votingPowerNeeded)
    else pure ()

/-- The loop of `VerifyCommitLight` from signature `idx` on: only signatures for the block are
checked, and the loop returns as soon as the tally passes `votingPowerNeeded`. -/
def verifyCommitLightSigs (crypto : Crypto) (vals : ValidatorSet) (chainID : String)
    (commit : Commit) (votingPowerNeeded : Int) : Nat → Int → List CommitSig → Go Unit
  | _, talliedVotingPower, [] =>
      throw (ErrNotEnoughVotingPowerSigned talliedVotingPower votingPowerNeeded)
  | idx, talliedVotingPower, commitSig :: rest =>
      if !commitSig.ForBlock then
        verifyCommitLightSigs crypto vals chainID commit votingPowerNeeded (idx + 1)
          talliedVotingPower rest
      else do
        let val ← goIndex vals.validators idx
        let voteSignBytes ← commit.VoteSignBytes crypto chainID idx
        if !crypto.verifySignature val.pubKey voteSignBytes commitSig.signature then
          throw (errWrongSignature idx)
        else
          let talliedVotingPower := wrap64 (talliedVotingPower + val.votingPower)
          if talliedVotingPower > votingPowerNeeded then pure ()
          else
            verifyCommitLightSigs crypto vals chainID commit votingPowerNeeded (idx + 1)
              talliedVotingPower rest

/-- `VerifyCommitLight`: as `VerifyCommit`, stopping once two thirds are reached. -/
def VerifyCommitLight (crypto : Crypto) (vals : ValidatorSet) (chainID : String)
    (blockID : BlockID) (height : Int) (commit : Commit) : Go Unit :=
  if vals.Size ≠ commit.signatures.length then
    throw (NewErrInvalidCommitSignatures vals.Size commit.signatures.length)
  else if height ≠ commit.height then
    throw (NewErrInvalidCommitHeight height commit.height)
  else if !blockID.Equals commit.blockID then
    throw (.err "invalid commit -- wrong block ID: want %v, got %v")
  else do
    let (total, _) ← vals.TotalVotingPower
    let votingPowerNeeded := (wrap64 (total * 2)).tdiv 3
    verifyCommitLightSigs crypto vals chainID commit votingPowerNeeded 0 0 commit.signatures

/-- The loop of `VerifyCommitLightTrusting` from signature `idx` on.  A signature for the block
counts if its address is in the set; `seenVals` maps a validator's index in the set to the
first signature counted for it, and a second one is a double vote. -/
def verifyCommitLightTrustingSigs (crypto : Crypto) (vals : ValidatorSet) (chainID : String)
    (commit : Commit) (votingPowerNeeded : Int) :
    Nat → Int → (Nat → Option Nat) → List CommitSig → Go Unit
  | _, talliedVotingPower, _, [] =>
      throw (ErrNotEnoughVotingPowerSigned talliedVotingPower votingPowerNeeded)
  | idx, talliedVotingPower, seenVals, commitSig :: rest =>
      if !commitSig.ForBlock then
        verifyCommitLightTrustingSigs crypto vals chainID commit votingPowerNeeded (idx + 1)
          talliedVotingPower seenVals rest
      else match vals.GetByAddress commitSig.validatorAddress with
        | none =>
            verifyCommitLightTrustingSigs crypto vals chainID commit votingPowerNeeded (idx + 1)
              talliedVotingPower seenVals rest
        | some (valIdx, val) =>
            match seenVals valIdx with
            | some firstIndex =>
                throw (.err ("double vote from %v (" ++ toString firstIndex ++ " and " ++
                  toString idx ++ ")"))
            | none => do
                let voteSignBytes ← commit.VoteSignBytes crypto chainID idx
                if !crypto.verifySignature val.pubKey voteSignBytes commitSig.signature then
                  throw (errWrongSignature idx)
                else
                  let talliedVotingPower := wrap64 (talliedVotingPower + val.votingPower)
                  if talliedVotingPower > votingPowerNeeded then pure ()
                  else
                    verifyCommitLightTrustingSigs crypto vals chainID commit votingPowerNeeded
                      (idx + 1) talliedVotingPower (Function.update seenVals valIdx (some idx))
                      rest

/-- `VerifyCommitLightTrusting`: more than `trustLevel` of this set's power signed the commit,
the set being possibly another one than the commit's. -/
def VerifyCommitLightTrusting (crypto : Crypto) (vals : ValidatorSet) (chainID : String)
    (commit : Commit) (trustLevel : Fraction) : Go Unit :=
  if trustLevel.denominator = 0 then throw (.err "trustLevel has zero Denominator")
  else do
    let (total, _) ← vals.TotalVotingPower
    let (totalVotingPowerMulByNumerator, overflow) := safeMul total trustLevel.numerator
    if overflow then
      throw (.err ("int64 overflow while calculating voting power needed. " ++
        "please provide smaller trustLevel numerator"))
    else do
      let votingPowerNeeded ← goDiv totalVotingPowerMulByNumerator trustLevel.denominator
      verifyCommitLightTrustingSigs crypto vals chainID commit votingPowerNeeded 0 0
        (fun _ => none) commit.signatures

end ValidatorSet

end Tendermint
