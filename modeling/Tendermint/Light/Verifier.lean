import Tendermint.Types.Block
import Tendermint.Types.CommitVerify

/-!
# Verifying one header against another (`light/verifier.go`)

A light client trusts a header and its validator set, and moves its trust to a new header in
one step.  `Verify` chooses between two checks.  `VerifyAdjacent`, for the next height, asks
that the new header's validators be the trusted header's next ones and that more than two
thirds of them signed it.  `VerifyNonAdjacent`, for a later height, asks instead that more than
the trust level of the *trusted* validators signed the new header, and then that more than two
thirds of the new validators did.  Both first check that the trusted header has not expired
and that the new header is well formed, later, not from the future, and has the validators it
comes with (`verifyNewHeaderAndVals`).  `VerifyBackwards` checks a header one height below a
trusted one through the hash link of the trusted header.

The errors keep their Go types (`VerifyError`): the bisection of the client tells
`ErrNewValSetCantBeTrusted` apart from the rest.  `VerifyNonAdjacent` returns that error for an
`ErrNotEnoughVotingPowerSigned` from `VerifyCommitLightTrusting`, which the model keeps by its
text (`IsErrNotEnoughVotingPowerSigned`).  What one call can return is said once:

* `Verify_cantBeTrusted` — `ErrNewValSetCantBeTrusted` comes only from a non-adjacent header
  that passed every check before the trusting one, the trusted header being unexpired;
* `Verify_of_le` — a header not above the trusted one is rejected as invalid.

The hash of a header and of a validator set are parameters, as the signature scheme is.
Headers and commits are not `nil` here: the client checks every header it is sent before it
verifies it.
-/

namespace Tendermint

namespace Light

open ExceptRun

/-- `types.SignedHeader`. -/
structure SignedHeader where
  Header : Tendermint.Header
  Commit : Tendermint.Commit
  deriving DecidableEq, Repr

/-- The errors of verification, by their Go types, and a panic. -/
inductive VerifyError where
  | ErrOldHeaderExpired (At Now : Time)
  | ErrInvalidHeader (Reason : String)
  | ErrNewValSetCantBeTrusted (Reason : String)
  | err (msg : String)
  | panic (msg : String)
  deriving DecidableEq, Repr

/-- A Go error of another package, as the error `wrap` makes of its text; a panic goes on. -/
def VerifyError.ofGo (wrap : String → VerifyError) : GoError → VerifyError
  | .err msg => wrap msg
  | .panic msg => .panic msg

/-- `Error()` of the verification errors; a time prints as its number. -/
def VerifyError.Error : VerifyError → String
  | .ErrOldHeaderExpired At Now =>
    "old header has expired at " ++ toString At ++ " (now: " ++ toString Now ++ ")"
  | .ErrInvalidHeader Reason => "invalid header: " ++ Reason
  | .ErrNewValSetCantBeTrusted Reason => "cant trust new val set: " ++ Reason
  | .err msg => msg
  | .panic msg => msg

/-- The case `types.ErrNotEnoughVotingPowerSigned` of a type switch: the only error whose text
starts so. -/
def IsErrNotEnoughVotingPowerSigned : GoError → Bool
  | .err msg => msg.startsWith "invalid commit -- insufficient voting power: got "
  | .panic _ => false

@[simp] lemma IsErrNotEnoughVotingPowerSigned_ErrNotEnoughVotingPowerSigned (got needed : Int) :
    IsErrNotEnoughVotingPowerSigned (ErrNotEnoughVotingPowerSigned got needed) = true := by
  simp [IsErrNotEnoughVotingPowerSigned, ErrNotEnoughVotingPowerSigned,
    String.startsWith_string_iff, String.toList_append]

/-- `HeaderExpired`. -/
def HeaderExpired (h : SignedHeader) (trustingPeriod now : Time) : Bool :=
  let expirationTime := h.Header.time + trustingPeriod
  !decide (now < expirationTime)

/-- `ValidateTrustLevel`: the trust level is in `[1/3, 1]`; the fraction's fields are `uint64`s. -/
def ValidateTrustLevel (lvl : Fraction) : Except String Unit :=
  if (lvl.numerator * 3) % 2 ^ 64 < lvl.denominator ∨ lvl.numerator > lvl.denominator ∨
      lvl.denominator = 0 then
    throw "trustLevel must be within [1/3, 1], given %v"
  else pure ()

section Verify

variable (crypto : Crypto) (headerHash : Tendermint.Header → Bytes) (valsHash : ValidatorSet → Bytes)

/-- `SignedHeader.ValidateBasic`. -/
def SignedHeader.ValidateBasic (sh : SignedHeader) (chainID : String) : Except String Unit := do
  sh.Header.ValidateBasic.mapError ("invalid header: " ++ ·)
  sh.Commit.ValidateBasic.mapError ("invalid commit: " ++ ·)
  if sh.Header.chainID ≠ chainID then throw "header belongs to another chain %q, not %q"
  else if sh.Commit.height ≠ sh.Header.height then
    throw ("header and commit height mismatch: " ++ toString sh.Header.height ++ " vs " ++
      toString sh.Commit.height)
  else if headerHash sh.Header ≠ sh.Commit.blockID.hash then
    throw "commit signs block %X, header is block %X"
  else pure ()

/-- `verifyNewHeaderAndVals`. -/
def verifyNewHeaderAndVals (chainID : String) (untrustedHeader : SignedHeader)
    (untrustedVals : ValidatorSet) (trustedHeader : SignedHeader) (now maxClockDrift : Time) :
    Except String Unit := do
  (untrustedHeader.ValidateBasic headerHash chainID).mapError
    ("untrustedHeader.ValidateBasic failed: " ++ ·)
  if untrustedHeader.Header.height ≤ trustedHeader.Header.height then
    throw ("expected new header height " ++ toString untrustedHeader.Header.height ++
      " to be greater than one of old header " ++ toString trustedHeader.Header.height)
  else if ¬ trustedHeader.Header.time < untrustedHeader.Header.time then
    throw "expected new header time %v to be after old header time %v"
  else if ¬ untrustedHeader.Header.time < now + maxClockDrift then
    throw "new header has a time from the future %v (now: %v; max clock drift: %v)"
  else if untrustedHeader.Header.validatorsHash ≠ valsHash untrustedVals then
    throw ("expected new header validators (%X) to match those that were supplied (%X) at height " ++
      toString untrustedHeader.Header.height)
  else pure ()

/-- `VerifyNonAdjacent`. -/
def VerifyNonAdjacent (chainID : String) (trustedHeader : SignedHeader)
    (trustedVals : ValidatorSet) (untrustedHeader : SignedHeader) (untrustedVals : ValidatorSet)
    (trustingPeriod now maxClockDrift : Time) (trustLevel : Fraction) :
    Except VerifyError Unit :=
  if untrustedHeader.Header.height = wrap64 (trustedHeader.Header.height + 1) then
    throw (.err "headers must be non adjacent in height")
  else if HeaderExpired trustedHeader trustingPeriod now then
    throw (.ErrOldHeaderExpired (trustedHeader.Header.time + trustingPeriod) now)
  else do
    (verifyNewHeaderAndVals headerHash valsHash chainID untrustedHeader untrustedVals trustedHeader
      now maxClockDrift).mapError .ErrInvalidHeader
    -- more than the trust level of the trusted validators signed
    (trustedVals.VerifyCommitLightTrusting crypto chainID untrustedHeader.Commit trustLevel).mapError
      fun e => if IsErrNotEnoughVotingPowerSigned e then VerifyError.ofGo .ErrNewValSetCantBeTrusted e
        else VerifyError.ofGo .err e
    (untrustedVals.VerifyCommitLight crypto chainID untrustedHeader.Commit.blockID
      untrustedHeader.Header.height untrustedHeader.Commit).mapError
      (VerifyError.ofGo .ErrInvalidHeader)

/-- `VerifyAdjacent`. -/
def VerifyAdjacent (chainID : String) (trustedHeader untrustedHeader : SignedHeader)
    (untrustedVals : ValidatorSet) (trustingPeriod now maxClockDrift : Time) :
    Except VerifyError Unit :=
  if untrustedHeader.Header.height ≠ wrap64 (trustedHeader.Header.height + 1) then
    throw (.err "headers must be adjacent in height")
  else if HeaderExpired trustedHeader trustingPeriod now then
    throw (.ErrOldHeaderExpired (trustedHeader.Header.time + trustingPeriod) now)
  else do
    (verifyNewHeaderAndVals headerHash valsHash chainID untrustedHeader untrustedVals trustedHeader
      now maxClockDrift).mapError .ErrInvalidHeader
    if untrustedHeader.Header.validatorsHash ≠ trustedHeader.Header.nextValidatorsHash then
      throw (.err "expected old header next validators (%X) to match those from new header (%X)")
    else
      (untrustedVals.VerifyCommitLight crypto chainID untrustedHeader.Commit.blockID
        untrustedHeader.Header.height untrustedHeader.Commit).mapError
        (VerifyError.ofGo .ErrInvalidHeader)

/-- `Verify`. -/
def Verify (chainID : String) (trustedHeader : SignedHeader) (trustedVals : ValidatorSet)
    (untrustedHeader : SignedHeader) (untrustedVals : ValidatorSet)
    (trustingPeriod now maxClockDrift : Time) (trustLevel : Fraction) : Except VerifyError Unit :=
  if untrustedHeader.Header.height ≠ wrap64 (trustedHeader.Header.height + 1) then
    VerifyNonAdjacent crypto headerHash valsHash chainID trustedHeader trustedVals untrustedHeader
      untrustedVals trustingPeriod now maxClockDrift trustLevel
  else
    VerifyAdjacent crypto headerHash valsHash chainID trustedHeader untrustedHeader untrustedVals
      trustingPeriod now maxClockDrift

/-- `VerifyBackwards`. -/
def VerifyBackwards (chainID : String) (untrustedHeader trustedHeader : SignedHeader) :
    Except VerifyError Unit := do
  (untrustedHeader.ValidateBasic headerHash chainID).mapError .ErrInvalidHeader
  if ¬ untrustedHeader.Header.time < trustedHeader.Header.time then
    throw (.ErrInvalidHeader "expected older header time %v to be before new header time %v")
  else if headerHash untrustedHeader.Header ≠ trustedHeader.Header.lastBlockID.hash then
    throw (.ErrInvalidHeader "older header hash %X does not match trusted header's last block %X")
  else pure ()

/-! ## What one call can return -/

variable {crypto headerHash valsHash} {chainID : String}
  {trustedHeader untrustedHeader : SignedHeader} {trustedVals untrustedVals : ValidatorSet}
  {trustingPeriod now maxClockDrift : Time} {trustLevel : Fraction}

/-- A header not above the trusted one fails `verifyNewHeaderAndVals`. -/
lemma verifyNewHeaderAndVals_of_le
    (hle : untrustedHeader.Header.height ≤ trustedHeader.Header.height) :
    ∃ e, verifyNewHeaderAndVals headerHash valsHash chainID untrustedHeader untrustedVals
      trustedHeader now maxClockDrift = .error e := by
  unfold verifyNewHeaderAndVals
  cases (untrustedHeader.ValidateBasic headerHash chainID).mapError
    ("untrustedHeader.ValidateBasic failed: " ++ ·) with
  | error e => exact ⟨e, rfl⟩
  | ok u => exact ⟨_, by rw [ok_bind, if_pos hle]; rfl⟩

/-- The adjacent check never says that the new validators cannot be trusted. -/
lemma VerifyAdjacent_failsOnly :
    FailsOnly (fun e => ∀ reason, e ≠ .ErrNewValSetCantBeTrusted reason)
      (VerifyAdjacent crypto headerHash valsHash chainID trustedHeader untrustedHeader untrustedVals
        trustingPeriod now maxClockDrift) := by
  have hwrap : ∀ e : GoError, ∀ reason,
      VerifyError.ofGo .ErrInvalidHeader e ≠ .ErrNewValSetCantBeTrusted reason := by
    intro e reason
    cases e <;> simp [VerifyError.ofGo]
  unfold VerifyAdjacent
  refine FailsOnly.ite (fun _ => by simp) fun _ => FailsOnly.ite (fun _ => by simp) fun _ => ?_
  refine FailsOnly.bind (failsOnly_mapError _ fun e reason => by simp) fun _ _ => ?_
  exact FailsOnly.ite (fun _ => by simp) fun _ => failsOnly_mapError _ hwrap

/-- `ErrNewValSetCantBeTrusted` comes only from a header that is not the next one and passed
every check before the trusting one, against a trusted header that has not expired. -/
lemma Verify_cantBeTrusted {reason : String}
    (h : Verify crypto headerHash valsHash chainID trustedHeader trustedVals untrustedHeader
      untrustedVals trustingPeriod now maxClockDrift trustLevel =
      .error (.ErrNewValSetCantBeTrusted reason)) :
    untrustedHeader.Header.height ≠ wrap64 (trustedHeader.Header.height + 1) ∧
      HeaderExpired trustedHeader trustingPeriod now = false ∧
      verifyNewHeaderAndVals headerHash valsHash chainID untrustedHeader untrustedVals
        trustedHeader now maxClockDrift = .ok () := by
  unfold Verify at h
  split_ifs at h with hadj
  · unfold VerifyNonAdjacent at h
    rw [if_neg hadj] at h
    split_ifs at h with hexp
    · cases h
    refine ⟨hadj, by simpa using hexp, ?_⟩
    cases hv : verifyNewHeaderAndVals headerHash valsHash chainID untrustedHeader untrustedVals
      trustedHeader now maxClockDrift with
    | error e => rw [hv] at h; cases h
    | ok u => rfl
  · exact absurd rfl (VerifyAdjacent_failsOnly _ h reason)

/-- A header not above the trusted one and not the next one is rejected as invalid, by a
trusted header that has not expired. -/
lemma Verify_of_le
    (hle : untrustedHeader.Header.height ≤ trustedHeader.Header.height)
    (hadj : untrustedHeader.Header.height ≠ wrap64 (trustedHeader.Header.height + 1))
    (hexp : HeaderExpired trustedHeader trustingPeriod now = false) :
    ∃ reason, Verify crypto headerHash valsHash chainID trustedHeader trustedVals untrustedHeader
      untrustedVals trustingPeriod now maxClockDrift trustLevel = .error (.ErrInvalidHeader reason) := by
  have hnew : ∃ e, verifyNewHeaderAndVals headerHash valsHash chainID untrustedHeader untrustedVals
      trustedHeader now maxClockDrift = .error e := verifyNewHeaderAndVals_of_le hle
  obtain ⟨e, he⟩ := hnew
  refine ⟨e, ?_⟩
  rw [Verify, if_pos hadj, VerifyNonAdjacent, if_neg hadj, if_neg (by simp [hexp]), he]
  rfl

end Verify

end Light

end Tendermint
