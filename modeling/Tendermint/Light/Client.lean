import Tendermint.Light.Verifier

/-!
# Bisection (`light/client.go`)

`Client.bisection` moves trust from a trusted header to a new one through headers in between.
It keeps a cache of headers, the new one first, and a depth into it.  It verifies the header at
the depth from the trusted one; on success that header becomes the trusted one and the cache
is cut back to the headers above it.  When `Verify` answers that the trusted validators cannot
vouch for the header (`ErrNewValSetCantBeTrusted`), it goes one step down the cache, and at the
bottom of the cache it first asks the source for the header at

  `pivotHeight = trustedHeight + (headerHeight - trustedHeight) * 9 / 16`,

computed in `int64`.  Every other answer ends the bisection with `ErrVerificationFailed`.

Without an overflow the pivot lies strictly between the two heights once they are two apart
(`pivotHeight_mem`).  But the product `(headerHeight - trustedHeight) * 9` wraps around when
the gap is at least `2^60`, and the pivot falls below the trusted height:

* **`bisection_requests_below_trusted`** — for every trusted header of positive height and new
  header whose gap wraps the product, and on which `Verify` answers `ErrNewValSetCantBeTrusted`,
  and for every source that answers a height with a header of that height or an error, the
  bisection asks for the header at `pivotHeight`, below the trusted height, and ends with
  `ErrVerificationFailed` from the trusted height to that pivot.

The loop has no bound in Go; the model runs on fuel, and the result is the same for any fuel
from two on.  The source (`signedHeaderAndValSetFrom`) is a function from a height to a header
and its validators, or the error of the request.
-/

namespace Tendermint

namespace Light

/-- `bisectionNumerator`. -/
def bisectionNumerator : Int := 9

/-- `bisectionDenominator`. -/
def bisectionDenominator : Int := 16

/-- `headerSet`: a header and its validator set. -/
structure headerSet where
  sh : SignedHeader
  valSet : ValidatorSet

/-- The errors of `bisection`: `ErrVerificationFailed{From, To, Reason}`, and a panic. -/
inductive BisectionError where
  | ErrVerificationFailed (From To : Int) (Reason : VerifyError)
  | panic (msg : String)
  deriving DecidableEq, Repr

/-- `pivotHeight`, each `int64` operation wrapping around; Go's `/` rounds towards zero. -/
def pivotHeight (trustedHeight height : Int) : Int :=
  wrap64 (trustedHeight +
    (wrap64 (wrap64 (height - trustedHeight) * bisectionNumerator)).tdiv bisectionDenominator)

/-- Without an overflow, the pivot of two heights two apart or more lies strictly between them. -/
theorem pivotHeight_mem {t h : Int} (ht : 0 ≤ t) (hth : t + 2 ≤ h) (hh : h ≤ MaxInt64)
    (hfit : (h - t) * bisectionNumerator ≤ MaxInt64) : t < pivotHeight t h ∧ pivotHeight t h < h := by
  unfold bisectionNumerator at hfit
  have hd : wrap64 (h - t) = h - t := wrap64_of_mem (by unfold InInt64 MinInt64 MaxInt64 at *; omega)
  have hm : wrap64 ((h - t) * 9) = (h - t) * 9 :=
    wrap64_of_mem (by unfold InInt64 MinInt64 MaxInt64 at *; omega)
  have hq : ((h - t) * 9).tdiv 16 = (h - t) * 9 / 16 := Int.tdiv_eq_ediv_of_nonneg (by omega)
  unfold pivotHeight bisectionNumerator bisectionDenominator
  rw [hd, hm, hq, wrap64_of_mem (by unfold InInt64 MinInt64 MaxInt64 at *; omega)]
  omega

theorem pivotHeight_mem_oneThree :
    (0 ≤ (1 : Int) ∧ (1 : Int) + 2 ≤ 3 ∧ (3 : Int) ≤ MaxInt64 ∧
      (3 - 1) * bisectionNumerator ≤ MaxInt64) ∧
    (1 < pivotHeight 1 3 ∧ pivotHeight 1 3 < 3) ∧ pivotHeight 1 3 = 2 :=
  ⟨by decide, pivotHeight_mem (t := 1) (h := 3) (by decide) (by decide) (by decide) (by decide),
    by decide⟩

/-- A product that wraps to `-16` or below makes the pivot fall below the trusted height. -/
lemma pivotHeight_lt {t h : Int} (ht : 0 < t) (hth : t < h) (hh : h ≤ MaxInt64)
    (hwrap : wrap64 ((h - t) * bisectionNumerator) ≤ -bisectionDenominator) :
    pivotHeight t h < t := by
  unfold bisectionNumerator bisectionDenominator at hwrap
  have hd : wrap64 (h - t) = h - t := wrap64_of_mem (by unfold InInt64 MinInt64 MaxInt64 at *; omega)
  generalize hm : wrap64 ((h - t) * 9) = m at hwrap
  have hmin : MinInt64 ≤ m := hm ▸ (wrap64_mem _).1
  -- Go rounds the negative quotient towards zero
  have hq : m.tdiv 16 = -((-m) / 16) := by
    rw [← Int.tdiv_eq_ediv_of_nonneg (by omega), Int.neg_tdiv, neg_neg]
  unfold pivotHeight bisectionNumerator bisectionDenominator
  unfold MinInt64 at hmin
  rw [hd, hm, hq, wrap64_of_mem (by unfold InInt64 MinInt64 MaxInt64 at *; omega)]
  omega

section Bisection

variable (crypto : Crypto) (headerHash : Tendermint.Header → Bytes)
  (valsHash : ValidatorSet → Bytes) (chainID : String) (trustingPeriod now maxClockDrift : Time)
  (trustLevel : Fraction) (source : Int → Except String headerSet)

/-- The loop of `bisection`, on `fuel` rounds: the trusted header, the header cache and the
depth into it. -/
def bisectionLoop : Nat → headerSet → List headerSet → Nat → Option (Except BisectionError Unit)
  | 0, _, _, _ => none
  | fuel + 1, trusted, headerCache, depth =>
    match headerCache[depth]? with
    | none => some (.error (.panic "runtime error: index out of range"))
    | some untrusted =>
      match Verify crypto headerHash valsHash chainID trusted.sh trusted.valSet untrusted.sh
          untrusted.valSet trustingPeriod now maxClockDrift trustLevel with
      | .ok () =>
        if depth = 0 then some (.ok ())
        -- the verified header is trusted, and the cache is cut back to the headers above it
        else bisectionLoop fuel untrusted (headerCache.take depth) 0
      | .error (.ErrNewValSetCantBeTrusted _) =>
        if depth = headerCache.length - 1 then
          let pivot := pivotHeight trusted.sh.Header.height untrusted.sh.Header.height
          match source pivot with
          | .error e =>
            some (.error (.ErrVerificationFailed trusted.sh.Header.height pivot (.err e)))
          | .ok interim => bisectionLoop fuel trusted (headerCache ++ [interim]) (depth + 1)
        else bisectionLoop fuel trusted headerCache (depth + 1)
      | .error (.panic msg) => some (.error (.panic msg))
      | .error e =>
        some (.error (.ErrVerificationFailed trusted.sh.Header.height untrusted.sh.Header.height e))

/-- `Client.bisection` from `initiallyTrusted` to `newHeader`, on `fuel` rounds. -/
def bisection (fuel : Nat) (initiallyTrusted newHeader : headerSet) :
    Option (Except BisectionError Unit) :=
  bisectionLoop crypto headerHash valsHash chainID trustingPeriod now maxClockDrift trustLevel
    source fuel initiallyTrusted [newHeader] 0

/-- A trusted header of positive height, a new header whose gap wraps the pivot's product and
on which `Verify` answers `ErrNewValSetCantBeTrusted`, and a source that answers a height with
a header of that height or an error: the bisection asks for the header at `pivotHeight`, below
the trusted height, and ends with `ErrVerificationFailed` from the trusted height to it. -/
theorem bisection_requests_below_trusted (fuel : Nat) (trusted target : headerSet)
    (reason : String) (hfuel : 2 ≤ fuel) (ht : 0 < trusted.sh.Header.height)
    (htT : trusted.sh.Header.height < target.sh.Header.height)
    (hT : target.sh.Header.height ≤ MaxInt64)
    (hwrap : wrap64 ((target.sh.Header.height - trusted.sh.Header.height) * bisectionNumerator) ≤
      -bisectionDenominator)
    (hcant : Verify crypto headerHash valsHash chainID trusted.sh trusted.valSet target.sh
      target.valSet trustingPeriod now maxClockDrift trustLevel =
        .error (.ErrNewValSetCantBeTrusted reason))
    (hsource : ∀ p hs, source p = .ok hs → hs.sh.Header.height = p) :
    pivotHeight trusted.sh.Header.height target.sh.Header.height < trusted.sh.Header.height ∧
      ∃ e, bisection crypto headerHash valsHash chainID trustingPeriod now maxClockDrift
        trustLevel source fuel trusted target =
          some (.error (.ErrVerificationFailed trusted.sh.Header.height
            (pivotHeight trusted.sh.Header.height target.sh.Header.height) e)) := by
  have hpivot := pivotHeight_lt ht htT hT hwrap
  obtain ⟨-, hexp, -⟩ := Verify_cantBeTrusted hcant
  obtain ⟨fuel, rfl⟩ : ∃ f, fuel = f + 2 := ⟨fuel - 2, by omega⟩
  refine ⟨hpivot, ?_⟩
  -- first round: the new header cannot be trusted, and the cache has no header below it
  unfold bisection
  rw [bisectionLoop]
  simp only [List.getElem?_cons_zero, hcant, List.length_singleton, Nat.sub_self, if_true]
  cases hs : source (pivotHeight trusted.sh.Header.height target.sh.Header.height) with
  | error e => exact ⟨.err e, rfl⟩
  | ok interim =>
    -- second round: the header at the pivot is not above the trusted one
    have hheight := hsource _ _ hs
    have hadj : interim.sh.Header.height ≠ wrap64 (trusted.sh.Header.height + 1) := by
      rw [wrap64_of_mem (by unfold InInt64 MinInt64 MaxInt64 at *; omega)]
      omega
    obtain ⟨r, hr⟩ : ∃ r, Verify crypto headerHash valsHash chainID trusted.sh trusted.valSet
        interim.sh interim.valSet trustingPeriod now maxClockDrift trustLevel =
          .error (.ErrInvalidHeader r) :=
      Verify_of_le (by omega) hadj hexp
    refine ⟨.ErrInvalidHeader r, ?_⟩
    dsimp only
    rw [bisectionLoop]
    simp only [List.cons_append, List.nil_append, List.getElem?_cons_succ,
      List.getElem?_cons_zero, hr, hheight]

end Bisection

/-- A header of the chain `chain` at `height` and `time`, with no hash but its proposer's
address. -/
def testHeader (height : Int) (time : Time) : Tendermint.Header :=
  ⟨⟨0, 0⟩, "chain", height, time, ⟨[], ⟨0, []⟩⟩, [], [], [], [], [], [], [], [],
    List.replicate 20 1⟩

/-- A height `2^60` above the first. -/
def farHeight : Int := 2 ^ 60 + 1

/-- The trusted header at height one, whose one validator is not the far header's signer. -/
def trustedSet : headerSet :=
  ⟨⟨testHeader 1 1, ValidatorSet.loneCommit⟩, ⟨[⟨List.replicate 20 2, [], 1, 0⟩], none, 0⟩⟩

/-- The header at `farHeight`, signed by the one-validator set of `loneSet`. -/
def farSet : headerSet :=
  ⟨⟨testHeader farHeight 2, NewCommit farHeight 0 ValidatorSet.oneBlockID
    [⟨.BlockIDFlagCommit, List.replicate 20 1, 0, [1]⟩]⟩, ValidatorSet.loneSet⟩

/-- From the header at height one to the one at `2^60 + 1`, whose signer the trusted set does not
know, under a source that answers nothing: the pivot is below one. -/
theorem bisection_requests_below_trusted_farHeight :
    (∃ reason, Verify VoteSet.echoCrypto (fun _ => List.replicate 32 1) (fun _ => []) "chain"
      trustedSet.sh trustedSet.valSet farSet.sh farSet.valSet 100 2 10 ⟨1, 3⟩ =
        .error (.ErrNewValSetCantBeTrusted reason)) ∧
    pivotHeight 1 farHeight < 1 ∧
      ∃ e, bisection VoteSet.echoCrypto (fun _ => List.replicate 32 1) (fun _ => []) "chain" 100 2
        10 ⟨1, 3⟩ (fun _ => .error "unavailable") 2 trustedSet farSet =
          some (.error (.ErrVerificationFailed 1 (pivotHeight 1 farHeight) e)) := by
  have hnew : verifyNewHeaderAndVals (fun _ => List.replicate 32 1) (fun _ => []) "chain" farSet.sh
      farSet.valSet trustedSet.sh 2 10 = .ok () := by decide
  have htrust : trustedSet.valSet.VerifyCommitLightTrusting VoteSet.echoCrypto "chain"
      farSet.sh.Commit ⟨1, 3⟩ = .error (ErrNotEnoughVotingPowerSigned 0 0) := by decide
  have hcant : Verify VoteSet.echoCrypto (fun _ => List.replicate 32 1) (fun _ => []) "chain"
      trustedSet.sh trustedSet.valSet farSet.sh farSet.valSet 100 2 10 ⟨1, 3⟩ =
        .error (VerifyError.ofGo .ErrNewValSetCantBeTrusted (ErrNotEnoughVotingPowerSigned 0 0)) := by
    rw [Verify, if_pos (by decide), VerifyNonAdjacent, if_neg (by decide), if_neg (by decide), hnew]
    simp only [Except.mapError, ExceptRun.ok_bind, htrust,
      IsErrNotEnoughVotingPowerSigned_ErrNotEnoughVotingPowerSigned, if_true]
    rfl
  exact ⟨⟨_, hcant⟩, bisection_requests_below_trusted VoteSet.echoCrypto _ _ "chain" 100 2 10
    ⟨1, 3⟩ _ 2 trustedSet farSet _ le_rfl (by decide) (by decide) (by decide) (by decide) hcant
    (fun _ _ h => by cases h)⟩

end Light

end Tendermint
