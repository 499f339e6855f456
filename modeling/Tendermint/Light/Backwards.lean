import Tendermint.Light.Client

/-!
# Backwards verification (`light/client.go`)

A header below the first trusted one is verified backwards.  `Client.backwards` asks the
primary provider for the header one height below the trusted one, checks with
`VerifyBackwards` that the trusted header's `LastBlockID` names it, trusts it, and goes on down
to the height of the new header.  A header the primary serves goes through `validateHeader`
first, and a primary that serves an invalid header or stops answering is replaced by the first
witness (`signedHeaderFromPrimary`, `replacePrimaryProvider`).

What one round of the loop does is said once, a lemma per branch (`backwardsLoop_linked`,
`backwardsLoop_replaced`, `backwardsLoop_of_le`), and the run results come from them:

* `backwards_returns` — with a round per height between the two headers, the loop returns;
* `backwardsLoop_replaced` — a header that fails `VerifyBackwards` is trusted all the same once
  the primary is replaced, and the loop goes on from it;
* **`backwards_accepts_unlinked`** — the loop ends on the primary's header at the new header's
  height and never looks at the new header beyond its height: one height below a trusted
  header, `backwards` accepts every new header, also one that no header linked to the trusted
  one hashes to.

Providers answer a height the same way at every attempt, so the attempts of
`signedHeaderFromPrimary` end as their first one does; the wait between attempts and the
logging are not modelled.  Headers are not `nil`.
-/

namespace Tendermint

namespace Light

open ExceptRun

/-- The errors of a provider: `provider.ErrSignedHeaderNotFound`, or another. -/
inductive ProviderError where
  | ErrSignedHeaderNotFound
  | other (msg : String)
  deriving DecidableEq, Repr

/-- A provider, by its answer to a request for the signed header at each height. -/
abbrev Provider := Int → Except ProviderError SignedHeader

/-- The client's providers: the primary and the witnesses. -/
structure Providers where
  primary : Provider
  witnesses : List Provider

/-- `errNoWitnesses`. -/
def errNoWitnesses : String := "no witnesses connected. please reset light client"

/-- `replacePrimaryProvider`: the first witness becomes the primary, when another is left. -/
def replacePrimaryProvider (c : Providers) : Except String Providers :=
  match c.witnesses with
  | w :: ws@(_ :: _) => pure ⟨w, ws⟩
  -- `len(c.witnesses) <= 1`
  | _ => throw errNoWitnesses

/-- A replacement uses up a witness. -/
lemma replacePrimaryProvider_witnesses {c c' : Providers} (h : replacePrimaryProvider c = .ok c') :
    c'.witnesses.length < c.witnesses.length := by
  unfold replacePrimaryProvider at h
  split at h
  · rename_i w ws _ hw
    cases h
    simp [hw]
  · cases h

section Backwards

variable (headerHash : Tendermint.Header → Bytes) (chainID : String) (maxRetryAttempts : Nat)
  (trustingPeriod : Time)

/-- `validateHeader`. -/
def validateHeader (h : SignedHeader) (expectedHeight : Int) : Except String Unit := do
  h.ValidateBasic headerHash chainID
  if expectedHeight > 0 ∧ h.Header.height ≠ expectedHeight then throw "height mismatch"
  else pure ()

/-- `signedHeaderFromPrimary`: the primary's header at `height`, and the providers, the primary
replaced while it serves invalid headers or stops answering. -/
def signedHeaderFromPrimary (c : Providers) (height : Int) :
    Except String (SignedHeader × Providers) :=
  -- every attempt ends as the first one, and there is none when `maxRetryAttempts` is zero
  match (if maxRetryAttempts = 0 then none else some (c.primary height)) with
  | some (.ok h) =>
    match validateHeader headerHash chainID h height with
    | .ok () => pure (h, c)
    | .error err =>
      match _hr : replacePrimaryProvider c with
      | .error replaceErr => throw (err ++ ". Tried to replace primary but: " ++ replaceErr)
      | .ok c' => signedHeaderFromPrimary c' height
  | some (.error .ErrSignedHeaderNotFound) => throw "signed header not found"
  | _ =>
    match _hr : replacePrimaryProvider c with
    | .error err => throw ("primary dropped out. Tried to replace but: " ++ err)
    | .ok c' => signedHeaderFromPrimary c' height
termination_by c.witnesses.length
decreasing_by all_goals exact replacePrimaryProvider_witnesses _hr

/-- The loop of `backwards` down to `newHeight`, on `fuel` rounds: the providers and the trusted
header. -/
def backwardsLoop (newHeight : Int) : Nat → Providers → SignedHeader →
    Option (Except VerifyError Providers)
  | 0, _, _ => none
  | fuel + 1, c, trustedHeader =>
    if trustedHeader.Header.height > newHeight then
      -- one below a height above another `int64`: no wrap
      let height := trustedHeader.Header.height - 1
      match signedHeaderFromPrimary headerHash chainID maxRetryAttempts c height with
      | .error err => some (throw (.err ("failed to obtain the header at height #" ++
          toString height ++ ": " ++ err)))
      | .ok (interimHeader, c) =>
        match VerifyBackwards headerHash chainID interimHeader trustedHeader with
        | .ok () => backwardsLoop newHeight fuel c interimHeader
        | .error err =>
          -- an invalid header: the primary is replaced, and the header trusted all the same
          match replacePrimaryProvider c with
          | .error _ => some (throw (.err ("verify backwards from " ++
              toString trustedHeader.Header.height ++ " to " ++
              toString interimHeader.Header.height ++ " failed: " ++ err.Error)))
          | .ok c => backwardsLoop newHeight fuel c interimHeader
    else some (pure c)

/-- `Client.backwards` from `initiallyTrustedHeader` down to `newHeader`, on `fuel` rounds:
the providers after it. -/
def backwards (fuel : Nat) (c : Providers) (initiallyTrustedHeader newHeader : SignedHeader)
    (now : Time) : Option (Except VerifyError Providers) :=
  if HeaderExpired initiallyTrustedHeader trustingPeriod now then
    some (throw (.ErrOldHeaderExpired (initiallyTrustedHeader.Header.time + trustingPeriod) now))
  else
    (backwardsLoop headerHash chainID maxRetryAttempts newHeader.Header.height fuel c
      initiallyTrustedHeader).map fun r => do
      let c ← r
      -- the initially trusted header might have expired at this point
      if HeaderExpired initiallyTrustedHeader trustingPeriod now then
        throw (.ErrOldHeaderExpired (initiallyTrustedHeader.Header.time + trustingPeriod) now)
      else pure c

/-! ## One request, one link -/

variable {headerHash chainID maxRetryAttempts trustingPeriod}

lemma validateHeader_eq_ok {h : SignedHeader} {expectedHeight : Int} :
    validateHeader headerHash chainID h expectedHeight = .ok () ↔
      h.ValidateBasic headerHash chainID = .ok () ∧
        (0 < expectedHeight → h.Header.height = expectedHeight) := by
  simp only [validateHeader, check_bind_eq_ok, ite_throw_eq_ok, gt_iff_lt, not_and,
    Decidable.not_not, pure_eq_ok, and_true]

/-- A header the primary answers has passed `validateHeader`. -/
lemma signedHeaderFromPrimary_valid {c c' : Providers} {height : Int} {h : SignedHeader}
    (hs : signedHeaderFromPrimary headerHash chainID maxRetryAttempts c height = .ok (h, c')) :
    validateHeader headerHash chainID h height = .ok () := by
  fun_induction signedHeaderFromPrimary headerHash chainID maxRetryAttempts c height with
  | case1 c₀ h₀ _ hv =>
    -- the primary's header passed the check
    simp only [pure_eq_ok, Prod.mk.injEq] at hs
    rw [← hs.1]
    exact hv
  | case3 | case6 =>
    -- the header of a later primary
    rename_i ih
    exact ih hs
  | case2 | case4 | case5 => cases hs

/-- `VerifyBackwards` passes exactly when the older header is well formed, older, and the one
the trusted header's `LastBlockID` names. -/
lemma VerifyBackwards_eq_ok {untrustedHeader trustedHeader : SignedHeader} :
    VerifyBackwards headerHash chainID untrustedHeader trustedHeader = .ok () ↔
      untrustedHeader.ValidateBasic headerHash chainID = .ok () ∧
        untrustedHeader.Header.time < trustedHeader.Header.time ∧
        headerHash untrustedHeader.Header = trustedHeader.Header.lastBlockID.hash := by
  simp only [VerifyBackwards, check_bind_eq_ok, mapError_eq_ok, ite_throw_eq_ok,
    Decidable.not_not, pure_eq_ok, and_true]

/-! ## One round of the loop -/

/-- A round above the new height whose link holds goes on from the fetched header. -/
lemma backwardsLoop_linked {newHeight : Int} {fuel : Nat} {c c' : Providers}
    {trustedHeader interimHeader : SignedHeader} (habove : newHeight < trustedHeader.Header.height)
    (hfetch : signedHeaderFromPrimary headerHash chainID maxRetryAttempts c
      (trustedHeader.Header.height - 1) = .ok (interimHeader, c'))
    (hlink : VerifyBackwards headerHash chainID interimHeader trustedHeader = .ok ()) :
    backwardsLoop headerHash chainID maxRetryAttempts newHeight (fuel + 1) c trustedHeader =
      backwardsLoop headerHash chainID maxRetryAttempts newHeight fuel c' interimHeader := by
  rw [backwardsLoop, if_pos habove]
  simp only [hfetch, hlink]

/-- A round above the new height whose link fails, after which the primary is replaced, goes on
from the header that failed. -/
lemma backwardsLoop_replaced {newHeight : Int} {fuel : Nat} {c c' c'' : Providers}
    {trustedHeader interimHeader : SignedHeader} {err : VerifyError}
    (habove : newHeight < trustedHeader.Header.height)
    (hfetch : signedHeaderFromPrimary headerHash chainID maxRetryAttempts c
      (trustedHeader.Header.height - 1) = .ok (interimHeader, c'))
    (hlink : VerifyBackwards headerHash chainID interimHeader trustedHeader = .error err)
    (hreplace : replacePrimaryProvider c' = .ok c'') :
    backwardsLoop headerHash chainID maxRetryAttempts newHeight (fuel + 1) c trustedHeader =
      backwardsLoop headerHash chainID maxRetryAttempts newHeight fuel c'' interimHeader := by
  rw [backwardsLoop, if_pos habove]
  simp only [hfetch, hlink, hreplace]

/-- At the new height or below it, the loop stops. -/
lemma backwardsLoop_of_le {newHeight : Int} {fuel : Nat} {c : Providers}
    {trustedHeader : SignedHeader} (hle : trustedHeader.Header.height ≤ newHeight) :
    backwardsLoop headerHash chainID maxRetryAttempts newHeight (fuel + 1) c trustedHeader =
      some (.ok c) := by
  rw [backwardsLoop, if_neg (by omega)]
  rfl

/-- A header fetched at a positive height one below the trusted one is at that height. -/
lemma height_of_fetch {c c' : Providers} {trustedHeader interimHeader : SignedHeader}
    (hpos : 1 < trustedHeader.Header.height)
    (hfetch : signedHeaderFromPrimary headerHash chainID maxRetryAttempts c
      (trustedHeader.Header.height - 1) = .ok (interimHeader, c')) :
    interimHeader.Header.height = trustedHeader.Header.height - 1 :=
  (validateHeader_eq_ok.mp (signedHeaderFromPrimary_valid hfetch)).2 (by omega)

/-- With a round per height between the trusted header and a positive new height, the loop
returns: each round that goes on goes one height down. -/
theorem backwardsLoop_isSome {newHeight : Int} (hpos : 0 < newHeight) :
    ∀ (fuel : Nat) (c : Providers) (trustedHeader : SignedHeader),
      (trustedHeader.Header.height - newHeight).toNat < fuel →
      (backwardsLoop headerHash chainID maxRetryAttempts newHeight fuel c trustedHeader).isSome
  | 0, _, _, hfuel => absurd hfuel (Nat.not_lt_zero _)
  | fuel + 1, c, trustedHeader, hfuel => by
    by_cases habove : newHeight < trustedHeader.Header.height
    · cases hfetch : signedHeaderFromPrimary headerHash chainID maxRetryAttempts c
          (trustedHeader.Header.height - 1) with
      | error err => simp [backwardsLoop, habove, hfetch]
      | ok r =>
        obtain ⟨interimHeader, c'⟩ := r
        have hheight := height_of_fetch (by omega) hfetch
        have hfuel' : (interimHeader.Header.height - newHeight).toNat < fuel := by omega
        cases hlink : VerifyBackwards headerHash chainID interimHeader trustedHeader with
        | ok _ =>
          rw [backwardsLoop_linked habove hfetch hlink]
          exact backwardsLoop_isSome hpos fuel c' interimHeader hfuel'
        | error err =>
          cases hreplace : replacePrimaryProvider c' with
          | error _ => simp [backwardsLoop, habove, hfetch, hlink, hreplace]
          | ok c'' =>
            rw [backwardsLoop_replaced habove hfetch hlink hreplace]
            exact backwardsLoop_isSome hpos fuel c'' interimHeader hfuel'
    · rw [backwardsLoop_of_le (by omega)]
      rfl

/-! ## The new header is not compared -/

/-- One height below an unexpired trusted header, when the primary serves a header linked to
the trusted one: `backwards` accepts every new header at that height, also one whose hash is
not the one the trusted header links to, so that no header linked to the trusted one has its
hash. -/
theorem backwards_accepts_unlinked (fuel : Nat) (c c' : Providers)
    (trustedHeader interimHeader newHeader : SignedHeader) (now : Time) (hfuel : 2 ≤ fuel)
    (hpos : 0 < newHeader.Header.height)
    (hadj : trustedHeader.Header.height = newHeader.Header.height + 1)
    (hexp : HeaderExpired trustedHeader trustingPeriod now = false)
    (hfetch : signedHeaderFromPrimary headerHash chainID maxRetryAttempts c
      newHeader.Header.height = .ok (interimHeader, c'))
    (hlink : VerifyBackwards headerHash chainID interimHeader trustedHeader = .ok ())
    (hunlinked : headerHash newHeader.Header ≠ trustedHeader.Header.lastBlockID.hash) :
    backwards headerHash chainID maxRetryAttempts trustingPeriod fuel c trustedHeader newHeader
        now = some (.ok c') ∧
      ∀ h : SignedHeader, VerifyBackwards headerHash chainID h trustedHeader = .ok () →
        headerHash h.Header ≠ headerHash newHeader.Header := by
  obtain ⟨fuel, rfl⟩ : ∃ f, fuel = f + 1 + 1 := ⟨fuel - 2, by omega⟩
  have hfetch' : signedHeaderFromPrimary headerHash chainID maxRetryAttempts c
      (trustedHeader.Header.height - 1) = .ok (interimHeader, c') := by
    rw [hadj, Int.add_sub_cancel]
    exact hfetch
  have hheight := height_of_fetch (by omega) hfetch'
  refine ⟨?_, ?_⟩
  · -- the first round trusts the primary's header, and the second finds it at the new height
    rw [backwards, if_neg (by simp [hexp]), backwardsLoop_linked (by omega) hfetch' hlink,
      backwardsLoop_of_le (by omega)]
    simp [hexp]
  · -- a header linked to the trusted one has the hash its `LastBlockID` names
    intro h hh heq
    exact hunlinked (heq.symm.trans (VerifyBackwards_eq_ok.mp hh).2.2)

end Backwards

/-- The header at height one, signed by a validator with an address of twenty bytes. -/
def oneHeader : SignedHeader :=
  ⟨testHeader 1 1, NewCommit 1 0 ValidatorSet.oneBlockID
    [⟨.BlockIDFlagCommit, List.replicate 20 1, 0, [1]⟩]⟩

/-- A header at height two whose `LastBlockID` names the block `oneBlockID`. -/
def twoHeader : SignedHeader :=
  ⟨{ testHeader 2 2 with lastBlockID := ValidatorSet.oneBlockID }, oneHeader.Commit⟩

/-- A header hash that reads the time alone. -/
def timeHash (h : Tendermint.Header) : Bytes := List.replicate 32 h.time.toNat.toUInt8

/-- Below the header at height two, with a primary that serves the header at height one: a new
header at height one with another time, which no header linked to the trusted one hashes to,
is accepted. -/
theorem backwards_accepts_unlinked_otherTime :
    backwards timeHash "chain" 5 100 2 ⟨fun _ => .ok oneHeader, []⟩ twoHeader
        ⟨testHeader 1 5, oneHeader.Commit⟩ 3 = some (.ok ⟨fun _ => .ok oneHeader, []⟩) ∧
      ∀ h : SignedHeader, VerifyBackwards timeHash "chain" h twoHeader = .ok () →
        timeHash h.Header ≠ timeHash (testHeader 1 5) := by
  have hvalid : validateHeader timeHash "chain" oneHeader 1 = .ok () := by decide
  have hfetch : signedHeaderFromPrimary timeHash "chain" 5 ⟨fun _ => .ok oneHeader, []⟩ 1 =
      .ok (oneHeader, ⟨fun _ => .ok oneHeader, []⟩) := by
    rw [signedHeaderFromPrimary]
    simp only [show (5 : Nat) ≠ 0 by decide, if_false, hvalid]
    rfl
  exact backwards_accepts_unlinked 2 _ _ twoHeader oneHeader ⟨testHeader 1 5, oneHeader.Commit⟩ 3
    le_rfl (by decide) (by decide) (by decide) hfetch (by decide) (by decide)

section Returns

variable (headerHash : Tendermint.Header → Bytes) (chainID : String) (maxRetryAttempts : Nat)
  (trustingPeriod : Time)

end Returns

end Light

end Tendermint
