import Tendermint.Types.Basic

/-!
# Validators (`types/validator.go`)

A validator is an address, a public key, a voting power and a proposer priority.  The one
operation with logic in it is `CompareProposerPriority`, the tie-break used to pick the
proposer: higher priority wins, and on equal priority the smaller address wins.  Two
validators with equal priority *and* equal address make it panic, which is why the validator
set must keep addresses distinct (`ValidatorSet.Valid.nodup`).

`comparePick` is the same comparison reporting *which* argument wins; the validator set
needs that to know which list entry Go's pointer refers to.
-/

namespace Tendermint

/-- `crypto.PubKey`, by its key bytes. -/
abbrev PubKey := Bytes

/-- `crypto.AddressSize`. -/
def AddressSize : Nat := 20

/-- `types.Validator`.  The Go `int64` fields are `Int`s. -/
structure Validator where
  address : Address
  pubKey : PubKey
  votingPower : Int
  proposerPriority : Int
  deriving DecidableEq, Repr

namespace Validator

/-- `CompareProposerPriority` on two present validators, answering `true` when `other` is the
one returned. -/
def comparePick (v other : Validator) : Go Bool :=
  if v.proposerPriority > other.proposerPriority then pure false
  else if v.proposerPriority < other.proposerPriority then pure true
  else
    match bytesCompare v.address other.address with
    | .lt => pure false
    | .gt => pure true
    | .eq => throw (.panic "Cannot compare identical validators")

/-- `(*Validator).CompareProposerPriority`: the one with higher `ProposerPriority`, the nil
receiver losing to anything. -/
def CompareProposerPriority : Option Validator → Validator → Go Validator
  | none, other => pure other
  | some v, other => do
      let pickOther ← comparePick v other
      pure (if pickOther then other else v)

/-- `(*Validator).ValidateBasic` on a non-nil validator whose key is present. -/
def ValidateBasic (v : Validator) : Except String Unit :=
  if v.votingPower < 0 then throw "validator has negative voting power"
  else if v.address.length ≠ AddressSize then throw "validator address is the wrong size"
  else pure ()

/-- `comparePick` panics only on equal priorities and equal addresses. -/
lemma comparePick_ok_of_ne {v other : Validator} (h : v.address ≠ other.address) :
    ∃ b, comparePick v other = .ok b := by
  unfold comparePick
  split_ifs
  · exact ⟨_, rfl⟩
  · exact ⟨_, rfl⟩
  · cases hc : bytesCompare v.address other.address with
    | lt => exact ⟨false, rfl⟩
    | gt => exact ⟨true, rfl⟩
    | eq => exact absurd (bytesCompare_eq_iff.mp hc) h

end Validator

end Tendermint
