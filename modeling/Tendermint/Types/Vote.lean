import Tendermint.Types.Validator
import Tendermint.Lib.Varint

/-!
# Block IDs and votes (`types/vote.go`, `types/block.go`, `types/part_set.go`)

A vote names the block it is for by a `BlockID`: the block hash and the header of the part
set the block was split into.  Vote sets file votes under `BlockID.Key`, the hash followed by
the protobuf bytes of the part-set header, so this file models that encoding byte for byte
(`PartSetHeader.Marshal`, with the varints of `Lib.Varint`).

Signing goes through the canonical form of a vote (`CanonicalizeVote`), whose block ID is
rebuilt with `BlockIDFromProto`: that function validates the hash lengths, and
`CanonicalizeBlockID` *panics* when they are wrong.  So `Vote.Verify` can panic, and does so
before it looks at any signature.

The cryptography and the proto encoder of canonical votes are parameters (`Crypto`): every
result of the development holds for every signature scheme and every encoder.  Time is an
integer number of nanoseconds, `0` being Go's zero `time.Time`.
-/

namespace Tendermint

/-- `time.Time`, in nanoseconds from Go's zero time. -/
abbrev Time := Int

/-- `tmhash.Size`. -/
def tmhashSize : Nat := 32

/-- `ValidateHash`: a hash is empty or exactly `tmhash.Size` bytes long. -/
def ValidateHash (h : Bytes) : Except String Unit :=
  if h.length > 0 ∧ h.length ≠ tmhashSize then
    throw ("expected size to be " ++ toString tmhashSize ++ " bytes, got " ++
      toString h.length ++ " bytes")
  else pure ()

lemma ValidateHash_eq_ok {h : Bytes} :
    ValidateHash h = .ok () ↔ h = [] ∨ h.length = tmhashSize := by
  unfold ValidateHash
  split_ifs with hbad
  · have hne : h ≠ [] := fun he => by simp [he] at hbad
    exact iff_of_false (fun he => nomatch he) (by simp [hne, hbad.2])
  · have hok : h = [] ∨ h.length = tmhashSize := by
      by_cases he : h = []
      · exact .inl he
      · exact .inr (by simp_all [List.length_pos_iff])
    exact iff_of_true rfl hok

/-- `tmproto.SignedMsgType`, by its named values. -/
inductive SignedMsgType where
  | UnknownType
  | PrevoteType
  | PrecommitType
  | ProposalType
  deriving DecidableEq, Repr

/-- `IsVoteTypeValid`. -/
def IsVoteTypeValid : SignedMsgType → Bool
  | .PrevoteType | .PrecommitType => true
  | _ => false

/-! ## Part-set headers and block IDs -/

/-- `types.PartSetHeader`. -/
structure PartSetHeader where
  total : UInt32
  hash : Bytes
  deriving DecidableEq, Repr

namespace PartSetHeader

/-- `IsZero`. -/
def IsZero (psh : PartSetHeader) : Bool := psh.total == 0 && psh.hash.isEmpty

/-- `Equals`. -/
def Equals (psh other : PartSetHeader) : Bool := psh.total == other.total && psh.hash == other.hash

/-- `ValidateBasic`. -/
def ValidateBasic (psh : PartSetHeader) : Except String Unit :=
  match ValidateHash psh.hash with
  | .error e => throw ("wrong Hash: " ++ e)
  | .ok () => pure ()

/-- `ToProto().Marshal()`: gogoproto writes `Total` as field 1 (a varint) and `Hash` as
field 2 (length-delimited), each only when it is not the zero value. -/
def Marshal (psh : PartSetHeader) : Bytes :=
  (if psh.total ≠ 0 then 0x08 :: Varint.encode psh.total.toNat else []) ++
    (if psh.hash.length > 0 then 0x12 :: Varint.encode psh.hash.length ++ psh.hash else [])

end PartSetHeader

/-- `types.BlockID`. -/
structure BlockID where
  hash : Bytes
  partSetHeader : PartSetHeader
  deriving DecidableEq, Repr

namespace BlockID

/-- `Equals`. -/
def Equals (blockID other : BlockID) : Bool :=
  blockID.hash == other.hash && blockID.partSetHeader.Equals other.partSetHeader

/-- `Key`: the hash followed by the proto bytes of the part-set header (Go's `Marshal` of a
part-set header never fails, so neither does `Key`). -/
def Key (blockID : BlockID) : Bytes := blockID.hash ++ blockID.partSetHeader.Marshal

/-- `ValidateBasic`. -/
def ValidateBasic (blockID : BlockID) : Except String Unit :=
  match ValidateHash blockID.hash with
  | .error _ => throw "wrong Hash"
  | .ok () =>
      match blockID.partSetHeader.ValidateBasic with
      | .error e => throw ("wrong PartSetHeader: " ++ e)
      | .ok () => pure ()

/-- `IsZero`: the block ID of a nil vote. -/
def IsZero (blockID : BlockID) : Bool := blockID.hash.isEmpty && blockID.partSetHeader.IsZero

/-- `IsComplete`: the block ID of a vote for a block. -/
def IsComplete (blockID : BlockID) : Bool :=
  blockID.hash.length == tmhashSize && blockID.partSetHeader.total > 0 &&
    blockID.partSetHeader.hash.length == tmhashSize

/-- `Equals` compares every field. -/
@[simp] lemma Equals_iff {a b : BlockID} : a.Equals b = true ↔ a = b := by
  obtain ⟨ha, ⟨ta, pa⟩⟩ := a
  obtain ⟨hb, ⟨tb, pb⟩⟩ := b
  simp [Equals, PartSetHeader.Equals]

/-- The zero block ID is Go's `BlockID{}`. -/
lemma IsZero_iff {b : BlockID} : b.IsZero = true ↔ b = ⟨[], ⟨0, []⟩⟩ := by
  obtain ⟨h, ⟨t, p⟩⟩ := b
  simp [IsZero, PartSetHeader.IsZero]

/-- The zero block ID has an empty hash, so it is not complete. -/
lemma IsComplete_eq_false_of_IsZero {b : BlockID} (h : b.IsZero = true) : b.IsComplete = false := by
  rw [IsZero_iff.mp h]
  rfl

lemma Key_of_IsZero {b : BlockID} (h : b.IsZero = true) : b.Key = [] := by
  rw [IsZero_iff.mp h]
  rfl

/-- The key of a complete block ID writes out the hash, the part count and the parts hash. -/
lemma Key_of_IsComplete {b : BlockID} (h : b.IsComplete = true) :
    b.Key = b.hash ++ (0x08 :: Varint.encode b.partSetHeader.total.toNat) ++
      (0x12 :: Varint.encode tmhashSize ++ b.partSetHeader.hash) := by
  simp only [IsComplete, Bool.and_eq_true, beq_iff_eq, decide_eq_true_eq] at h
  obtain ⟨⟨hh, ht⟩, hp⟩ := h
  have ht0 : b.partSetHeader.total ≠ 0 := by
    intro h0
    rw [h0] at ht
    exact absurd ht (by decide)
  simp [Key, PartSetHeader.Marshal, ht0, hp, tmhashSize]

/-- On the block IDs a valid vote can carry, nil or complete, `Key` is injective: the hash has
a fixed length and the varints of the header are self-delimiting. -/
lemma Key_inj {a b : BlockID} (ha : a.IsZero = true ∨ a.IsComplete = true)
    (hb : b.IsZero = true ∨ b.IsComplete = true) (h : a.Key = b.Key) : a = b := by
  rcases ha with ha | ha <;> rcases hb with hb | hb
  · rw [IsZero_iff.mp ha, IsZero_iff.mp hb]
  · rw [Key_of_IsZero ha, Key_of_IsComplete hb] at h
    simp at h
  · rw [Key_of_IsComplete ha, Key_of_IsZero hb] at h
    simp at h
  · rw [Key_of_IsComplete ha, Key_of_IsComplete hb] at h
    have hla : a.hash.length = tmhashSize := by
      simp only [IsComplete, Bool.and_eq_true, beq_iff_eq] at ha
      exact ha.1.1
    have hlb : b.hash.length = tmhashSize := by
      simp only [IsComplete, Bool.and_eq_true, beq_iff_eq] at hb
      exact hb.1.1
    simp only [List.append_assoc] at h
    -- the hashes have one length, then each varint is read off in turn
    obtain ⟨hh, h⟩ := List.append_inj h (hla.trans hlb.symm)
    simp only [List.cons_append, List.cons.injEq, true_and] at h
    obtain ⟨ht, h⟩ := Varint.encode_append_inj h
    simp only [List.cons.injEq, true_and] at h
    have hp := (Varint.encode_append_inj h).2
    obtain ⟨ah, ⟨ta, pa⟩⟩ := a
    obtain ⟨bh, ⟨tb, pb⟩⟩ := b
    simp only at hh ht hp
    simp [hh, UInt32.toNat_inj.mp ht, hp]

end BlockID

/-- `PartSetHeaderFromProto`, on the proto fields (the model does not separate the proto type). -/
def PartSetHeaderFromProto (ppsh : PartSetHeader) : Except String PartSetHeader := do
  ppsh.ValidateBasic
  pure ppsh

/-- `BlockIDFromProto`, on the proto fields. -/
def BlockIDFromProto (bID : BlockID) : Except String BlockID := do
  let ph ← PartSetHeaderFromProto bID.partSetHeader
  let blockID : BlockID := { hash := bID.hash, partSetHeader := ph }
  blockID.ValidateBasic
  pure blockID

/-! ## Canonical votes and signatures -/

/-- `tmproto.CanonicalBlockID`. -/
structure CanonicalBlockID where
  hash : Bytes
  partSetHeader : PartSetHeader
  deriving DecidableEq, Repr

/-- `tmproto.CanonicalVote`: what a validator signs. -/
structure CanonicalVote where
  type : SignedMsgType
  height : Int
  round : Int
  blockID : Option CanonicalBlockID
  timestamp : Time
  chainID : String
  deriving DecidableEq, Repr

/-- `CanonicalizeBlockID`: `nil` for the zero block ID, and a panic when `BlockIDFromProto`
rejects the ID. -/
def CanonicalizeBlockID (bid : BlockID) : Go (Option CanonicalBlockID) :=
  match BlockIDFromProto bid with
  | .error e => throw (.panic e)
  | .ok rbid =>
      if rbid.IsZero then pure none
      else pure (some { hash := bid.hash, partSetHeader := bid.partSetHeader })

/-- What the model takes of the libraries it does not model: the address and signature check
of `crypto.PubKey`, and `protoio.MarshalDelimited` on canonical votes. -/
structure Crypto where
  pubKeyAddress : PubKey → Address
  verifySignature : PubKey → Bytes → Bytes → Bool
  marshalDelimited : CanonicalVote → Bytes

/-- `types.Vote`.  The Go `int32` and `int64` fields are `Int`s. -/
structure Vote where
  type : SignedMsgType
  height : Int
  round : Int
  blockID : BlockID
  timestamp : Time
  validatorAddress : Address
  validatorIndex : Int
  signature : Bytes
  deriving DecidableEq, Repr

/-- The sentinel errors of `types/vote.go`, which `errors.Is` finds through any wrapping. -/
inductive VoteErr where
  | ErrVoteUnexpectedStep
  | ErrVoteInvalidValidatorIndex
  | ErrVoteInvalidValidatorAddress
  | ErrVoteInvalidSignature
  | ErrVoteInvalidBlockHash
  | ErrVoteNonDeterministicSignature
  | ErrVoteNil
  deriving DecidableEq, Repr

/-- `CanonicalizeVote`. -/
def CanonicalizeVote (chainID : String) (vote : Vote) : Go CanonicalVote := do
  let blockID ← CanonicalizeBlockID vote.blockID
  pure { type := vote.type, height := vote.height, round := vote.round, blockID := blockID,
         timestamp := vote.timestamp, chainID := chainID }

/-- `VoteSignBytes`. -/
def VoteSignBytes (crypto : Crypto) (chainID : String) (vote : Vote) : Go Bytes := do
  let pb ← CanonicalizeVote chainID vote
  pure (crypto.marshalDelimited pb)

/-- `MaxSignatureSize`. -/
def MaxSignatureSize : Nat := 64

/-! ## Commit signatures -/

/-- `BlockIDFlag`. -/
inductive BlockIDFlag where
  | BlockIDFlagAbsent
  | BlockIDFlagCommit
  | BlockIDFlagNil
  deriving DecidableEq, Repr

/-- `types.CommitSig`. -/
structure CommitSig where
  blockIDFlag : BlockIDFlag
  validatorAddress : Address
  timestamp : Time
  signature : Bytes
  deriving DecidableEq, Repr

/-- `NewCommitSigAbsent`: the flag alone, every other field zero. -/
def NewCommitSigAbsent : CommitSig := ⟨.BlockIDFlagAbsent, [], 0, []⟩

namespace CommitSig

/-- `ForBlock`. -/
def ForBlock (cs : CommitSig) : Bool := cs.blockIDFlag == .BlockIDFlagCommit

/-- `Absent`. -/
def Absent (cs : CommitSig) : Bool := cs.blockIDFlag == .BlockIDFlagAbsent

end CommitSig

namespace Vote

/-- `Verify`: the key must belong to the vote's address and sign the vote's canonical bytes.
A returned error is one of the two sentinels; building the sign bytes can panic. -/
def Verify (crypto : Crypto) (vote : Vote) (chainID : String) (pubKey : PubKey) :
    Go (Option VoteErr) :=
  if crypto.pubKeyAddress pubKey ≠ vote.validatorAddress then
    pure (some .ErrVoteInvalidValidatorAddress)
  else do
    let signBytes ← VoteSignBytes crypto chainID vote
    if !crypto.verifySignature pubKey signBytes vote.signature then
      pure (some .ErrVoteInvalidSignature)
    else pure none

/-- `(*Vote).CommitSig` on a present vote: a vote for a complete block ID commits, a vote
for the zero ID is nil, and any other block ID panics. -/
def CommitSig (vote : Vote) : Go CommitSig :=
  if vote.blockID.IsComplete then
    pure ⟨.BlockIDFlagCommit, vote.validatorAddress, vote.timestamp, vote.signature⟩
  else if vote.blockID.IsZero then
    pure ⟨.BlockIDFlagNil, vote.validatorAddress, vote.timestamp, vote.signature⟩
  else throw (.panic "Invalid vote %v - expected BlockID to be either empty or complete")

/-- `ValidateBasic`. -/
def ValidateBasic (vote : Vote) : Except String Unit :=
  if !IsVoteTypeValid vote.type then throw "invalid Type"
  else if vote.height < 0 then throw "negative Height"
  else if vote.round < 0 then throw "negative Round"
  else match vote.blockID.ValidateBasic with
    | .error e => throw ("wrong BlockID: " ++ e)
    | .ok () =>
      if !vote.blockID.IsZero && !vote.blockID.IsComplete then
        throw "blockID must be either empty or complete, got: %v"
      else if vote.validatorAddress.length ≠ AddressSize then
        throw ("expected ValidatorAddress size to be " ++ toString AddressSize ++
          " bytes, got " ++ toString vote.validatorAddress.length ++ " bytes")
      else if vote.validatorIndex < 0 then throw "negative ValidatorIndex"
      else if vote.signature.length = 0 then throw "signature is missing"
      else if vote.signature.length > MaxSignatureSize then
        throw ("signature is too big (max: " ++ toString MaxSignatureSize ++ ")")
      else pure ()

/-- A vote that passes `ValidateBasic` is for nil or for a complete block. -/
lemma blockID_of_ValidateBasic {vote : Vote} (h : vote.ValidateBasic = .ok ()) :
    vote.blockID.IsZero = true ∨ vote.blockID.IsComplete = true := by
  by_contra hne
  have hbad : (!vote.blockID.IsZero && !vote.blockID.IsComplete) = true := by
    simpa [not_or] using hne
  simp only [ValidateBasic, hbad, if_true] at h
  split_ifs at h
  split at h <;> cases h

end Vote

end Tendermint
