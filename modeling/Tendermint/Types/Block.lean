import Tendermint.Types.Commit
import Tendermint.Crypto.Merkle
import Tendermint.Libs.Bits

/-!
# Blocks and their decoding (`types/block.go`, `types/tx.go`, `types/evidence.go`)

A block is a header, the transactions (`Data`), the evidence (`EvidenceData`) and the commit of
the previous block.  The header commits to the other three by their Merkle roots
(`DataHash`, `EvidenceHash`, `LastCommitHash`), and `Block.ValidateBasic` compares each of them
with the root the block's own getter returns.

The three getters are memoised: `Data.Hash`, `EvidenceData.Hash` and `Commit.Hash` return the
volatile `hash` field when it is set and compute the root only when it is not.  The decoders
`DataFromProto`, `EvidenceData.FromProto` and `CommitFromProto` copy that field from the proto,
which a peer sends along with the block's parts.  The comparison in `ValidateBasic` is then
against the memo the peer chose, not against the transactions, evidence and signatures the
block carries (`BlockFromProto_memoHashes`); only a proto without memos has its header checked
against the recomputed roots (`BlockFromProto_roots`).

A commit has a second memo, the `bitArray` of `BitArray()`, which `ToProto` sends when it is
set.  `CommitFromProto` decodes it through a `nil` pointer, so a commit or a block encoded after
the call panics on decoding (`CommitFromProto_memoBitArray`, `BlockFromProto_memoBitArray`).

The hash `tmhash.Sum` and the proto encoding of a commit signature are parameters.  An evidence
is kept as what the `Evidence` interface answers to a block: its concrete type, the result of
its `ValidateBasic` and its `Bytes`; decoding one from its proto is a parameter too.
-/

namespace Tendermint

/-- `MaxChainIDLen`. -/
def MaxChainIDLen : Nat := 50

/-- `tmversion.Consensus`. -/
structure ConsensusVersion where
  block : UInt64
  app : UInt64
  deriving DecidableEq, Repr

/-- `types.Header`; the proto header has the same fields. -/
structure Header where
  version : ConsensusVersion
  chainID : String
  height : Int
  time : Time
  lastBlockID : BlockID
  lastCommitHash : Bytes
  dataHash : Bytes
  validatorsHash : Bytes
  nextValidatorsHash : Bytes
  consensusHash : Bytes
  appHash : Bytes
  lastResultsHash : Bytes
  evidenceHash : Bytes
  proposerAddress : Address
  deriving DecidableEq, Repr

/-- One of the `ValidateHash` checks of `Header.ValidateBasic`, on the field named `field`. -/
def validateHeaderHash (field : String) (h : Bytes) : Except String Unit :=
  (ValidateHash h).mapError fun e => "wrong " ++ field ++ ": " ++ e

namespace Header

/-- `Header.ValidateBasic`; `len(h.ChainID)` counts bytes. -/
def ValidateBasic (h : Header) : Except String Unit :=
  if h.chainID.utf8ByteSize > MaxChainIDLen then
    throw ("chainID is too long; got: " ++ toString h.chainID.utf8ByteSize ++ ", max: " ++
      toString MaxChainIDLen)
  else if h.height < 0 then throw "negative Height"
  else if h.height = 0 then throw "zero Height"
  else do
    h.lastBlockID.ValidateBasic.mapError ("wrong LastBlockID: " ++ ·)
    validateHeaderHash "LastCommitHash" h.lastCommitHash
    validateHeaderHash "DataHash" h.dataHash
    validateHeaderHash "EvidenceHash" h.evidenceHash
    if h.proposerAddress.length ≠ AddressSize then
      throw ("invalid ProposerAddress length; got: " ++ toString h.proposerAddress.length ++
        ", expected: " ++ toString AddressSize)
    else do
      validateHeaderHash "ValidatorsHash" h.validatorsHash
      validateHeaderHash "NextValidatorsHash" h.nextValidatorsHash
      validateHeaderHash "ConsensusHash" h.consensusHash
      validateHeaderHash "LastResultsHash" h.lastResultsHash

end Header

open ExceptRun

lemma validateHeaderHash_eq_ok {field : String} {h : Bytes} :
    validateHeaderHash field h = .ok () ↔ h = [] ∨ h.length = tmhashSize := by
  rw [validateHeaderHash, mapError_eq_ok, ValidateHash_eq_ok]

/-- A header passes `ValidateBasic` exactly when each of its checked fields is well formed. -/
lemma Header.ValidateBasic_eq_ok {h : Header} : h.ValidateBasic = .ok () ↔
    h.chainID.utf8ByteSize ≤ MaxChainIDLen ∧ 0 < h.height ∧ h.lastBlockID.ValidateBasic = .ok () ∧
    (h.lastCommitHash = [] ∨ h.lastCommitHash.length = tmhashSize) ∧
    (h.dataHash = [] ∨ h.dataHash.length = tmhashSize) ∧
    (h.evidenceHash = [] ∨ h.evidenceHash.length = tmhashSize) ∧
    h.proposerAddress.length = AddressSize ∧
    (h.validatorsHash = [] ∨ h.validatorsHash.length = tmhashSize) ∧
    (h.nextValidatorsHash = [] ∨ h.nextValidatorsHash.length = tmhashSize) ∧
    (h.consensusHash = [] ∨ h.consensusHash.length = tmhashSize) ∧
    (h.lastResultsHash = [] ∨ h.lastResultsHash.length = tmhashSize) := by
  simp only [Header.ValidateBasic, check_bind_eq_ok, ite_throw_eq_ok, mapError_eq_ok,
    validateHeaderHash_eq_ok, gt_iff_lt, not_lt, ne_eq, Decidable.not_not]
  -- the code rejects a negative and a zero height in two steps
  constructor
  · rintro ⟨hid, hneg, hzero, rest⟩
    exact ⟨hid, by omega, rest⟩
  · rintro ⟨hid, hpos, rest⟩
    exact ⟨hid, by omega, by omega, rest⟩

/-- `HeaderFromProto`. -/
def HeaderFromProto (ph : Header) : Except String Header := do
  let bi ← BlockIDFromProto ph.lastBlockID
  let h := { ph with lastBlockID := bi }
  h.ValidateBasic
  pure h

/-! ## Commit signatures and commits from their protos -/

/-- `tmproto.CommitSig`: the flag is the proto's `int32`. -/
structure ProtoCommitSig where
  blockIdFlag : Int
  validatorAddress : Address
  timestamp : Time
  signature : Bytes
  deriving DecidableEq, Repr

/-- The named value of a `BlockIDFlag` byte, if it has one. -/
def BlockIDFlag.ofByte : UInt8 → Option BlockIDFlag
  | 1 => some .BlockIDFlagAbsent
  | 2 => some .BlockIDFlagCommit
  | 3 => some .BlockIDFlagNil
  | _ => none

namespace CommitSig

/-- `CommitSig.ValidateBasic`, after its switch on a known flag (see `FromProto`).  Go's zero
time is the model's time `0`. -/
def ValidateBasic (cs : CommitSig) : Except String Unit :=
  match cs.blockIDFlag with
  | .BlockIDFlagAbsent =>
    if cs.validatorAddress.length ≠ 0 then throw "validator address is present"
    else if cs.timestamp ≠ 0 then throw "time is present"
    else if cs.signature.length ≠ 0 then throw "signature is present"
    else pure ()
  | _ =>
    if cs.validatorAddress.length ≠ AddressSize then
      throw ("expected ValidatorAddress size to be " ++ toString AddressSize ++ " bytes, got " ++
        toString cs.validatorAddress.length ++ " bytes")
    else if cs.signature.length = 0 then throw "signature is missing"
    else if cs.signature.length > MaxSignatureSize then
      throw ("signature is too big (max: " ++ toString MaxSignatureSize ++ ")")
    else pure ()

/-- `(*CommitSig).FromProto`: the flag is converted to a byte, and `ValidateBasic` rejects a
byte that names no flag before it looks at anything else. -/
def FromProto (csp : ProtoCommitSig) : Except String CommitSig :=
  let flag := (csp.blockIdFlag % 256).toNat.toUInt8
  match BlockIDFlag.ofByte flag with
  | none => throw ("unknown BlockIDFlag: " ++ toString flag)
  | some f => do
    let cs : CommitSig := ⟨f, csp.validatorAddress, csp.timestamp, csp.signature⟩
    cs.ValidateBasic
    pure cs

end CommitSig

/-- The signatures of a commit checked in order by `Commit.ValidateBasic`, from index `i`. -/
def validateCommitSigs : Nat → List CommitSig → Except String Unit
  | _, [] => pure ()
  | i, cs :: rest => do
    cs.ValidateBasic.mapError fun e => "wrong CommitSig #" ++ toString i ++ ": " ++ e
    validateCommitSigs (i + 1) rest

namespace Commit

/-- `Commit.ValidateBasic`. -/
def ValidateBasic (commit : Commit) : Except String Unit :=
  if commit.height < 0 then throw "negative Height"
  else if commit.round < 0 then throw "negative Round"
  else if commit.height ≥ 1 then
    if commit.blockID.IsZero then throw "commit cannot be for nil block"
    else if commit.signatures.length = 0 then throw "no signatures in commit"
    else validateCommitSigs 0 commit.signatures
  else pure ()

end Commit

/-- `tmproto.Commit`; `bitArray` is the proto bit array, `nil` as `none`. -/
structure ProtoCommit where
  height : Int
  round : Int
  blockID : BlockID
  signatures : List ProtoCommitSig
  hash : Option Bytes
  bitArray : Option Bits.BitArray
  deriving DecidableEq, Repr

/-- `CommitFromProto`: the memo `hash` is taken from the proto as it is.  The bit array is
decoded by `bitArray.FromProto(cp.BitArray)` on the `nil` pointer `var bitArray` declares, which
returns at once for a `nil` proto and otherwise assigns through the pointer. -/
def CommitFromProto (cp : ProtoCommit) : Go Commit := do
  let bi ← (BlockIDFromProto cp.blockID).mapError .err
  if cp.bitArray.isSome then throw (.panic nilDereference)
  else do
    let sigs ← (cp.signatures.mapM CommitSig.FromProto).mapError .err
    let commit : Commit :=
      { height := cp.height, round := cp.round, blockID := bi, signatures := sigs, hash := cp.hash }
    commit.ValidateBasic.mapError .err
    pure commit

/-- A well-formed block ID decodes to itself. -/
lemma BlockIDFromProto_of_valid {bID : BlockID} (h : bID.ValidateBasic = .ok ()) :
    BlockIDFromProto bID = .ok bID := by
  have hpsh : PartSetHeaderFromProto bID.partSetHeader = .ok bID.partSetHeader := by
    unfold BlockID.ValidateBasic at h
    split at h
    · cases h
    · split at h
      · cases h
      · rename_i hpsh
        rw [PartSetHeaderFromProto, hpsh]
        rfl
  rw [BlockIDFromProto, hpsh, ExceptRun.ok_bind]
  -- the block ID rebuilt from the decoded fields is `bID`
  show (bID.ValidateBasic >>= fun _ => pure bID) = .ok bID
  rw [h]
  rfl

/-- A decoded commit keeps the memo of its proto. -/
lemma CommitFromProto_hash {cp : ProtoCommit} {c : Commit} (h : CommitFromProto cp = .ok c) :
    c.hash = cp.hash := by
  unfold CommitFromProto at h
  obtain ⟨bi, -, h⟩ := ExceptRun.bind_eq_ok h
  split at h
  · cases h
  · obtain ⟨sigs, -, h⟩ := ExceptRun.bind_eq_ok h
    obtain ⟨⟨⟩, -, h⟩ := ExceptRun.bind_eq_ok h
    cases h
    rfl

/-! ## A commit's proto, with its bit-array memo

`Commit` keeps the `hash` memo; its other memo, `bitArray`, is passed to `Commit.ToProto` as the
state it is in: `nil` until `BitArray()` is called, and `BitArray()`'s result after.  A commit
encoded before any call decodes back to itself (`CommitFromProto_ToProto`); one encoded after
carries a proto bit array as soon as it has a signature, and `CommitFromProto` then writes it
through a `nil` pointer (`CommitFromProto_bitArray`). -/

/-- The byte of a `BlockIDFlag`. -/
def BlockIDFlag.toByte : BlockIDFlag → UInt8
  | .BlockIDFlagAbsent => 1
  | .BlockIDFlagCommit => 2
  | .BlockIDFlagNil => 3

lemma BlockIDFlag.ofByte_toByte (f : BlockIDFlag) : BlockIDFlag.ofByte f.toByte = some f := by
  cases f <;> rfl

/-- `(*CommitSig).ToProto`. -/
def CommitSig.ToProto (cs : CommitSig) : ProtoCommitSig :=
  ⟨cs.blockIDFlag.toByte.toNat, cs.validatorAddress, cs.timestamp, cs.signature⟩

/-- A signature that passes `ValidateBasic` decodes back to itself. -/
lemma CommitSig.FromProto_ToProto {cs : CommitSig} (h : cs.ValidateBasic = .ok ()) :
    CommitSig.FromProto cs.ToProto = .ok cs := by
  -- the flag's byte is below `256`, so the proto's `int32` gives it back
  have hflag : ((cs.blockIDFlag.toByte.toNat : Int) % 256).toNat.toUInt8 = cs.blockIDFlag.toByte := by
    cases cs.blockIDFlag <;> rfl
  simp only [CommitSig.FromProto, CommitSig.ToProto, hflag, BlockIDFlag.ofByte_toByte, h,
    ExceptRun.ok_bind]
  rfl

/-- Every signature `validateCommitSigs` accepts passes `ValidateBasic`. -/
lemma validateCommitSigs_mem : ∀ {i : Nat} {sigs : List CommitSig},
    validateCommitSigs i sigs = .ok () → ∀ cs ∈ sigs, cs.ValidateBasic = .ok ()
  | _, [], _, _, hmem => nomatch hmem
  | i, cs :: rest, h, cs', hmem => by
    rw [validateCommitSigs, check_bind_eq_ok, mapError_eq_ok] at h
    rcases List.mem_cons.mp hmem with rfl | hrest
    · exact h.1
    · exact validateCommitSigs_mem h.2 cs' hrest

/-- Signatures that pass `ValidateBasic` decode back to themselves. -/
lemma mapM_FromProto_ToProto : ∀ {sigs : List CommitSig},
    (∀ cs ∈ sigs, cs.ValidateBasic = .ok ()) →
      (sigs.map CommitSig.ToProto).mapM CommitSig.FromProto = .ok sigs
  | [], _ => rfl
  | cs :: rest, h => by
    have hcs := CommitSig.FromProto_ToProto (h cs List.mem_cons_self)
    have hrest := mapM_FromProto_ToProto fun cs' hmem => h cs' (List.mem_cons_of_mem cs hmem)
    rw [List.map_cons, List.mapM_cons, hcs, ExceptRun.ok_bind, hrest]
    rfl

/-- A commit of a positive height that passes `ValidateBasic` has signatures, each of which
passes its own. -/
lemma Commit.ValidateBasic_sigs {commit : Commit} (hv : commit.ValidateBasic = .ok ())
    (hh : 1 ≤ commit.height) :
    commit.signatures ≠ [] ∧ ∀ cs ∈ commit.signatures, cs.ValidateBasic = .ok () := by
  rw [Commit.ValidateBasic, if_neg (by omega)] at hv
  split at hv
  · cases hv
  · -- the height check has gone with `hh`; the nil block and the empty list remain
    split at hv
    · cases hv
    · split at hv
      · cases hv
      · rename_i hlen
        exact ⟨fun hnil => hlen (by rw [hnil]; rfl), validateCommitSigs_mem hv⟩

/-- The loop of `Commit.BitArray` from signature `i`: bit `i` says whether signature `i` is
present. -/
def bitArrayFrom (bA : Option Bits.BitArray) : Nat → List CommitSig → Go (Option Bits.BitArray)
  | _, [] => pure bA
  | i, cs :: rest => do
    let (_, bA) ← Bits.SetIndex bA i (!cs.Absent)
    bitArrayFrom bA (i + 1) rest

/-- `Commit.BitArray`: what the first call returns, and stores in the `bitArray` memo. -/
def Commit.BitArray (commit : Commit) : Go (Option Bits.BitArray) :=
  bitArrayFrom (Bits.NewBitArray commit.signatures.length) 0 commit.signatures

/-- `Commit.ToProto` of a commit whose `bitArray` memo is `bitArray`. -/
def Commit.ToProto (commit : Commit) (bitArray : Option Bits.BitArray) : ProtoCommit where
  height := commit.height
  round := commit.round
  blockID := commit.blockID
  signatures := commit.signatures.map CommitSig.ToProto
  hash := commit.hash
  bitArray := Bits.ToProto bitArray

/-- Marking the bits of a well-formed array keeps an array, and a well-formed one. -/
lemma bitArrayFrom_wellFormed : ∀ {bA : Bits.BitArray} (i : Nat) (sigs : List CommitSig),
    Bits.WellFormed bA → ∃ bA', bitArrayFrom (some bA) i sigs = .ok (some bA') ∧ Bits.WellFormed bA'
  | bA, _, [], h => ⟨bA, rfl, h⟩
  | bA, i, cs :: rest, h => by
    obtain ⟨ok, bA₁, hset, hwf⟩ := h.setIndex_ok (Int.natCast_nonneg i) (!cs.Absent)
    obtain ⟨bA', hrest, hwf'⟩ := bitArrayFrom_wellFormed (i + 1) rest hwf
    refine ⟨bA', ?_, hwf'⟩
    simp only [bitArrayFrom, Bits.SetIndex, hset, ExceptRun.ok_bind]
    exact hrest

/-- The bit array of a commit with signatures is one with words, which `ToProto` sends. -/
lemma Commit.BitArray_of_ne_nil {commit : Commit} (h : commit.signatures ≠ []) :
    ∃ bA, commit.BitArray = .ok (some bA) ∧ Bits.ToProto (some bA) = some bA := by
  have hpos : ¬ ((commit.signatures.length : Int) ≤ 0) := by
    have := List.length_pos_of_ne_nil h
    omega
  have hnew : Bits.NewBitArray commit.signatures.length =
      some ⟨commit.signatures.length, List.replicate (Bits.numWords commit.signatures.length).toNat 0⟩ := by
    rw [Bits.NewBitArray, if_neg hpos]
  obtain ⟨bA, hrun, hwf⟩ :=
    bitArrayFrom_wellFormed 0 commit.signatures (Bits.NewBitArray_wellFormed hnew)
  refine ⟨bA, ?_, ?_⟩
  · rw [Commit.BitArray, Bits.NewBitArray, if_neg hpos]
    exact hrun
  · rw [Bits.ToProto, if_neg (by rw [List.length_eq_zero_iff]; exact hwf.elems_ne_nil)]

/-- Encoded before any call of `BitArray()`, a valid commit of a positive height with a
well-formed block ID decodes back to itself, memo included. -/
lemma CommitFromProto_ToProto {commit : Commit} (hv : commit.ValidateBasic = .ok ())
    (hh : 1 ≤ commit.height) (hbid : commit.blockID.ValidateBasic = .ok ()) :
    CommitFromProto (commit.ToProto none) = .ok commit := by
  obtain ⟨-, hsigs⟩ := Commit.ValidateBasic_sigs hv hh
  simp only [CommitFromProto, Commit.ToProto, BlockIDFromProto_of_valid hbid, Bits.ToProto,
    mapM_FromProto_ToProto hsigs]
  -- the decoded commit is `commit` field by field
  show (commit.ValidateBasic.mapError GoError.err >>= fun _ => pure commit) = .ok commit
  rw [hv]
  rfl

/-- A proto commit that carries a bit array makes `CommitFromProto` write through `nil`, once its
block ID decodes. -/
lemma CommitFromProto_bitArray {cp : ProtoCommit} {bi : BlockID}
    (hbid : BlockIDFromProto cp.blockID = .ok bi) (hba : cp.bitArray.isSome) :
    CommitFromProto cp = .error (.panic nilDereference) := by
  simp only [CommitFromProto, hbid, hba]
  rfl

/-- **A commit's proto round trip depends on its memo.**  A commit of a positive height that
passes `ValidateBasic`, with a well-formed block ID, decodes back to itself from the proto it
gives before `BitArray()` is called; after the call its proto carries the bit array, and
`CommitFromProto` panics on it. -/
theorem CommitFromProto_memoBitArray (commit : Commit) (hv : commit.ValidateBasic = .ok ())
    (hh : 1 ≤ commit.height) (hbid : commit.blockID.ValidateBasic = .ok ()) :
    CommitFromProto (commit.ToProto none) = .ok commit ∧
      ∃ bA, commit.BitArray = .ok (some bA) ∧
        CommitFromProto (commit.ToProto (some bA)) = .error (.panic nilDereference) := by
  obtain ⟨hne, -⟩ := Commit.ValidateBasic_sigs hv hh
  obtain ⟨bA, hbA, hproto⟩ := Commit.BitArray_of_ne_nil hne
  refine ⟨CommitFromProto_ToProto hv hh hbid, bA, hbA, ?_⟩
  apply CommitFromProto_bitArray (BlockIDFromProto_of_valid hbid)
  simp [Commit.ToProto, hproto]

/-- A commit at height one of a block ID with well-formed hashes, with one signature. -/
def oneSigCommit : Commit :=
  NewCommit 1 0 ⟨List.replicate 32 1, ⟨1, List.replicate 32 2⟩⟩
    [⟨.BlockIDFlagCommit, List.replicate 20 1, 0, [1]⟩]

theorem CommitFromProto_memoBitArray_oneSig :
    oneSigCommit.ValidateBasic = .ok () ∧ 1 ≤ oneSigCommit.height ∧
      oneSigCommit.blockID.ValidateBasic = .ok () ∧
      (CommitFromProto (oneSigCommit.ToProto none) = .ok oneSigCommit ∧
        ∃ bA, oneSigCommit.BitArray = .ok (some bA) ∧
          CommitFromProto (oneSigCommit.ToProto (some bA)) = .error (.panic nilDereference)) :=
  ⟨rfl, by decide, rfl, CommitFromProto_memoBitArray oneSigCommit rfl (by decide) rfl⟩

/-! ## Data and evidence -/

/-- `types.Data`; `hash` is the memo of `Hash()`.  The proto data has the same fields. -/
structure Data where
  txs : List Bytes
  hash : Option Bytes
  deriving DecidableEq, Repr

/-- `DataFromProto`. -/
def DataFromProto (dp : Data) : Except String Data :=
  pure { txs := dp.txs, hash := dp.hash }

/-- The concrete types behind the `Evidence` interface. -/
inductive EvidenceType where
  | DuplicateVoteEvidence
  | ConflictingHeadersEvidence
  | LunaticValidatorEvidence
  | PotentialAmnesiaEvidence
  | AmnesiaEvidence
  deriving DecidableEq, Repr

/-- An evidence, as the `Evidence` interface answers a block: its concrete type, what its
`ValidateBasic` returns and its `Bytes`. -/
structure Evidence where
  type : EvidenceType
  validateBasic : Except String Unit
  bytes : Bytes

/-- `types.EvidenceData`; `hash` is the memo of `Hash()`. -/
structure EvidenceData where
  evidence : List Evidence
  hash : Option Bytes

/-- `tmproto.EvidenceData`, over a type `PE` of proto evidence. -/
structure ProtoEvidenceData (PE : Type) where
  evidence : List PE
  hash : Option Bytes

/-- The evidence of a block checked in order by `Block.ValidateBasic`, from index `i`. -/
def validateEvidence : Nat → List Evidence → Except String Unit
  | _, [] => pure ()
  | i, ev :: rest =>
    match ev.type with
    | .ConflictingHeadersEvidence => throw ("found ConflictingHeadersEvidence (#" ++ toString i ++ ")")
    | .PotentialAmnesiaEvidence => throw ("found PotentialAmnesiaEvidence (#" ++ toString i ++ ")")
    | _ => do
      ev.validateBasic.mapError fun e => "invalid evidence (#" ++ toString i ++ "): " ++ e
      validateEvidence (i + 1) rest

/-! ## Blocks -/

/-- `types.Block`. -/
structure Block where
  header : Header
  data : Data
  evidence : EvidenceData
  lastCommit : Option Commit

/-- `tmproto.Block`. -/
structure ProtoBlock (PE : Type) where
  header : Header
  data : Data
  evidence : ProtoEvidenceData PE
  lastCommit : Option ProtoCommit

section Hashes

variable (tmhash : Bytes → Bytes) (commitSigBytes : CommitSig → Bytes)

/-- `Txs.Hash`: the root over the transactions' hashes. -/
def Txs.Hash (txs : List Bytes) : Bytes := Merkle.HashFromByteSlices tmhash (txs.map tmhash)

/-- `EvidenceList.Hash`: the root over the evidences' bytes. -/
def EvidenceList.Hash (evl : List Evidence) : Bytes :=
  Merkle.HashFromByteSlices tmhash (evl.map Evidence.bytes)

/-- `Data.Hash`: the memo, or the root of the transactions.  The write-back of the memo is not
threaded out: it stores what this returns, so later calls return the same. -/
def Data.Hash (data : Data) : Bytes := data.hash.getD (Txs.Hash tmhash data.txs)

/-- `EvidenceData.Hash`: the memo, or the root of the evidence. -/
def EvidenceData.Hash (data : EvidenceData) : Bytes :=
  data.hash.getD (EvidenceList.Hash tmhash data.evidence)

/-- `Commit.Hash`: the memo, or the root over the signatures' proto encodings
`commitSigBytes`. -/
def Commit.Hash (commit : Commit) : Bytes :=
  commit.hash.getD (Merkle.HashFromByteSlices tmhash (commit.signatures.map commitSigBytes))

/-- `Block.ValidateBasic`. -/
def Block.ValidateBasic (b : Block) : Except String Unit := do
  b.header.ValidateBasic.mapError ("invalid header: " ++ ·)
  match b.lastCommit with
  | none => throw "nil LastCommit"
  | some lastCommit => do
    lastCommit.ValidateBasic.mapError ("wrong LastCommit: " ++ ·)
    if b.header.lastCommitHash ≠ lastCommit.Hash tmhash commitSigBytes then
      throw "wrong Header.LastCommitHash. Expected %v, got %v"
    else if b.header.dataHash ≠ b.data.Hash tmhash then
      throw "wrong Header.DataHash. Expected %v, got %v"
    else do
      validateEvidence 0 b.evidence.evidence
      if b.header.evidenceHash ≠ b.evidence.Hash tmhash then
        throw "wrong Header.EvidenceHash. Expected %v, got %v"
      else pure ()

/-- A block passes `ValidateBasic` exactly when its header and last commit are well formed, the
header names the roots the block's getters return, and every evidence is acceptable. -/
lemma Block.ValidateBasic_eq_ok {b : Block} : b.ValidateBasic tmhash commitSigBytes = .ok () ↔
    b.header.ValidateBasic = .ok () ∧ ∃ c, b.lastCommit = some c ∧ c.ValidateBasic = .ok () ∧
      b.header.lastCommitHash = c.Hash tmhash commitSigBytes ∧
      b.header.dataHash = b.data.Hash tmhash ∧ validateEvidence 0 b.evidence.evidence = .ok () ∧
      b.header.evidenceHash = b.evidence.Hash tmhash := by
  unfold Block.ValidateBasic
  rw [check_bind_eq_ok, mapError_eq_ok]
  cases b.lastCommit with
  | none => exact iff_of_false (fun h => nomatch h.2) (fun ⟨_, c, hc, _⟩ => nomatch hc)
  | some c =>
    simp only [check_bind_eq_ok, mapError_eq_ok, ite_throw_eq_ok, Decidable.not_not,
      Option.some.injEq, exists_eq_left', show (pure () : Except String Unit) = .ok () from rfl,
      and_true]

variable {PE : Type} (EvidenceFromProto : PE → Except String Evidence)

/-- `(*EvidenceData).FromProto`. -/
def EvidenceData.FromProto (eviData : ProtoEvidenceData PE) : Except String EvidenceData := do
  let eviBzs ← eviData.evidence.mapM EvidenceFromProto
  pure { evidence := eviBzs, hash := eviData.hash }

/-- The `if bp.LastCommit != nil` step of `BlockFromProto`: a present commit is decoded, an
absent one stays `nil`. -/
def lastCommitFromProto : Option ProtoCommit → Go (Option Commit)
  | none => pure none
  | some lc => some <$> CommitFromProto lc

/-- `BlockFromProto`.  The error of `b.Evidence.FromProto` is dropped: on a failure the block
keeps its zero `EvidenceData`. -/
def BlockFromProto (bp : ProtoBlock PE) : Go Block := do
  let h ← (HeaderFromProto bp.header).mapError .err
  let data ← (DataFromProto bp.data).mapError .err
  let evidence := (EvidenceData.FromProto EvidenceFromProto bp.evidence).toOption.getD
    { evidence := [], hash := none }
  let lastCommit ← lastCommitFromProto bp.lastCommit
  let b : Block := { header := h, data := data, evidence := evidence, lastCommit := lastCommit }
  (b.ValidateBasic tmhash commitSigBytes).mapError .err
  pure b

/-- What a decoded block keeps of its proto: the data as it came, the evidence memo or none,
and the commit memo; and the block it returns passed `ValidateBasic`. -/
lemma BlockFromProto_ok {bp : ProtoBlock PE} {b : Block}
    (h : BlockFromProto tmhash commitSigBytes EvidenceFromProto bp = .ok b) :
    b.data = bp.data ∧ (b.evidence.hash = bp.evidence.hash ∨ b.evidence.hash = none) ∧
      (∀ c, b.lastCommit = some c → ∃ lc, bp.lastCommit = some lc ∧ c.hash = lc.hash) ∧
      b.ValidateBasic tmhash commitSigBytes = .ok () := by
  unfold BlockFromProto at h
  obtain ⟨hd, -, h⟩ := bind_eq_ok h
  obtain ⟨data, hdata, h⟩ := bind_eq_ok h
  obtain ⟨lastCommit, hlc, h⟩ := bind_eq_ok h
  obtain ⟨⟨⟩, hv, h⟩ := bind_eq_ok h
  cases hdata
  cases h
  refine ⟨rfl, ?_, ?_, mapError_eq_ok.mp hv⟩
  · cases he : EvidenceData.FromProto EvidenceFromProto bp.evidence with
    | error e => exact .inr rfl
    | ok d =>
      unfold EvidenceData.FromProto at he
      obtain ⟨l, -, he⟩ := bind_eq_ok he
      cases he
      exact .inl rfl
  · intro c hc
    cases hbp : bp.lastCommit with
    | none =>
      rw [hbp] at hlc
      cases hlc
      cases hc
    | some lc =>
      rw [hbp, lastCommitFromProto] at hlc
      obtain ⟨c', hc', hlc⟩ := bind_eq_ok hlc
      cases hlc
      cases hc
      exact ⟨lc, rfl, CommitFromProto_hash hc'⟩

/-- A hash that answers thirty-two zeros. -/
def zeroHash (_ : Bytes) : Bytes := List.replicate 32 0

/-- A block at height one carrying the transaction `[5]` and the commit `oneSigCommit`, whose
header names the roots of what it carries under `zeroHash`. -/
def rootsBlock : Block :=
  ⟨{ version := ⟨0, 0⟩, chainID := "", height := 1, time := 0, lastBlockID := ⟨[], ⟨0, []⟩⟩,
     lastCommitHash := List.replicate 32 0, dataHash := List.replicate 32 0, validatorsHash := [],
     nextValidatorsHash := [], consensusHash := [], appHash := [], lastResultsHash := [],
     evidenceHash := List.replicate 32 0, proposerAddress := List.replicate AddressSize 0 },
    ⟨[[5]], none⟩, ⟨[], none⟩, some oneSigCommit⟩

/-- `rootsBlock` encoded with no memo set. -/
def rootsProto : ProtoBlock Unit :=
  ⟨rootsBlock.header, rootsBlock.data, ⟨[], none⟩, some (oneSigCommit.ToProto none)⟩

variable (EvidenceToProto : Evidence → Except String PE)

/-- `(*EvidenceData).ToProto`. -/
def EvidenceData.ToProto (data : EvidenceData) : Except String (ProtoEvidenceData PE) := do
  let eviBzs ← data.evidence.mapM EvidenceToProto
  pure { evidence := eviBzs, hash := data.hash }

/-- `Block.ToProto`, for a block whose last commit's `bitArray` memo is `lastCommitBitArray`;
the header and the data are their own protos. -/
def Block.ToProto (b : Block) (lastCommitBitArray : Option Bits.BitArray) :
    Except String (ProtoBlock PE) := do
  let protoEvidence ← b.evidence.ToProto EvidenceToProto
  pure { header := b.header, lastCommit := b.lastCommit.map (·.ToProto lastCommitBitArray),
         data := b.data, evidence := protoEvidence }

/-- A header that passes `ValidateBasic` decodes to itself. -/
lemma HeaderFromProto_of_valid {h : Header} (hv : h.ValidateBasic = .ok ()) :
    HeaderFromProto h = .ok h := by
  have hbid := (Header.ValidateBasic_eq_ok.mp hv).2.2.1
  rw [HeaderFromProto, BlockIDFromProto_of_valid hbid, ok_bind]
  -- the header rebuilt with the decoded block ID is `h`
  show (h.ValidateBasic >>= fun _ => pure h) = .ok h
  rw [hv]
  rfl

/-- Encoded after its last commit's `BitArray()` was called, a block that passes `ValidateBasic`,
whose last commit has a positive height and a well-formed block ID, makes `BlockFromProto`
panic. -/
theorem BlockFromProto_memoBitArray {b : Block} {c : Commit}
    (hv : b.ValidateBasic tmhash commitSigBytes = .ok ()) (hc : b.lastCommit = some c)
    (hh : 1 ≤ c.height) (hbid : c.blockID.ValidateBasic = .ok ()) :
    ∃ bA, c.BitArray = .ok (some bA) ∧ ∀ bp, b.ToProto EvidenceToProto (some bA) = .ok bp →
      BlockFromProto tmhash commitSigBytes EvidenceFromProto bp = .error (.panic nilDereference) := by
  obtain ⟨hheader, c', hc', hcv, -⟩ := (Block.ValidateBasic_eq_ok tmhash commitSigBytes).mp hv
  rw [hc] at hc'
  cases hc'
  obtain ⟨hne, -⟩ := Commit.ValidateBasic_sigs hcv hh
  obtain ⟨bA, hbA, hproto⟩ := Commit.BitArray_of_ne_nil hne
  refine ⟨bA, hbA, fun bp hbp => ?_⟩
  obtain ⟨pe, -, hbp⟩ := bind_eq_ok hbp
  cases hbp
  have hcommit : CommitFromProto (c.ToProto (some bA)) = .error (.panic nilDereference) :=
    CommitFromProto_bitArray (BlockIDFromProto_of_valid hbid) (by simp [Commit.ToProto, hproto])
  -- the header and the data decode, and the last commit panics
  simp only [BlockFromProto, HeaderFromProto_of_valid hheader, hc, Option.map_some,
    lastCommitFromProto, hcommit]
  rfl

/-- `rootsBlock`, encoded after its commit's `BitArray()` was called, makes `BlockFromProto`
panic. -/
theorem BlockFromProto_memoBitArray_oneSig :
    rootsBlock.ValidateBasic zeroHash (fun _ => [1]) = .ok () ∧
      rootsBlock.lastCommit = some oneSigCommit ∧ 1 ≤ oneSigCommit.height ∧
      oneSigCommit.blockID.ValidateBasic = .ok () ∧
      ∃ bA, oneSigCommit.BitArray = .ok (some bA) ∧
        ∃ bp, rootsBlock.ToProto (fun _ => .ok ()) (some bA) = .ok bp ∧
          BlockFromProto zeroHash (fun _ => [1]) (fun _ => .error "no evidence") bp =
            .error (.panic nilDereference) := by
  have hv : rootsBlock.ValidateBasic zeroHash (fun _ => [1]) = .ok () := by decide +kernel
  obtain ⟨bA, hbA, hpanic⟩ := BlockFromProto_memoBitArray zeroHash (fun _ => [1])
    (fun _ => .error "no evidence") (fun _ => .ok ()) hv rfl (by decide) rfl
  exact ⟨hv, rfl, by decide, rfl, bA, hbA, _, rfl, hpanic _ rfl⟩

/-- A hash of `tmhash.Size` bytes other than `r`. -/
def otherHash (r : Bytes) : Bytes :=
  if r = List.replicate tmhashSize 0 then List.replicate tmhashSize 1
  else List.replicate tmhashSize 0

lemma otherHash_length (r : Bytes) : (otherHash r).length = tmhashSize := by
  unfold otherHash
  split <;> simp

lemma otherHash_ne (r : Bytes) : otherHash r ≠ r := by
  unfold otherHash
  split
  · rename_i h
    rw [h]
    decide
  · rename_i h
    exact fun h' => h h'.symm

/-- The empty commit of a block at height one, with the memo `lastCommitHash`. -/
def memoCommit (lastCommitHash : Bytes) : ProtoCommit :=
  ⟨0, 0, ⟨[], ⟨0, []⟩⟩, [], some lastCommitHash, none⟩

/-- A proto block at height one carrying the transactions `txs`, no evidence and the empty
commit, whose memos are the roots `dataHash`, `lastCommitHash` and `evidenceHash` its header
names. -/
def memoBlock (txs : List Bytes) (dataHash lastCommitHash evidenceHash : Bytes) :
    ProtoBlock PE where
  header :=
    { version := ⟨0, 0⟩, chainID := "", height := 1, time := 0, lastBlockID := ⟨[], ⟨0, []⟩⟩,
      lastCommitHash := lastCommitHash, dataHash := dataHash, validatorsHash := [],
      nextValidatorsHash := [], consensusHash := [], appHash := [], lastResultsHash := [],
      evidenceHash := evidenceHash, proposerAddress := List.replicate AddressSize 0 }
  data := ⟨txs, some dataHash⟩
  evidence := ⟨[], some evidenceHash⟩
  lastCommit := some (memoCommit lastCommitHash)

/-- Whatever roots of the right size the memos name, `BlockFromProto` accepts `memoBlock`. -/
lemma BlockFromProto_memoBlock (txs : List Bytes) {d l e : Bytes} (hd : d.length = tmhashSize)
    (hl : l.length = tmhashSize) (he : e.length = tmhashSize) :
    BlockFromProto tmhash commitSigBytes EvidenceFromProto (memoBlock txs d l e) =
      .ok ⟨(memoBlock txs d l e : ProtoBlock PE).header, ⟨txs, some d⟩, ⟨[], some e⟩,
        some ⟨0, 0, ⟨[], ⟨0, []⟩⟩, [], some l⟩⟩ := by
  have hheader : (memoBlock txs d l e : ProtoBlock PE).header.ValidateBasic = .ok () := by
    rw [Header.ValidateBasic_eq_ok]
    exact ⟨show ("" : String).utf8ByteSize ≤ MaxChainIDLen by decide, show (0 : Int) < 1 by decide,
      rfl, .inr hl, .inr hd, .inr he, by simp [memoBlock],
      .inl rfl, .inl rfl, .inl rfl, .inl rfl⟩
  have hfrom : HeaderFromProto (memoBlock txs d l e : ProtoBlock PE).header =
      .ok (memoBlock txs d l e : ProtoBlock PE).header := by
    rw [HeaderFromProto]
    show (memoBlock txs d l e : ProtoBlock PE).header.ValidateBasic >>= (fun _ => pure _) = _
    rw [hheader]
    rfl
  have hvalid : Block.ValidateBasic tmhash commitSigBytes
      ⟨(memoBlock txs d l e : ProtoBlock PE).header, ⟨txs, some d⟩, ⟨[], some e⟩,
        some ⟨0, 0, ⟨[], ⟨0, []⟩⟩, [], some l⟩⟩ = .ok () :=
    (Block.ValidateBasic_eq_ok tmhash commitSigBytes).mpr
      ⟨hheader, _, rfl, rfl, rfl, rfl, rfl, rfl⟩
  rw [BlockFromProto, hfrom]
  exact (congrArg (fun r => Except.mapError GoError.err r >>= fun _ => pure _) hvalid).trans rfl

/-- For every hash function, every encoding of commit signatures and every list of transactions,
`BlockFromProto` accepts a block carrying those transactions whose header names a data root,
an evidence root and a last-commit root that are not the roots of what the block carries. -/
theorem BlockFromProto_memoHashes (txs : List Bytes) :
    ∃ (bp : ProtoBlock PE) (b : Block),
      BlockFromProto tmhash commitSigBytes EvidenceFromProto bp = .ok b ∧ b.data.txs = txs ∧
      b.header.dataHash ≠ Txs.Hash tmhash b.data.txs ∧
      b.header.evidenceHash ≠ EvidenceList.Hash tmhash b.evidence.evidence ∧
      ∃ c, b.lastCommit = some c ∧ b.header.lastCommitHash ≠
        Merkle.HashFromByteSlices tmhash (c.signatures.map commitSigBytes) := by
  -- each memo is a well-formed hash other than the root it stands for
  let d := otherHash (Txs.Hash tmhash txs)
  let l := otherHash (Merkle.HashFromByteSlices tmhash [])
  let e := otherHash (EvidenceList.Hash tmhash [])
  refine ⟨memoBlock txs d l e, _, BlockFromProto_memoBlock tmhash commitSigBytes EvidenceFromProto
    txs (otherHash_length _) (otherHash_length _) (otherHash_length _), rfl, otherHash_ne _,
    otherHash_ne _, _, rfl, otherHash_ne _⟩

end Hashes

end Tendermint
