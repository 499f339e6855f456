import Tendermint.Types.Block
import Tendermint.Mempool.CListMempool
import Tendermint.Consensus.PeerState
import Tendermint.Lib.Varint

/-!
# The size of a proposal block (`state/execution.go`, `types/block.go`, `types/params.go`)

`CreateProposalBlock` fills a block with the evidence the pool has pending and with as many of
the mempool's transactions as `ReapMaxBytesMaxGas` takes under the byte budget `MaxDataBytes`.
The budget is `Block.MaxBytes` less fixed allowances: `MaxOverheadForBlock` for the framing of
the block and of its data, `MaxHeaderBytes` for the header, `MaxVoteBytes` for the commit
signature of each validator and `MaxEvidenceBytes` for each evidence.

The reaper sums the lengths of the transactions.  In the proto encoding every transaction is
one field of the repeated `Data.txs`, a tag byte and its length as a varint before it, while
`MaxOverheadForBlock` has one byte for the whole list.  A transaction of `L` bytes takes at
least `L + 2`:

* **`CreateProposalBlock_exceeds_MaxBytes`** — for every consensus parameters that pass
  `ValidateConsensusParams`, and every mempool of transactions of one length `L`, as many as
  the budget holds, the block `CreateProposalBlock` fills encodes in more than
  `Block.MaxBytes` bytes as soon as those transactions with two bytes each are more than
  `Block.MaxBytes`, whatever its header, its evidence and its last commit encode in.  With
  two-byte transactions it is enough that the budget is above half of `Block.MaxBytes`.

The header, the evidence and the last commit enter by the sizes of their encodings, and the
pool's `PendingEvidence` is a parameter, as is the hash `tmhash.Sum`.
-/

namespace Tendermint

open ExceptRun

/-! ## Consensus parameters -/

/-- `tmproto.BlockParams`. -/
structure BlockParams where
  MaxBytes : Int
  MaxGas : Int
  TimeIotaMs : Int
  deriving DecidableEq, Repr

/-- `tmproto.EvidenceParams`; `MaxAgeDuration` in nanoseconds. -/
structure EvidenceParams where
  MaxAgeNumBlocks : Int
  MaxAgeDuration : Int
  MaxNum : UInt32
  ProofTrialPeriod : Int
  deriving DecidableEq, Repr

/-- `tmproto.ValidatorParams`. -/
structure ValidatorParams where
  PubKeyTypes : List String
  deriving DecidableEq, Repr

/-- `tmproto.ConsensusParams`, without the version parameters, which nothing here reads. -/
structure ConsensusParams where
  Block : BlockParams
  Evidence : EvidenceParams
  Validator : ValidatorParams
  deriving DecidableEq, Repr

/-- `MaxEvidencePerBlock`. -/
def MaxEvidencePerBlock : Nat := 65535

/-- `MaxEvidenceBytes`. -/
def MaxEvidenceBytes : Int := 444

/-- `ABCIPubKeyTypeEd25519`. -/
def ABCIPubKeyTypeEd25519 : String := "ed25519"

/-- The keys of `ABCIPubKeyTypesToNames`. -/
def ABCIPubKeyTypesToNames : List String := [ABCIPubKeyTypeEd25519]

/-- `DefaultConsensusParams`. -/
def DefaultConsensusParams : ConsensusParams where
  Block := { MaxBytes := 22020096, MaxGas := -1, TimeIotaMs := 1000 }
  Evidence := { MaxAgeNumBlocks := 100000, MaxAgeDuration := 48 * 3600 * 1000000000, MaxNum := 50,
                ProofTrialPeriod := 50000 }
  Validator := { PubKeyTypes := [ABCIPubKeyTypeEd25519] }

/-- The loop of `ValidateConsensusParams` over the public key types, from index `i`. -/
def validatePubKeyTypes : Nat → List String → Except String Unit
  | _, [] => pure ()
  | i, keyType :: rest =>
    if keyType ∉ ABCIPubKeyTypesToNames then
      throw ("params.Validator.PubKeyTypes[" ++ toString i ++ "], " ++ keyType ++
        ", is an unknown pubkey type")
    else validatePubKeyTypes (i + 1) rest

/-- `ValidateConsensusParams`. -/
def ValidateConsensusParams (params : ConsensusParams) : Except String Unit :=
  if params.Block.MaxBytes ≤ 0 then
    throw ("block.MaxBytes must be greater than 0. Got " ++ toString params.Block.MaxBytes)
  else if params.Block.MaxBytes > Consensus.MaxBlockSizeBytes then
    throw ("block.MaxBytes is too big. " ++ toString params.Block.MaxBytes ++ " > " ++
      toString Consensus.MaxBlockSizeBytes)
  else if params.Block.MaxGas < -1 then
    throw ("block.MaxGas must be greater or equal to -1. Got " ++ toString params.Block.MaxGas)
  else if params.Block.TimeIotaMs ≤ 0 then
    throw ("block.TimeIotaMs must be greater than 0. Got " ++ toString params.Block.TimeIotaMs)
  else if params.Evidence.MaxAgeNumBlocks ≤ 0 then
    throw ("evidenceParams.MaxAgeNumBlocks must be greater than 0. Got " ++
      toString params.Evidence.MaxAgeNumBlocks)
  else if params.Evidence.MaxAgeDuration ≤ 0 then
    throw ("evidenceParams.MaxAgeDuration must be grater than 0 if provided, Got " ++
      toString params.Evidence.MaxAgeDuration)
  else if params.Evidence.MaxNum.toNat > MaxEvidencePerBlock then
    throw ("evidenceParams.MaxNumEvidence is greater than upper bound, " ++
      toString params.Evidence.MaxNum ++ " > " ++ toString MaxEvidencePerBlock)
  else if params.Evidence.MaxNum.toNat * MaxEvidenceBytes > params.Block.MaxBytes then
    throw ("total possible evidence size is bigger than block.MaxBytes, " ++
      toString (params.Evidence.MaxNum.toNat * MaxEvidenceBytes) ++ " > " ++
      toString params.Block.MaxBytes)
  else if params.Evidence.ProofTrialPeriod ≤ 0 then
    throw ("evidenceParams.ProofTrialPeriod must be grater than 0 if provided, Got " ++
      toString params.Evidence.ProofTrialPeriod)
  else if params.Evidence.ProofTrialPeriod ≥ params.Evidence.MaxAgeNumBlocks then
    -- the source prints `MaxAgeDuration` as the bound
    throw ("evidenceParams.ProofTrialPeriod must be smaller than evidenceParams.MaxAgeNumBlocks,  " ++
      toString params.Evidence.ProofTrialPeriod ++ " > " ++ toString params.Evidence.MaxAgeDuration)
  else if params.Validator.PubKeyTypes.length = 0 then
    throw "len(Validator.PubKeyTypes) must be greater than 0"
  else validatePubKeyTypes 0 params.Validator.PubKeyTypes

/-- What `ValidateConsensusParams` asks of the block parameters. -/
lemma ValidateConsensusParams_block {params : ConsensusParams}
    (h : ValidateConsensusParams params = .ok ()) :
    0 < params.Block.MaxBytes ∧ params.Block.MaxBytes ≤ Consensus.MaxBlockSizeBytes ∧
      -1 ≤ params.Block.MaxGas := by
  simp only [ValidateConsensusParams, ite_throw_eq_ok, not_le, gt_iff_lt, not_lt] at h
  exact ⟨h.1, h.2.1, h.2.2.1⟩

/-- The default parameters pass their own check. -/
lemma ValidateConsensusParams_default : ValidateConsensusParams DefaultConsensusParams = .ok () := by
  decide

/-! ## The budget of the data -/

/-- `MaxHeaderBytes`. -/
def MaxHeaderBytes : Int := 626

/-- `MaxOverheadForBlock`. -/
def MaxOverheadForBlock : Int := 11

/-- `MaxVoteBytes`. -/
def MaxVoteBytes : Int := 209

/-- `MaxDataBytes`, which panics on a negative budget. -/
def MaxDataBytes (maxBytes : Int) (valsCount evidenceCount : Nat) : Go Int :=
  let maxDataBytes := maxBytes - MaxOverheadForBlock - MaxHeaderBytes -
    valsCount * MaxVoteBytes - evidenceCount * MaxEvidenceBytes
  if maxDataBytes < 0 then
    throw (.panic ("Negative MaxDataBytes. Block.MaxBytes=" ++ toString maxBytes ++
      " is too small to accommodate header&lastCommit&evidence=" ++
      toString (-(maxDataBytes - maxBytes))))
  else pure maxDataBytes

/-! ## The size of the encoding -/

/-- The size of the proto of `Data`: each transaction one field of the repeated `txs`, and the
memo `hash` when it is set and not empty. -/
def Data.Size (data : Data) : Nat :=
  (data.txs.map fun tx => Varint.fieldSize tx.length).sum +
    match data.hash with
    | some h => if h = [] then 0 else Varint.fieldSize h.length
    | none => 0

/-- The size of the proto of a block whose header and evidence encode in `headerSize` and
`evidenceSize` bytes, and its last commit, if any, in `commitSize`: the three fields the block
always writes, and the last commit when there is one. -/
def blockSize (headerSize : Nat) (data : Data) (evidenceSize : Nat) (commitSize : Option Nat) :
    Nat :=
  Varint.fieldSize headerSize + Varint.fieldSize data.Size + Varint.fieldSize evidenceSize +
    (commitSize.map Varint.fieldSize).getD 0

/-- Transactions of `L` bytes take at least `L + 2` each in `Data`. -/
lemma mul_le_sum_fieldSize {L : Nat} : ∀ {txs : List Bytes}, (∀ tx ∈ txs, tx.length = L) →
    txs.length * (L + 2) ≤ (txs.map fun tx => Varint.fieldSize tx.length).sum
  | [], _ => by simp
  | tx :: txs, h => by
    have hframe := Varint.add_two_le_fieldSize tx.length
    have htx := h tx List.mem_cons_self
    have ih := mul_le_sum_fieldSize fun tx' htx' => h tx' (List.mem_cons_of_mem _ htx')
    simp only [List.length_cons, List.map_cons, List.sum_cons, htx]
    rw [htx] at hframe
    rw [Nat.succ_mul]
    omega

lemma sum_fieldSize_le_Size (data : Data) :
    (data.txs.map fun tx => Varint.fieldSize tx.length).sum ≤ data.Size :=
  Nat.le_add_right _ _

lemma Size_le_blockSize (headerSize : Nat) (data : Data) (evidenceSize : Nat)
    (commitSize : Option Nat) : data.Size < blockSize headerSize data evidenceSize commitSize := by
  have hframe := Varint.add_two_le_fieldSize data.Size
  unfold blockSize
  omega

/-! ## Reaping transactions of one length -/

namespace Mempool.CListMempool

/-- With transactions of `L` bytes that ask for no gas, the loop of `ReapMaxBytesMaxGas` takes
as many whole transactions as the byte budget left holds. -/
lemma reapMaxBytesMaxGas_of_length {maxBytes maxGas : Int} {L : Nat} (hL : 0 < L)
    (hmax : maxBytes + L ≤ MaxInt64) (hgas : -1 ≤ maxGas) :
    ∀ (l : List (Nat × Mempool.mempoolTx)) (totalBytes : Int) (txs : List Bytes),
      (∀ e ∈ l, e.2.tx.length = L ∧ e.2.gasWanted = 0) → 0 ≤ totalBytes → totalBytes ≤ maxBytes →
      reapMaxBytesMaxGas maxBytes maxGas totalBytes 0 txs l =
        txs ++ (l.map (·.2.tx)).take ((maxBytes - totalBytes) / L).toNat
  | [], _, txs, _, _, _ => by simp [reapMaxBytesMaxGas]
  | e :: rest, totalBytes, txs, hl, h0, hle => by
    obtain ⟨hlen, hgas0⟩ := hl e List.mem_cons_self
    have hw : wrap64 (totalBytes + (e.2.tx.length : Int)) = totalBytes + L := by
      rw [hlen, wrap64_of_mem]
      unfold InInt64 MinInt64
      omega
    have hw0 : wrap64 (0 + e.2.gasWanted) = 0 := by
      rw [hgas0]
      rfl
    rw [reapMaxBytesMaxGas]
    dsimp only
    rw [hw, hw0]
    by_cases hfull : maxBytes < totalBytes + L
    · -- what is left of the budget holds no transaction: the loop stops
      have hq : (maxBytes - totalBytes) / (L : Int) = 0 :=
        Int.ediv_eq_zero_of_lt (by omega) (by omega)
      rw [if_pos ⟨by omega, hfull⟩, hq]
      simp
    · -- one more transaction fits; a gas wanted of zero passes any limit
      have hq : (maxBytes - totalBytes) / (L : Int) = (maxBytes - (totalBytes + L)) / L + 1 := by
        rw [← Int.add_mul_ediv_right _ _ (by omega : (L : Int) ≠ 0)]
        congr 1
        ring
      have hq0 : 0 ≤ (maxBytes - (totalBytes + L)) / (L : Int) := Int.ediv_nonneg (by omega) (by omega)
      rw [if_neg (by omega), if_neg (by omega),
        reapMaxBytesMaxGas_of_length hL hmax hgas rest _ _
          (fun e' he' => hl e' (List.mem_cons_of_mem _ he')) (by omega) (by omega)]
      have hn : ((maxBytes - totalBytes) / (L : Int)).toNat =
          ((maxBytes - (totalBytes + L)) / (L : Int)).toNat + 1 := by omega
      rw [hn, List.map_cons, List.take_succ_cons, List.append_assoc, List.singleton_append]

end Mempool.CListMempool

/-! ## `CreateProposalBlock` -/

section Create

variable (tmhash : Bytes → Bytes) (PendingEvidence : Nat → List Evidence)

/-- `BlockExecutor.CreateProposalBlock`, up to the header and the commit that `MakeBlock` takes
from the state: the evidence the pool hands out for `MaxNum`, and the data of the reaped
transactions, whose root `fillHeader` memoises in `Data.hash`. -/
def BlockExecutor.CreateProposalBlock (params : ConsensusParams) (valsCount : Nat)
    (mem : Mempool.CListMempool) : Go (List Evidence × Data) := do
  let evidence := PendingEvidence params.Evidence.MaxNum.toNat
  let maxDataBytes ← MaxDataBytes params.Block.MaxBytes valsCount evidence.length
  let txs := mem.ReapMaxBytesMaxGas maxDataBytes params.Block.MaxGas
  pure (evidence, { txs := txs, hash := some (Txs.Hash tmhash txs) })

/-- A budget `MaxDataBytes` returns is what is left of `maxBytes` after the allowances, and
it is not negative. -/
lemma MaxDataBytes_ok {maxBytes budget : Int} {valsCount evidenceCount : Nat}
    (h : MaxDataBytes maxBytes valsCount evidenceCount = .ok budget) :
    0 ≤ budget ∧ budget ≤ maxBytes := by
  rw [MaxDataBytes] at h
  split_ifs at h with hneg
  cases h
  unfold MaxOverheadForBlock MaxHeaderBytes MaxVoteBytes MaxEvidenceBytes at hneg ⊢
  omega

/-- For parameters that pass `ValidateConsensusParams`, and a mempool of transactions of one
length `L` that ask for no gas, as many as the budget `MaxDataBytes` leaves holds: when these
transactions and their framing are more than `Block.MaxBytes`, the block `CreateProposalBlock`
fills encodes in more than `Block.MaxBytes` bytes, whatever its header, its evidence and its
last commit encode in. -/
theorem CreateProposalBlock_exceeds_MaxBytes (params : ConsensusParams) (valsCount : Nat)
    (mem : Mempool.CListMempool) (L : Nat) (budget : Int)
    (hvalid : ValidateConsensusParams params = .ok ())
    (hbudget : MaxDataBytes params.Block.MaxBytes valsCount
      (PendingEvidence params.Evidence.MaxNum.toNat).length = .ok budget)
    (hsame : ∀ e ∈ mem.txs, e.2.tx.length = L ∧ e.2.gasWanted = 0)
    (hmany : budget / L ≤ mem.txs.length)
    (hroom : params.Block.MaxBytes < budget / L * (L + 2)) :
    ∃ evidence data, BlockExecutor.CreateProposalBlock tmhash PendingEvidence params valsCount mem =
        .ok (evidence, data) ∧
      ∀ headerSize evidenceSize commitSize,
        params.Block.MaxBytes < blockSize headerSize data evidenceSize commitSize := by
  obtain ⟨hpos, hle, hgas⟩ := ValidateConsensusParams_block hvalid
  obtain ⟨hbudget0, hbudgetMax⟩ := MaxDataBytes_ok hbudget
  -- some transaction fits, so `L` is positive and at most the budget
  have hL : 0 < L := by
    rcases Nat.eq_zero_or_pos L with rfl | hL
    · simp at hroom
      omega
    · exact hL
  have hq : 0 < budget / L := by
    by_contra hq
    have : budget / L = 0 := le_antisymm (not_lt.mp hq) (Int.ediv_nonneg hbudget0 (by omega))
    rw [this, zero_mul] at hroom
    omega
  have hLbudget : (L : Int) ≤ budget := by
    have := Int.ediv_mul_le budget (by omega : (L : Int) ≠ 0)
    nlinarith
  have hmax : budget + L ≤ MaxInt64 := by
    unfold Consensus.MaxBlockSizeBytes at hle
    unfold MaxInt64
    omega
  -- the reaper takes `budget / L` transactions of `L` bytes each
  have htake : mem.ReapMaxBytesMaxGas budget params.Block.MaxGas =
      (mem.txs.map (·.2.tx)).take (budget / L).toNat := by
    rw [Mempool.CListMempool.ReapMaxBytesMaxGas,
      Mempool.CListMempool.reapMaxBytesMaxGas_of_length hL hmax hgas mem.txs 0 [] hsame le_rfl
        hbudget0, List.nil_append, sub_zero]
  generalize htxs : mem.ReapMaxBytesMaxGas budget params.Block.MaxGas = txs at htake
  have hlen : txs.length = (budget / L).toNat := by
    rw [htake, List.length_take, List.length_map]
    omega
  have hsame' : ∀ tx ∈ txs, tx.length = L := by
    intro tx htx
    rw [htake] at htx
    obtain ⟨e, he, rfl⟩ := List.mem_map.mp (List.mem_of_mem_take htx)
    exact (hsame e he).1
  refine ⟨PendingEvidence params.Evidence.MaxNum.toNat,
    { txs := txs, hash := some (Txs.Hash tmhash txs) }, ?_, ?_⟩
  · dsimp only [BlockExecutor.CreateProposalBlock]
    rw [hbudget, ok_bind, htxs]
    rfl
  · intro headerSize evidenceSize commitSize
    have hframed := mul_le_sum_fieldSize hsame'
    have hsize := sum_fieldSize_le_Size { txs := txs, hash := some (Txs.Hash tmhash txs) }
    have hblock := Size_le_blockSize headerSize { txs := txs, hash := some (Txs.Hash tmhash txs) }
      evidenceSize commitSize
    -- `L + 2` bytes for each of the `budget / L` transactions are more than `MaxBytes`
    calc params.Block.MaxBytes < budget / L * (L + 2) := hroom
      _ = ((txs.length * (L + 2) : Nat) : Int) := by rw [hlen]; push_cast; rw [Int.toNat_of_nonneg hq.le]
      _ ≤ blockSize headerSize { txs := txs, hash := some (Txs.Hash tmhash txs) } evidenceSize
            commitSize := by
          exact_mod_cast hframed.trans (hsize.trans hblock.le)

end Create

/-- `Block.MaxBytes` of 4000 with the other default parameters, one validator, no pending
evidence, and a mempool of 1577 distinct two-byte transactions: the budget of 3154 bytes holds
them all, and with their framing they take 6308. -/
theorem CreateProposalBlock_exceeds_MaxBytes_twoByteTxs :
    let params : ConsensusParams :=
      { DefaultConsensusParams with
        Block := { DefaultConsensusParams.Block with MaxBytes := 4000 }
        Evidence := { DefaultConsensusParams.Evidence with MaxNum := 9 } }
    let mem : Mempool.CListMempool :=
      { Mempool.NewCListMempool ⟨5000, 1073741824, 1048576, 10000, true⟩ 1 with
        txs := (List.range 1577).map fun i => (i, ⟨1, 0, [(i / 256).toUInt8, (i % 256).toUInt8]⟩) }
    ValidateConsensusParams params = .ok () ∧ MaxDataBytes 4000 1 0 = .ok 3154 ∧
      ∃ evidence data, BlockExecutor.CreateProposalBlock id (fun _ => []) params 1 mem =
          .ok (evidence, data) ∧
        ∀ headerSize evidenceSize commitSize,
          (4000 : Int) < blockSize headerSize data evidenceSize commitSize :=
  ⟨by decide, rfl,
    CreateProposalBlock_exceeds_MaxBytes id (fun _ => []) _ 1 _ 2 3154 (by decide) rfl
      (fun e he => by
        simp only [List.mem_map] at he
        obtain ⟨i, -, rfl⟩ := he
        exact ⟨rfl, rfl⟩)
      (by simp) (by decide)⟩

end Tendermint
