import Tendermint.Light.Backwards

/-!
# The verifying RPC client (`light/rpc/client.go`)

`rpc.Client` answers an RPC call by asking another client, `next`, and checking the answer
against the headers the light client has verified.  For a block, `Block(height)` and
`BlockByHash(hash)` check that the answer is well formed, that its block ID names the block,
and that the block hashes to the light client's header at the block's own height
(`verifyResultBlock`).  That is all they guarantee (`Block_sound`); neither
compares the block with the request:

* **`Block_of_other_height`** — whatever height or hash is asked for, a next client that
  answers with a well-formed block of any height, which hashes to the light client's header at
  that height, has its answer returned.

`next` and the light client are given by their answers: of the methods of `next`, the two these
calls make, and the light client by `VerifyHeaderAtHeight`.
-/

namespace Tendermint

open ExceptRun

section Hash

variable (tmhash : Bytes → Bytes) (commitSigBytes : CommitSig → Bytes)
  (headerHash : Header → Bytes)

/-- `Block.fillHeader`: the roots the header leaves empty, from the block. -/
def Block.fillHeader (b : Block) (lastCommit : Commit) : Header :=
  { b.header with
    lastCommitHash := if b.header.lastCommitHash = [] then lastCommit.Hash tmhash commitSigBytes
      else b.header.lastCommitHash
    dataHash := if b.header.dataHash = [] then b.data.Hash tmhash else b.header.dataHash
    evidenceHash := if b.header.evidenceHash = [] then b.evidence.Hash tmhash
      else b.header.evidenceHash }

/-- `Block.Hash`: the hash of the filled header, `nil` without a last commit. -/
def Block.Hash (b : Block) : Bytes :=
  match b.lastCommit with
  | none => []
  | some lastCommit => headerHash (b.fillHeader tmhash commitSigBytes lastCommit)

end Hash

namespace Light

namespace rpc

/-- `ctypes.ResultBlock`. -/
structure ResultBlock where
  BlockID : BlockID
  Block : Tendermint.Block

/-- The calls of the next client that `Block` and `BlockByHash` make. -/
structure NextClient where
  Block : Option Int → Except String ResultBlock
  BlockByHash : Bytes → Except String ResultBlock

/-- `rpc.Client`: the next client, and the light client by its verified header at a height. -/
structure Client where
  next : NextClient
  VerifyHeaderAtHeight : Int → Except String SignedHeader

namespace Client

section Verify

variable (tmhash : Bytes → Bytes) (commitSigBytes : CommitSig → Bytes)
  (headerHash : Tendermint.Header → Bytes)

/-- `updateLightClientIfNeededTo`. -/
def updateLightClientIfNeededTo (c : Client) (height : Int) : Except String SignedHeader :=
  (c.VerifyHeaderAtHeight height).mapError fun err =>
    "failed to update light client to " ++ toString height ++ ": " ++ err

/-- The checks `Block` and `BlockByHash` make of the next client's answer. -/
def verifyResultBlock (c : Client) (res : ResultBlock) : Except String ResultBlock := do
  res.BlockID.ValidateBasic
  res.Block.ValidateBasic tmhash commitSigBytes
  if res.BlockID.hash ≠ res.Block.Hash tmhash commitSigBytes headerHash then
    throw "blockID %X does not match with block %X"
  else
    let h ← c.updateLightClientIfNeededTo res.Block.header.height
    if res.Block.Hash tmhash commitSigBytes headerHash ≠ headerHash h.Header then
      throw "block header %X does not match with trusted header %X"
    else pure res

/-- `Block`. -/
def Block (c : Client) (height : Option Int) : Except String ResultBlock := do
  let res ← c.next.Block height
  c.verifyResultBlock tmhash commitSigBytes headerHash res

/-- `BlockByHash`. -/
def BlockByHash (c : Client) (hash : Bytes) : Except String ResultBlock := do
  let res ← c.next.BlockByHash hash
  c.verifyResultBlock tmhash commitSigBytes headerHash res

/-- What the checks establish of an answer: it is well formed, its block ID names the block,
and the block hashes to the light client's header at the block's height. -/
def Checked (c : Client) (res : ResultBlock) : Prop :=
  res.BlockID.ValidateBasic = .ok () ∧ res.Block.ValidateBasic tmhash commitSigBytes = .ok () ∧
    res.BlockID.hash = res.Block.Hash tmhash commitSigBytes headerHash ∧
    ∃ sh, c.VerifyHeaderAtHeight res.Block.header.height = .ok sh ∧
      res.Block.Hash tmhash commitSigBytes headerHash = headerHash sh.Header

variable {tmhash commitSigBytes headerHash}

/-- An answer the checks pass is returned as it is, and is `Checked`. -/
lemma verifyResultBlock_sound {c : Client} {res r : ResultBlock}
    (h : c.verifyResultBlock tmhash commitSigBytes headerHash res = .ok r) :
    r = res ∧ c.Checked tmhash commitSigBytes headerHash res := by
  unfold verifyResultBlock at h
  rw [check_bind_eq_ok, check_bind_eq_ok] at h
  obtain ⟨hid, hvalid, h⟩ := h
  rw [ite_throw_eq_ok] at h
  obtain ⟨hbid, h⟩ := h
  obtain ⟨sh, hsh, h⟩ := bind_eq_ok h
  rw [ite_throw_eq_ok, pure_eq_ok] at h
  obtain ⟨htrusted, rfl⟩ := h
  rw [updateLightClientIfNeededTo, mapError_eq_ok] at hsh
  exact ⟨rfl, hid, hvalid, not_not.mp hbid, sh, hsh, not_not.mp htrusted⟩

/-- A call that checks the next client's answer returns that answer, `Checked`. -/
lemma bind_verifyResultBlock_sound {c : Client} {x : Except String ResultBlock} {r : ResultBlock}
    (h : (x >>= c.verifyResultBlock tmhash commitSigBytes headerHash) = .ok r) :
    x = .ok r ∧ c.Checked tmhash commitSigBytes headerHash r := by
  obtain ⟨res, hres, hverify⟩ := bind_eq_ok h
  obtain ⟨rfl, hchecked⟩ := verifyResultBlock_sound hverify
  exact ⟨hres, hchecked⟩

/-- What `Block` and `BlockByHash` return is the next client's answer to the request, and it is
`Checked`. -/
theorem Block_sound (c : Client) (height : Option Int) (hash : Bytes) (r : ResultBlock) :
    (c.Block tmhash commitSigBytes headerHash height = .ok r →
        c.next.Block height = .ok r ∧ c.Checked tmhash commitSigBytes headerHash r) ∧
      (c.BlockByHash tmhash commitSigBytes headerHash hash = .ok r →
        c.next.BlockByHash hash = .ok r ∧ c.Checked tmhash commitSigBytes headerHash r) :=
  ⟨bind_verifyResultBlock_sound, bind_verifyResultBlock_sound⟩

/-- An answer that passes every check is returned. -/
lemma verifyResultBlock_of_valid {c : Client} {res : ResultBlock} {sh : SignedHeader}
    (hid : res.BlockID.ValidateBasic = .ok ())
    (hvalid : res.Block.ValidateBasic tmhash commitSigBytes = .ok ())
    (hbid : res.BlockID.hash = res.Block.Hash tmhash commitSigBytes headerHash)
    (hlc : c.VerifyHeaderAtHeight res.Block.header.height = .ok sh)
    (htrusted : res.Block.Hash tmhash commitSigBytes headerHash = headerHash sh.Header) :
    c.verifyResultBlock tmhash commitSigBytes headerHash res = .ok res := by
  simp only [verifyResultBlock, updateLightClientIfNeededTo, hid, hvalid, hbid, hlc, htrusted,
    ok_bind, Except.mapError, ne_eq, not_true_eq_false, if_false]
  rfl

/-- Whatever height and hash are asked for, a next client that answers both with a well-formed
block whose block ID names it and which hashes to the light client's header at the block's own
height has its answer returned, the block's height and hash being free. -/
theorem Block_of_other_height (c : Client) (height : Int) (hash : Bytes) (res : ResultBlock)
    (sh : SignedHeader) (hnext : c.next.Block (some height) = .ok res)
    (hnextHash : c.next.BlockByHash hash = .ok res)
    (hid : res.BlockID.ValidateBasic = .ok ())
    (hvalid : res.Block.ValidateBasic tmhash commitSigBytes = .ok ())
    (hbid : res.BlockID.hash = res.Block.Hash tmhash commitSigBytes headerHash)
    (hlc : c.VerifyHeaderAtHeight res.Block.header.height = .ok sh)
    (htrusted : res.Block.Hash tmhash commitSigBytes headerHash = headerHash sh.Header) :
    c.Block tmhash commitSigBytes headerHash (some height) = .ok res ∧
      c.BlockByHash tmhash commitSigBytes headerHash hash = .ok res := by
  have hverify := verifyResultBlock_of_valid hid hvalid hbid hlc htrusted
  constructor
  · rw [Block, hnext, ok_bind, hverify]
  · rw [BlockByHash, hnextHash, ok_bind, hverify]

end Verify

end Client

/-- A root of thirty-two ones. -/
def oneRoot : Bytes := List.replicate 32 1

/-- The block at height one, its roots memoised as `oneRoot`. -/
def oneBlock : Tendermint.Block :=
  ⟨{ testHeader 1 1 with lastCommitHash := oneRoot, dataHash := oneRoot, evidenceHash := oneRoot },
    ⟨[], some oneRoot⟩, ⟨[], some oneRoot⟩, some { oneHeader.Commit with hash := some oneRoot }⟩

/-- A next client that answers every request with the block at height one, and a light client
that has verified its header. -/
def oneClient : Client :=
  ⟨⟨fun _ => .ok ⟨ValidatorSet.oneBlockID, oneBlock⟩,
      fun _ => .ok ⟨ValidatorSet.oneBlockID, oneBlock⟩⟩,
    fun _ => .ok ⟨oneBlock.header, oneHeader.Commit⟩⟩

/-- Asked for the block at height two, or for the block of hash thirty-two twos, the client
returns the block at height one, of another hash. -/
theorem Block_of_other_height_twoAsked :
    (oneClient.Block (fun _ => oneRoot) (fun _ => []) timeHash (some 2) =
        .ok ⟨ValidatorSet.oneBlockID, oneBlock⟩ ∧
      oneClient.BlockByHash (fun _ => oneRoot) (fun _ => []) timeHash (List.replicate 32 2) =
        .ok ⟨ValidatorSet.oneBlockID, oneBlock⟩) ∧
      oneBlock.header.height ≠ 2 ∧
      oneBlock.Hash (fun _ => oneRoot) (fun _ => []) timeHash ≠ List.replicate 32 2 :=
  ⟨Client.Block_of_other_height oneClient 2 _ _ ⟨oneBlock.header, oneHeader.Commit⟩ rfl rfl
    (by decide) (by decide) (by decide) rfl (by decide), by decide, by decide⟩

end rpc

end Light

end Tendermint
