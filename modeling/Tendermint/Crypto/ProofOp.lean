import Tendermint.Crypto.Merkle
import Tendermint.Crypto.KeyPath
import Tendermint.Lib.Varint
import Tendermint.Types.VoteSet

/-!
# Chains of proof operators (`crypto/merkle/proof_op.go`, `proof_value.go`)

A light client checks the answer to an ABCI query with the proof operators the full node sends
along.  `ProofRuntime.Verify` decodes them (`DefaultProofRuntime` knows `ValueOp` only), and
`ProofOperators.Verify` runs them one after the other: each operator with a key takes the last
key of the key path that is left, and turns the values it is given into a Merkle root, which
the next operator takes.  The last root must be the trusted one, and every key must have been
taken.  `VerifyAbsence` passes no values at all.

The loop runs over the operators and then reads `args[0]`.  With no operator the values are
the ones passed in, and `VerifyAbsence`'s are none:

* **`VerifyAbsence_no_ops_panics`** — with an empty list of operators and any key path
  `KeyPathToKeys` accepts, `VerifyAbsence` panics with an index out of range, whatever the root.

The protobuf decoding of a `ProofOp`'s data (`tmcrypto.ValueOp.Unmarshal`) is a parameter,
`unmarshal`, as is the hash `tmhash.Sum`.
-/

namespace Tendermint

namespace Merkle

open ExceptRun

/-- `tmcrypto.ProofOp`. -/
structure ProofOp where
  type : String
  Key : Bytes
  Data : Bytes

/-- `ProofOpValue`. -/
def ProofOpValue : String := "simple:v"

/-- `MaxAunts`. -/
def MaxAunts : Nat := 100

/-- `tmhash.Size`. -/
def tmhashSize : Nat := 32

/-- `ValueOp`. -/
structure ValueOp where
  key : Bytes
  Proof : Proof

/-- `Proof.ValidateBasic`. -/
def Proof.ValidateBasic (sp : Proof) : Except String Unit :=
  if sp.total < 0 then throw "negative Total"
  else if sp.index < 0 then throw "negative Index"
  else if sp.leafHash.length ≠ tmhashSize then throw "expected LeafHash size to be %d, got %d"
  else if sp.aunts.length > MaxAunts then throw "expected no more than %d aunts, got %d"
  else if sp.aunts.any (·.length ≠ tmhashSize) then throw "expected Aunts#%d size to be %d, got %d"
  else pure ()

/-- `ProofFromProto`; `none` is a `nil` proof. -/
def ProofFromProto (pb : Option Proof) : Except String Proof :=
  match pb with
  | none => throw "nil proof"
  | some sp => do
    sp.ValidateBasic
    pure sp

/-- `encodeByteSlice`: the length as a uvarint, then the bytes. -/
def encodeByteSlice (bz : Bytes) : Bytes := Varint.encode bz.length ++ bz

section Hash

variable (tmhash : Bytes → Bytes)

/-- `ValueOp.Run`: one value, whose hash under the key must be the proof's leaf; the result is
the root the proof computes, `nil` (empty) for a malformed proof. -/
def ValueOp.Run (op : ValueOp) (args : List Bytes) : Except String (List Bytes) :=
  match args with
  | [value] =>
    let vhash := tmhash value
    let kvhash := leafHash tmhash (encodeByteSlice op.key ++ encodeByteSlice vhash)
    if kvhash ≠ op.Proof.leafHash then throw "leaf hash mismatch: want %X got %X"
    else pure [(op.Proof.ComputeRootHash tmhash).getD []]
  | _ => throw "expected 1 arg, got %v"

/-- The loop of `ProofOperators.Verify`: the keys and the values left after the operators. -/
def verifyOps : List ValueOp → List Bytes → List Bytes → Go (List Bytes × List Bytes)
  | [], keys, args => pure (keys, args)
  | op :: poz, keys, args => do
    let keys ← if op.key.length ≠ 0 then
        match keys.getLast? with
        | none => throw (.err
            "key path has insufficient # of parts: expected no more keys but got %+v")
        | some lastKey =>
          if lastKey ≠ op.key then throw (.err "key mismatch on operation #%d: expected %+v but got %+v")
          else pure keys.dropLast
      else pure keys
    let args ← (op.Run tmhash args).mapError .err
    verifyOps poz keys args

/-- `ProofOperators.Verify`. -/
def ProofOperators.Verify (poz : List ValueOp) (root keypath : Bytes) (args : List Bytes) :
    Go Unit := do
  let keys ← (KeyPathToKeys keypath).mapError .err
  let (keys, args) ← verifyOps tmhash poz keys args
  let arg ← goIndex args 0
  if root ≠ arg then throw (.err "calculated root hash is invalid: expected %+v but got %+v")
  if keys.length ≠ 0 then throw (.err "keypath not consumed all")

variable (unmarshal : Bytes → Except String (Option Proof))

/-- `ValueOpDecoder`, with the protobuf decoding of the data given as `unmarshal`. -/
def ValueOpDecoder (pop : ProofOp) : Except String ValueOp :=
  if pop.type ≠ ProofOpValue then throw "unexpected ProofOp.Type; got %v, want %v"
  else do
    let pb ← (unmarshal pop.Data).mapError ("decoding ProofOp.Data into ValueOp: " ++ ·)
    let sp ← ProofFromProto pb
    pure ⟨pop.Key, sp⟩

/-- `Decode` of `DefaultProofRuntime`, whose only decoder is the value decoder. -/
def Decode (pop : ProofOp) : Except String ValueOp :=
  if pop.type = ProofOpValue then ValueOpDecoder unmarshal pop
  else throw "unrecognized proof type %v"

/-- `DecodeProof`. -/
def DecodeProof (ops : List ProofOp) : Except String (List ValueOp) :=
  ops.mapM fun pop => (Decode unmarshal pop).mapError ("decoding a proof operator: " ++ ·)

/-- `ProofRuntime.Verify` of `DefaultProofRuntime`. -/
def Verify (ops : List ProofOp) (root keypath : Bytes) (args : List Bytes) : Go Unit := do
  let poz ← ((DecodeProof unmarshal ops).mapError ("decoding proof: " ++ ·)).mapError .err
  ProofOperators.Verify tmhash poz root keypath args

/-- `ProofRuntime.VerifyValue`. -/
def VerifyValue (ops : List ProofOp) (root keypath value : Bytes) : Go Unit :=
  Verify tmhash unmarshal ops root keypath [value]

/-- `ProofRuntime.VerifyAbsence`: no values, Go's `nil`. -/
def VerifyAbsence (ops : List ProofOp) (root keypath : Bytes) : Go Unit :=
  Verify tmhash unmarshal ops root keypath []

/-- With no operator to run, `VerifyAbsence` reads the first of no values, for every key path
`KeyPathToKeys` accepts and every root. -/
theorem VerifyAbsence_no_ops_panics (root keypath : Bytes) (keys : List Bytes)
    (hkeys : KeyPathToKeys keypath = .ok keys) :
    Panics (VerifyAbsence tmhash unmarshal [] root keypath) := by
  refine ⟨"runtime error: index out of range", ?_⟩
  simp only [VerifyAbsence, Verify, DecodeProof, List.mapM_nil, ProofOperators.Verify, hkeys]
  rfl

end Hash

/-- The key path `/a`, an empty root, and no operators. -/
theorem VerifyAbsence_no_ops_panics_keyA :
    KeyPathToKeys [47, 97] = .ok [[97]] ∧
      Panics (VerifyAbsence id (fun _ => .ok none) [] [] [47, 97]) :=
  ⟨rfl, VerifyAbsence_no_ops_panics id (fun _ => .ok none) [] [47, 97] [[97]] rfl⟩

end Merkle

end Tendermint
