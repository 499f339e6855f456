import Tendermint.Types.Vote
import Tendermint.Types.ValidatorSet

/-!
# Vote sets (`types/vote_set.go`)

A `VoteSet` collects the votes of one height, round and vote type.  It keeps them in two
places.  `votes` holds one vote per validator index, the *canonical* one, with `votesBitArray`
marking the filled slots and `sum` adding up their power.  `votesByBlock` holds, per block
key, the votes for that block, with their own bit array and sum; a key is tracked once some
validator's first vote is for it, or once a peer claims a `+2/3` majority for it
(`SetPeerMaj23`).  A vote that conflicts with a validator's canonical vote is kept only under
a block some peer has claimed.  The first block whose votes reach `TotalVotingPower * 2/3 + 1`
becomes `maj23`, and its votes are copied over the canonical ones.

Go mutates the set in place and returns errors as values, so that a call can both change the
set and return an error (a conflicting vote does).  The model returns the new set together with
the results; a panic is a `GoError.panic`.  Go maps are functions into `Option`, slices are
lists, and a bit array is the list of its bits.  `addVerifiedVote` is cut into its three
consecutive steps (`recordVote`, `trackBlock`, `addToBlock`).
-/

namespace Tendermint

/-- `P2PID`. -/
abbrev P2PID := String

/-- Go's `s[i]` on a slice: a run-time panic when `i` is out of range. -/
def goIndex {α : Type} (s : List α) (i : Int) : Go α :=
  if 0 ≤ i then
    match s[i.toNat]? with
    | some a => pure a
    | none => throw (.panic "runtime error: index out of range")
  else throw (.panic "runtime error: index out of range")

lemma goIndex_eq_ok {α : Type} {s : List α} {i : Int} {a : α} :
    goIndex s i = .ok a ↔ 0 ≤ i ∧ s[i.toNat]? = some a := by
  unfold goIndex
  split
  · split <;> simp_all [pure, Except.pure, throw, throwThe, MonadExceptOf.throw]
  · simp_all [throw, throwThe, MonadExceptOf.throw]

lemma goIndex_of_lt {α : Type} {s : List α} {i : Int} (h0 : 0 ≤ i) (hi : i.toNat < s.length) :
    goIndex s i = .ok s[i.toNat] :=
  goIndex_eq_ok.mpr ⟨h0, List.getElem?_eq_getElem hi⟩

/-! ## Bit arrays -/

/-- `bits.BitArray`, as the list of its bits. -/
abbrev BitArray := List Bool

/-- `bits.NewBitArray` (a non-positive size gives `nil`, the empty list). -/
def NewBitArray (bits : Nat) : BitArray := List.replicate bits false

/-- `(*BitArray).SetIndex`: an index past the end changes nothing. -/
def BitArray.SetIndex (bA : BitArray) (i : Nat) (v : Bool) : BitArray := bA.set i v

/-! ## Block votes -/

/-- `blockVotes`: the votes seen for one block key. -/
structure BlockVotes where
  peerMaj23 : Bool
  bitArray : BitArray
  votes : List (Option Vote)
  sum : Int
  deriving DecidableEq, Repr

/-- `newBlockVotes`. -/
def newBlockVotes (peerMaj23 : Bool) (numValidators : Nat) : BlockVotes where
  peerMaj23 := peerMaj23
  bitArray := NewBitArray numValidators
  votes := List.replicate numValidators none
  sum := 0

namespace BlockVotes

/-- `(*blockVotes).addVerifiedVote`: the first vote of a validator is stored and counted, a
later one is ignored. -/
def addVerifiedVote (vs : BlockVotes) (vote : Vote) (votingPower : Int) : Go BlockVotes := do
  let valIndex := vote.validatorIndex
  let existing ← goIndex vs.votes valIndex
  match existing with
  | none =>
      pure { vs with bitArray := vs.bitArray.SetIndex valIndex.toNat true,
                     votes := vs.votes.set valIndex.toNat (some vote),
                     sum := wrap64 (vs.sum + votingPower) }
  | some _ => pure vs

/-- A validator's first vote for the block is stored and counted. -/
lemma addVerifiedVote_of_none {vs : BlockVotes} {vote : Vote}
    (hidx : 0 ≤ vote.validatorIndex) (hslot : vs.votes[vote.validatorIndex.toNat]? = some none)
    (votingPower : Int) :
    vs.addVerifiedVote vote votingPower =
      .ok { vs with bitArray := vs.bitArray.SetIndex vote.validatorIndex.toNat true,
                    votes := vs.votes.set vote.validatorIndex.toNat (some vote),
                    sum := wrap64 (vs.sum + votingPower) } := by
  unfold addVerifiedVote
  dsimp only
  rw [goIndex_eq_ok.mpr ⟨hidx, hslot⟩]
  rfl

/-- `(*blockVotes).getByIndex`, `nil` on a nil receiver. -/
def getByIndex : Option BlockVotes → Int → Go (Option Vote)
  | none, _ => pure none
  | some vs, index => goIndex vs.votes index

end BlockVotes

/-! ## Vote sets -/

/-- `types.VoteSet`.  `maj23` is the first block seen with a `+2/3` majority. -/
structure VoteSet where
  chainID : String
  height : Int
  round : Int
  signedMsgType : SignedMsgType
  valSet : ValidatorSet
  votesBitArray : BitArray
  votes : List (Option Vote)
  sum : Int
  maj23 : Option BlockID
  votesByBlock : Bytes → Option BlockVotes
  peerMaj23s : P2PID → Option BlockID

/-- `NewVoteSet`. -/
def NewVoteSet (chainID : String) (height : Int) (round : Int) (signedMsgType : SignedMsgType)
    (valSet : ValidatorSet) : Go VoteSet :=
  if height = 0 then
    throw (.panic "Cannot make VoteSet for height == 0, doesn\x27t make sense.")
  else pure
    { chainID := chainID, height := height, round := round, signedMsgType := signedMsgType,
      valSet := valSet, votesBitArray := NewBitArray valSet.Size,
      votes := List.replicate valSet.Size none, sum := 0, maj23 := none,
      votesByBlock := fun _ => none, peerMaj23s := fun _ => none }

/-- The errors `addVote` returns: a sentinel, a sentinel wrapped by a `fmt.Errorf` format (the
format is kept, its arguments are not), or `ErrVoteConflictingVotes` with the two votes. -/
inductive AddVoteError where
  | sentinel (err : VoteErr)
  | wrapped (format : String) (err : VoteErr)
  | conflictingVotes (voteA voteB : Vote)
  deriving DecidableEq, Repr

namespace VoteSet

/-- `votes[valIndex] = vote` and `votesBitArray.SetIndex(valIndex, true)`, the pair of writes
`addVerifiedVote` makes in two places. -/
def setVote (voteSet : VoteSet) (valIndex : Nat) (vote : Vote) : VoteSet :=
  { voteSet with votes := voteSet.votes.set valIndex (some vote),
                 votesBitArray := voteSet.votesBitArray.SetIndex valIndex true }

/-- `getVote`: the validator's vote for this block key, if one is stored, canonical or not. -/
def getVote (voteSet : VoteSet) (valIndex : Int) (blockKey : Bytes) : Go (Option Vote) := do
  let existing ← goIndex voteSet.votes valIndex
  if (existing.map fun e => e.blockID.Key) = some blockKey then pure existing
  else BlockVotes.getByIndex (voteSet.votesByBlock blockKey) valIndex

/-- The first step of `addVerifiedVote` (`vote_set.go` 236-256): file the vote under its
validator.  A first vote is stored and counted; a vote conflicting with the stored one is
returned as `conflicting`, and replaces the stored one only when it is for `maj23`. -/
def recordVote (voteSet : VoteSet) (vote : Vote) (blockKey : Bytes) (votingPower : Int) :
    Go (Option Vote × VoteSet) := do
  let valIndex := vote.validatorIndex
  let existing ← goIndex voteSet.votes valIndex
  match existing with
  | some existing =>
      if existing.blockID.Equals vote.blockID then
        throw (.panic "addVerifiedVote does not expect duplicate votes")
      else if (voteSet.maj23.map BlockID.Key) = some blockKey then
        pure (some existing, voteSet.setVote valIndex.toNat vote)
      else pure (some existing, voteSet)
  | none =>
      pure (none, { voteSet.setVote valIndex.toNat vote with
                    sum := wrap64 (voteSet.sum + votingPower) })

/-- The second step of `addVerifiedVote` (258-277): the block votes the vote goes into, or
`none` when a conflicting vote is dropped because no peer has claimed its block.  A key seen for
the first time starts being tracked. -/
def trackBlock (voteSet : VoteSet) (blockKey : Bytes) (conflicting : Option Vote) :
    Option (BlockVotes × VoteSet) :=
  match voteSet.votesByBlock blockKey with
  | some votesByBlock =>
      if conflicting.isSome && !votesByBlock.peerMaj23 then none
      else some (votesByBlock, voteSet)
  | none =>
      if conflicting.isSome then none
      else
        let votesByBlock := newBlockVotes false voteSet.valSet.Size
        some (votesByBlock,
          { voteSet with
            votesByBlock := Function.update voteSet.votesByBlock blockKey (some votesByBlock) })

/-- The copy loop of `addVerifiedVote`, from index `i` on: every vote of the block overwrites
the canonical vote at its index (an index past the end of `votes` panics). -/
def copyVotes (i : Nat) (votes : List (Option Vote)) :
    List (Option Vote) → Go (List (Option Vote))
  | [] => pure votes
  | none :: rest => copyVotes (i + 1) votes rest
  | some vote :: rest =>
      if i < votes.length then copyVotes (i + 1) (votes.set i (some vote)) rest
      else throw (.panic "runtime error: index out of range")

/-- The last step of `addVerifiedVote` (279-301): add the vote to the block's votes, and when
that makes the block the first to reach the quorum, record it as `maj23` and copy its votes
over the canonical ones. -/
def addToBlock (voteSet : VoteSet) (vote : Vote) (blockKey : Bytes) (votingPower : Int)
    (votesByBlock : BlockVotes) : Go VoteSet := do
  let origSum := votesByBlock.sum
  let (total, valSet) ← voteSet.valSet.TotalVotingPower
  -- `TotalVotingPower()*2/3 + 1`: only the doubling can leave the `int64` range
  let quorum := (wrap64 (total * 2)).tdiv 3 + 1
  let votesByBlock ← votesByBlock.addVerifiedVote vote votingPower
  let voteSet := { voteSet with
    valSet := valSet,
    votesByBlock := Function.update voteSet.votesByBlock blockKey (some votesByBlock) }
  if origSum < quorum ∧ quorum ≤ votesByBlock.sum ∧ voteSet.maj23 = none then do
    let votes ← copyVotes 0 voteSet.votes votesByBlock.votes
    pure { voteSet with maj23 := some vote.blockID, votes := votes }
  else pure voteSet

/-- `addVerifiedVote`: `(added, conflicting)` and the new set. -/
def addVerifiedVote (voteSet : VoteSet) (vote : Vote) (blockKey : Bytes) (votingPower : Int) :
    Go (Bool × Option Vote × VoteSet) := do
  let (conflicting, voteSet) ← voteSet.recordVote vote blockKey votingPower
  match voteSet.trackBlock blockKey conflicting with
  | none => pure (false, conflicting, voteSet)
  | some (votesByBlock, voteSet) =>
      let voteSet ← voteSet.addToBlock vote blockKey votingPower votesByBlock
      pure (true, conflicting, voteSet)

/-- `addVote` (and `AddVote`, which only takes the lock): `(added, err)` and the new set.
Everything is checked before the signature; a vote already stored is a duplicate or, with
another signature, a non-deterministic signature. -/
def addVote (crypto : Crypto) (voteSet : VoteSet) :
    Option Vote → Go (Bool × Option AddVoteError × VoteSet)
  | none => pure (false, some (.sentinel .ErrVoteNil), voteSet)
  | some vote =>
    let valIndex := vote.validatorIndex
    let valAddr := vote.validatorAddress
    let blockKey := vote.blockID.Key
    if valIndex < 0 then
      pure (false, some (.wrapped "index < 0: %w" .ErrVoteInvalidValidatorIndex), voteSet)
    else if valAddr.length = 0 then
      pure (false, some (.wrapped "empty address: %w" .ErrVoteInvalidValidatorAddress), voteSet)
    else if vote.height ≠ voteSet.height ∨ vote.round ≠ voteSet.round ∨
        vote.type ≠ voteSet.signedMsgType then
      pure (false, some (.wrapped "expected %d/%d/%d, but got %d/%d/%d: %w"
        .ErrVoteUnexpectedStep), voteSet)
    else match voteSet.valSet.GetByIndex valIndex with
    | none =>
        pure (false, some (.wrapped "cannot find validator %d in valSet of size %d: %w"
          .ErrVoteInvalidValidatorIndex), voteSet)
    | some (lookupAddr, val) =>
      if valAddr ≠ lookupAddr then
        pure (false, some (.wrapped ("vote.ValidatorAddress (%X) does not match address (%X) " ++
          "for vote.ValidatorIndex (%d)\nEnsure the genesis file is correct across all " ++
          "validators: %w") .ErrVoteInvalidValidatorAddress), voteSet)
      else do
        match ← voteSet.getVote valIndex blockKey with
        | some existing =>
            if existing.signature = vote.signature then pure (false, none, voteSet)
            else pure (false, some (.wrapped "existing vote: %v; new vote: %v: %w"
              .ErrVoteNonDeterministicSignature), voteSet)
        | none =>
          match ← vote.Verify crypto voteSet.chainID val.pubKey with
          | some err =>
              pure (false, some (.wrapped
                "failed to verify vote with ChainID %s and PubKey %s: %w" err), voteSet)
          | none => do
            let (added, conflicting, voteSet) ←
              voteSet.addVerifiedVote vote blockKey val.votingPower
            match conflicting with
            | some conflicting => pure (added, some (.conflictingVotes conflicting vote), voteSet)
            | none =>
                if !added then throw (.panic "Expected to add non-conflicting vote")
                else pure (added, none, voteSet)

/-- `SetPeerMaj23`: a peer's claim of a `+2/3` majority makes its block tracked.  A peer
changing its claim is an error, and the set is left as it was. -/
def SetPeerMaj23 (voteSet : VoteSet) (peerID : P2PID) (blockID : BlockID) : Go VoteSet :=
  let blockKey := blockID.Key
  match voteSet.peerMaj23s peerID with
  | some existing =>
      if existing.Equals blockID then pure voteSet
      else throw (.err "setPeerMaj23: Received conflicting blockID from peer %v. Got %v, expected %v")
  | none =>
      let voteSet := { voteSet with
        peerMaj23s := Function.update voteSet.peerMaj23s peerID (some blockID) }
      match voteSet.votesByBlock blockKey with
      | some votesByBlock =>
          if votesByBlock.peerMaj23 then pure voteSet
          else pure { voteSet with
            votesByBlock :=
              Function.update voteSet.votesByBlock blockKey (some { votesByBlock with peerMaj23 := true }) }
      | none =>
          pure { voteSet with
            votesByBlock :=
              Function.update voteSet.votesByBlock blockKey (some (newBlockVotes true voteSet.valSet.Size)) }

/-- `HasTwoThirdsMajority`. -/
def HasTwoThirdsMajority (voteSet : VoteSet) : Bool := voteSet.maj23.isSome

/-- `TwoThirdsMajority`: the block with a `+2/3` majority, if there is one. -/
def TwoThirdsMajority (voteSet : VoteSet) : Option BlockID := voteSet.maj23

end VoteSet

end Tendermint
