import Tendermint.Consensus.HeightVoteSet
import Tendermint.Consensus.Proposal
import Tendermint.State.Store
import Tendermint.Types.Commit
import Tendermint.Types.Block
import Tendermint.Crypto.ProofOp

/-!
# The consensus state machine (`consensus/state.go`)

`State` runs the rounds of one height after the other.  Its `receiveRoutine` takes one input at a
time, under the state's mutex: a message of a peer or one the state sent itself (`handleMsg`), a
timeout the ticker fires (`handleTimeout`), or the mempool's notice that transactions are
available (`handleTxsAvailable`).  Each of them may move the round state through the `enter*`
functions, which call one another: `enterNewRound` goes on to `enterPropose`, which goes on to
`enterPrevote` once the proposal is complete, and a `+2/3` of precommits for a block goes through
`enterCommit` to `finalizeCommit`, which applies the block and starts the next height
(`updateToState`).

Each `enter*` function first checks that its height, round and step lie ahead of the state's
(`enterCommit` checks the step only, `enterPrecommitWait` a flag), does its work, and in a
deferred call moves the state to its own round and step.  The model keeps that order: the body
before the deferred update is a definition of its own where it is long (`proposeBody`,
`precommitBody`, `commitBody`).

The model keeps the fields these functions read and write.  What the state owns but other
components answer for is the environment `Env`: the block executor (`ValidateBlock`,
`ApplyBlock`, `CreateProposalBlock`), the block store (`LoadSeenCommit`, and the app-hash
comparison of `needProofBlock`), the decoding of a block from its parts, the hash of a block and
the signature scheme.  The private validator is a field, as in Go, given by its answers; a
signer whose answers change is a sequence of `SetPrivValidator` calls.

The two channels the state sends on are kept as everything sent on them: `internalMsgQueue`,
the messages (its own proposal, block parts and votes) it hands to its own receive routine, and
`timeouts`, the timeouts handed to the ticker.  The world may deliver any of them, in any order
and any number of times, which covers the goroutine `sendInternalMessage` starts when the queue
is full, the ticker, and the replay of the write-ahead log.  A panic ends the receive routine
(`receiveRoutine` recovers it and stops), so a step that panics has no successor state.

Left out: the write-ahead log, the event bus, metrics, logging, the durations of timeouts, the
evidence the state reports (`savePOLC`, conflicting votes), and the block store writes of
`finalizeCommit`.
-/

namespace Tendermint

/-! ## Checks of the messages a peer sends -/

namespace Part

/-- `Part.ValidateBasic`. -/
def ValidateBasic (part : Part) : Except String Unit :=
  if (part.bytes.length : Int) > Consensus.BlockPartSizeBytes then
    throw ("too big: " ++ toString part.bytes.length ++ " bytes, max: " ++
      toString Consensus.BlockPartSizeBytes)
  else part.proof.ValidateBasic.mapError ("wrong Proof: " ++ ·)

end Part

/-- `types.NewProposal`, stamped with the time `now`. -/
def NewProposal (height round polRound : Int) (blockID : BlockID) (now : Time) : Proposal :=
  { height := height, round := round, polRound := polRound, blockID := blockID,
    timestamp := now, signature := [] }

namespace VoteSet

/-- `HasTwoThirdsAny`. -/
def HasTwoThirdsAny (voteSet : VoteSet) : Go Bool := do
  let (total, _) ← voteSet.valSet.TotalVotingPower
  pure (voteSet.sum > (wrap64 (total * 2)).tdiv 3)

/-- `HasAll`. -/
def HasAll (voteSet : VoteSet) : Go Bool := do
  let (total, _) ← voteSet.valSet.TotalVotingPower
  pure (voteSet.sum = total)

end VoteSet

namespace Consensus

open GoMap ExceptRun

/-- `tmmath.SafeAddInt32`. -/
def SafeAddInt32 (a b : Int) : Go Int :=
  if b > 0 ∧ a > MaxInt32 - b then throw (.panic ErrOverflowInt32)
  else if b < 0 ∧ a < MinInt32 - b then throw (.panic ErrOverflowInt32)
  else pure (a + b)

/-- Go's `int32` addition, which wraps around. -/
def wrap32 (x : Int) : Int := (x + 2 ^ 31) % 2 ^ 32 - 2 ^ 31

/-! ## Round steps and messages -/

/-- `cstypes.RoundStepType`. -/
inductive RoundStepType where
  | RoundStepNewHeight
  | RoundStepNewRound
  | RoundStepPropose
  | RoundStepPrevote
  | RoundStepPrevoteWait
  | RoundStepPrecommit
  | RoundStepPrecommitWait
  | RoundStepCommit
  deriving DecidableEq, Repr

namespace RoundStepType

/-- The `uint8` value of a step, which Go's comparisons of steps compare. -/
def val : RoundStepType → Nat
  | RoundStepNewHeight => 1
  | RoundStepNewRound => 2
  | RoundStepPropose => 3
  | RoundStepPrevote => 4
  | RoundStepPrevoteWait => 5
  | RoundStepPrecommit => 6
  | RoundStepPrecommitWait => 7
  | RoundStepCommit => 8

instance : LE RoundStepType := ⟨fun a b => a.val ≤ b.val⟩
instance : LT RoundStepType := ⟨fun a b => a.val < b.val⟩
instance (a b : RoundStepType) : Decidable (a ≤ b) := inferInstanceAs (Decidable (a.val ≤ b.val))
instance (a b : RoundStepType) : Decidable (a < b) := inferInstanceAs (Decidable (a.val < b.val))

@[simp] lemma le_iff (a b : RoundStepType) : a ≤ b ↔ a.val ≤ b.val := Iff.rfl
@[simp] lemma lt_iff (a b : RoundStepType) : a < b ↔ a.val < b.val := Iff.rfl

end RoundStepType

/-- `CompareHRS`: `-1`, `0` or `1` as the first height, round and step come before, at or after
the second, in that order. -/
def CompareHRS (h1 r1 : Int) (s1 : RoundStepType) (h2 r2 : Int) (s2 : RoundStepType) : Int :=
  if h1 < h2 then -1
  else if h1 > h2 then 1
  else if r1 < r2 then -1
  else if r1 > r2 then 1
  else if s1 < s2 then -1
  else if s1 > s2 then 1
  else 0

/-- The messages `handleMsg` acts on: `*ProposalMessage` (with the proposal's `Type`, which the
model's `Proposal` does not keep), `*BlockPartMessage` and `*VoteMessage`. -/
inductive StateMessage where
  | ProposalMessage (type : SignedMsgType) (proposal : Proposal)
  | BlockPartMessage (height round : Int) (part : Part)
  | VoteMessage (vote : Vote)
  deriving DecidableEq

/-- The `ValidateBasic` of each message, which the reactor runs on what a peer sends. -/
def StateMessage.ValidateBasic : StateMessage → Except String Unit
  | .ProposalMessage type proposal => proposal.ValidateBasic type
  | .BlockPartMessage height round part =>
    if height < 0 then throw "negative Height"
    else if round < 0 then throw "negative Round"
    else part.ValidateBasic.mapError ("wrong Part: " ++ ·)
  | .VoteMessage vote => vote.ValidateBasic

/-- `msgInfo`: a message and the peer it came from, `""` for the state's own. -/
structure msgInfo where
  Msg : StateMessage
  PeerID : P2PID
  deriving DecidableEq

/-- `timeoutInfo`, without its duration: when a timeout fires is the world's choice. -/
structure timeoutInfo where
  Height : Int
  Round : Int
  Step : RoundStepType
  deriving DecidableEq

/-- `types.PrivValidator`, by its answers: its public key, and a signature or an error for a vote
or a proposal of a chain. -/
structure PrivValidator where
  GetPubKey : Except String PubKey
  SignVote : String → Vote → Except String Bytes
  SignProposal : String → Proposal → Except String Bytes

/-- What the state calls and does not own, by the answers it reads. -/
structure Env where
  crypto : Crypto
  /-- `tmhash.Sum`, which the proofs of block parts are checked with. -/
  tmhash : Bytes → Bytes
  /-- `Block.Hash`. -/
  blockHash : Block → Bytes
  /-- `types.ProposalSignBytes`. -/
  ProposalSignBytes : String → Proposal → Go Bytes
  /-- `proto.Unmarshal` of the bytes of a complete part set, then `types.BlockFromProto`. -/
  decodeBlock : Bytes → Except String Block
  /-- `BlockExecutor.ValidateBlock`. -/
  ValidateBlock : sm.State → Block → Except String Unit
  /-- `BlockExecutor.ApplyBlock`: the next state and the height to retain blocks from. -/
  ApplyBlock : sm.State → BlockID → Block → Except String (sm.State × Int)
  /-- `BlockExecutor.CreateProposalBlock`, which reaps the mempool and the evidence pool. -/
  CreateProposalBlock : Int → sm.State → Commit → Address → Option (Block × PartSet)
  /-- `needProofBlock`'s comparison of the state's app hash with the one in the block meta below
  the height, which panics when the meta is missing. -/
  appHashChanged : sm.State → Int → Go Bool
  /-- `BlockStore.LoadSeenCommit`. -/
  LoadSeenCommit : Int → Option Commit
  /-- `config.WaitForTxs()`. -/
  WaitForTxs : Bool
  /-- `config.CreateEmptyBlocksInterval > 0`. -/
  CreateEmptyBlocksInterval : Bool
  /-- `config.SkipTimeoutCommit`. -/
  SkipTimeoutCommit : Bool

/-- `sm.State.IsEmpty`.  Go compares the validator-set pointer with `nil`; the model's sets are
values, and the empty set stands for `nil`. -/
def IsEmpty (st : sm.State) : Bool := st.Validators.validators.isEmpty

/-- The zero `sm.State{}` a new `State` starts with. -/
def emptyState : sm.State :=
  { ChainID := "", InitialHeight := 0, LastBlockHeight := 0,
    LastValidators := ⟨[], none, 0⟩, Validators := ⟨[], none, 0⟩, NextValidators := ⟨[], none, 0⟩,
    LastHeightValidatorsChanged := 0, ConsensusParams := sm.emptyParams,
    LastHeightConsensusParamsChanged := 0 }

/-- `errPubKeyIsNotSet`. -/
def errPubKeyIsNotSet : String := "pubkey is not set. Look for \"Can\x27t get private validator pubkey\" errors"

/-- `consensus.State` with its `cstypes.RoundState`: the fields the transitions read and write. -/
structure State where
  Height : Int
  Round : Int
  Step : RoundStepType
  Validators : ValidatorSet
  Proposal : Option Proposal
  ProposalBlock : Option Block
  ProposalBlockParts : Option PartSet
  LockedRound : Int
  LockedBlock : Option Block
  LockedBlockParts : Option PartSet
  ValidRound : Int
  ValidBlock : Option Block
  ValidBlockParts : Option PartSet
  Votes : Option HeightVoteSet
  CommitRound : Int
  LastCommit : Option VoteSet
  LastValidators : ValidatorSet
  TriggeredTimeoutPrecommit : Bool
  state : sm.State
  privValidator : Option PrivValidator
  privValidatorPubKey : Option PubKey
  /-- Every message sent on `internalMsgQueue`, in order. -/
  internalMsgQueue : List msgInfo
  /-- Every timeout handed to the ticker, in order. -/
  timeouts : List timeoutInfo

/-- The zero `State` that `NewState` starts from; its step is never read before `updateToState`
sets it. -/
def State.empty : State :=
  { Height := 0, Round := 0, Step := .RoundStepNewHeight, Validators := ⟨[], none, 0⟩,
    Proposal := none, ProposalBlock := none, ProposalBlockParts := none,
    LockedRound := 0, LockedBlock := none, LockedBlockParts := none,
    ValidRound := 0, ValidBlock := none, ValidBlockParts := none, Votes := none,
    CommitRound := 0, LastCommit := none, LastValidators := ⟨[], none, 0⟩,
    TriggeredTimeoutPrecommit := false, state := emptyState, privValidator := none,
    privValidatorPubKey := none, internalMsgQueue := [], timeouts := [] }

/-! ## Reading blocks, part sets and vote sets through Go's pointers -/

/-- `PartSet.Header`; a `nil` set has the zero header. -/
def partSetHeader : Option PartSet → PartSetHeader
  | none => ⟨0, []⟩
  | some ps => ps.Header

/-- `PartSet.HasHeader`; a `nil` set has none. -/
def HasHeader (ps : Option PartSet) (header : PartSetHeader) : Bool :=
  match ps with
  | none => false
  | some ps => ps.Header.Equals header

/-- `VoteSet.TwoThirdsMajority` on a pointer: a `nil` set has none. -/
def twoThirdsMajority (voteSet : Option VoteSet) : Option BlockID :=
  voteSet.bind VoteSet.TwoThirdsMajority

/-- `VoteSet.HasTwoThirdsAny` on a pointer: `false` for a `nil` set. -/
def hasTwoThirdsAny : Option VoteSet → Go Bool
  | none => pure false
  | some voteSet => voteSet.HasTwoThirdsAny

/-- `VoteSet.HasAll` on a pointer: a `nil` set is dereferenced. -/
def hasAll : Option VoteSet → Go Bool
  | none => throw (.panic nilDereference)
  | some voteSet => voteSet.HasAll

section Transitions

variable (env : Env) (now : Time)

/-- `Block.HashesTo`. -/
def HashesTo (block : Option Block) (hash : Bytes) : Bool :=
  if hash.length = 0 then false
  else match block with
    | none => false
    | some b => env.blockHash b == hash

namespace State

/-- `updateRoundStep`. -/
def updateRoundStep (cs : State) (round : Int) (step : RoundStepType) : State :=
  { cs with Round := round, Step := step }

/-- `sendInternalMessage`. -/
def sendInternalMessage (cs : State) (mi : msgInfo) : State :=
  { cs with internalMsgQueue := cs.internalMsgQueue ++ [mi] }

/-- `scheduleTimeout`. -/
def scheduleTimeout (cs : State) (height round : Int) (step : RoundStepType) : State :=
  { cs with timeouts := cs.timeouts ++ [⟨height, round, step⟩] }

/-- `Votes.Prevotes(round)`. -/
def Prevotes (cs : State) (round : Int) : Go (Option VoteSet) :=
  match cs.Votes with
  | none => throw (.panic nilDereference)
  | some hvs => hvs.getVoteSet round .PrevoteType

/-- `Votes.Precommits(round)`. -/
def Precommits (cs : State) (round : Int) : Go (Option VoteSet) :=
  match cs.Votes with
  | none => throw (.panic nilDereference)
  | some hvs => hvs.getVoteSet round .PrecommitType

/-- `isProposalComplete`: the proposal and its block are there, and so is the `+2/3` of
prevotes of its POL round, if it names one. -/
def isProposalComplete (cs : State) : Go Bool :=
  match cs.Proposal, cs.ProposalBlock with
  | some proposal, some _ =>
    if proposal.polRound < 0 then pure true
    else do
      let prevotes ← cs.Prevotes proposal.polRound
      pure (prevotes.any VoteSet.HasTwoThirdsMajority)
  | _, _ => pure false

/-- `needProofBlock`. -/
def needProofBlock (cs : State) (height : Int) : Go Bool :=
  if height = cs.state.InitialHeight then pure true else env.appHashChanged cs.state height

/-- `updatePrivValidatorPubKey`: an error of the signer leaves the key as it was. -/
def updatePrivValidatorPubKey (cs : State) : State :=
  match cs.privValidator with
  | none => cs
  | some pv =>
    match pv.GetPubKey with
    | .ok pubKey => { cs with privValidatorPubKey := some pubKey }
    | .error _ => cs

/-- `SetPrivValidator`. -/
def SetPrivValidator (cs : State) (priv : Option PrivValidator) : State :=
  updatePrivValidatorPubKey { cs with privValidator := priv }

/-! ### Signing -/

/-- `voteTime`: now, but not before the locked block's (or else the proposal block's) time plus
`TimeIotaMs`. -/
def voteTime (cs : State) : Time :=
  let timeIota := cs.state.ConsensusParams.Block.TimeIotaMs * 1000000
  let minVoteTime := match cs.LockedBlock, cs.ProposalBlock with
    | some b, _ => b.header.time + timeIota
    | none, some b => b.header.time + timeIota
    | none, none => now
  if now > minVoteTime then now else minVoteTime

/-- `signVote`: the vote of this height and round, signed by the private validator. -/
def signVote (cs : State) (pv : PrivValidator) (msgType : SignedMsgType) (hash : Bytes)
    (header : PartSetHeader) : Except String Vote :=
  match cs.privValidatorPubKey with
  | none => throw errPubKeyIsNotSet
  | some pubKey =>
    let addr := env.crypto.pubKeyAddress pubKey
    let valIdx : Int := match cs.Validators.GetByAddress addr with
      | some (i, _) => i
      | none => -1
    let vote : Vote :=
      { type := msgType, height := cs.Height, round := cs.Round, blockID := ⟨hash, header⟩,
        timestamp := cs.voteTime now, validatorAddress := addr, validatorIndex := valIdx,
        signature := [] }
    do
      let sig ← pv.SignVote cs.state.ChainID vote
      pure { vote with signature := sig }

/-- `signAddVote`: a vote of a validator of the set is signed and sent to the receive routine;
a node without a key, or outside the set, or whose signer refuses, sends nothing. -/
def signAddVote (cs : State) (msgType : SignedMsgType) (hash : Bytes) (header : PartSetHeader) :
    State :=
  match cs.privValidator, cs.privValidatorPubKey with
  | some pv, some pubKey =>
    if !cs.Validators.HasAddress (env.crypto.pubKeyAddress pubKey) then cs
    else match cs.signVote env now pv msgType hash header with
      | .ok vote => cs.sendInternalMessage ⟨.VoteMessage vote, ""⟩
      | .error _ => cs
  | _, _ => cs

/-- `defaultDoPrevote`: the locked block if there is one, else the proposal block if it is
valid, else `nil`. -/
def defaultDoPrevote (cs : State) : State :=
  match cs.LockedBlock with
  | some b => cs.signAddVote env now .PrevoteType (env.blockHash b) (partSetHeader cs.LockedBlockParts)
  | none =>
    match cs.ProposalBlock with
    | none => cs.signAddVote env now .PrevoteType [] ⟨0, []⟩
    | some b =>
      match env.ValidateBlock cs.state b with
      | .error _ => cs.signAddVote env now .PrevoteType [] ⟨0, []⟩
      | .ok () => cs.signAddVote env now .PrevoteType (env.blockHash b)
          (partSetHeader cs.ProposalBlockParts)

/-! ### Proposing -/

/-- `createProposalBlock`: a block on the commit of the previous height, none when there is no
such commit or no key. -/
def createProposalBlock (cs : State) : Go (Option (Block × PartSet)) :=
  if cs.privValidator.isNone then
    throw (.panic "entered createProposalBlock with privValidator being nil")
  else do
  let commit ← (if cs.Height = cs.state.InitialHeight then
      pure (some (NewCommit 0 0 ⟨[], ⟨0, []⟩⟩ []))
    else match cs.LastCommit with
      | some lastCommit =>
        if lastCommit.HasTwoThirdsMajority then some <$> lastCommit.MakeCommit else pure none
      | none => pure none)
  match commit, cs.privValidatorPubKey with
  | some commit, some pubKey =>
    pure (env.CreateProposalBlock cs.Height cs.state commit (env.crypto.pubKeyAddress pubKey))
  | _, _ => pure none

/-- `defaultDecideProposal`: the valid block if there is one, else a new block, proposed and
sent part by part to the receive routine.  A part set made from a block has all its parts. -/
def defaultDecideProposal (cs : State) (height round : Int) : Go State := do
  let choice ← (match cs.ValidBlock with
    | some b => pure (some (b, cs.ValidBlockParts))
    | none => do
      let created ← cs.createProposalBlock env
      pure (created.map fun (b, ps) => (b, some ps)))
  match choice, cs.privValidator with
  | none, _ => pure cs
  | some _, none => throw (.panic nilDereference)
  | some (block, blockParts), some pv =>
    let propBlockID : BlockID := ⟨env.blockHash block, partSetHeader blockParts⟩
    let proposal := NewProposal height round cs.ValidRound propBlockID now
    match pv.SignProposal cs.state.ChainID proposal with
    | .error _ => pure cs
    | .ok sig =>
      let cs := cs.sendInternalMessage ⟨.ProposalMessage .ProposalType { proposal with signature := sig }, ""⟩
      let parts := match blockParts with
        | none => []
        | some ps => (ps.parts.take ps.total.toNat).filterMap id
      pure (parts.foldl (fun cs part => cs.sendInternalMessage ⟨.BlockPartMessage cs.Height cs.Round part, ""⟩) cs)

/-! ### Entering the steps of a round -/

/-- The body of `enterPropose` before its deferred update: the timeout of the step, and the
proposal when this node is the round's proposer. -/
def proposeBody (cs : State) (height round : Int) : Go State :=
  let cs := cs.scheduleTimeout height round .RoundStepPropose
  match cs.privValidator, cs.privValidatorPubKey with
  | some _, some pubKey =>
    let address := env.crypto.pubKeyAddress pubKey
    if !cs.Validators.HasAddress address then pure cs
    else do
      let (proposer, vals) ← cs.Validators.GetProposer
      let cs := { cs with Validators := vals }
      match proposer with
      | none => throw (.panic nilDereference)
      | some proposer =>
        if proposer.address == address then cs.defaultDecideProposal env now height round
        else pure cs
  | _, _ => pure cs

/-- `enterPrevote`. -/
def enterPrevote (cs : State) (height round : Int) : State :=
  if cs.Height ≠ height ∨ round < cs.Round ∨ (cs.Round = round ∧ .RoundStepPrevote ≤ cs.Step) then cs
  else (cs.defaultDoPrevote env now).updateRoundStep round .RoundStepPrevote

/-- `enterPropose`; the deferred update goes on to `enterPrevote` once the proposal is
complete. -/
def enterPropose (cs : State) (height round : Int) : Go State :=
  if cs.Height ≠ height ∨ round < cs.Round ∨ (cs.Round = round ∧ .RoundStepPropose ≤ cs.Step) then
    pure cs
  else do
    let cs ← cs.proposeBody env now height round
    let cs := cs.updateRoundStep round .RoundStepPropose
    if ← cs.isProposalComplete then pure (cs.enterPrevote env now height cs.Round) else pure cs

/-- The setup of a new round in `enterNewRound`: the proposer priorities moved on by the rounds
skipped, the round and step set, the proposal of an earlier round dropped, and the vote sets of
the next round made. -/
def newRoundBody (cs : State) (round : Int) : Go State := do
  let validators ← (if cs.Round < round then do
      let times ← SafeSubInt32 round cs.Round
      cs.Validators.IncrementProposerPriority times
    else pure cs.Validators)
  let cs := { cs.updateRoundStep round .RoundStepNewRound with Validators := validators }
  let cs := if round = 0 then cs
    else { cs with Proposal := none, ProposalBlock := none, ProposalBlockParts := none }
  let next ← SafeAddInt32 round 1
  let votes ← (match cs.Votes with
    | none => throw (.panic nilDereference)
    | some hvs => hvs.SetRound next)
  pure { cs with Votes := some votes, TriggeredTimeoutPrecommit := false }

/-- `enterNewRound`: the round is set up, and goes on to its proposal unless it waits for
transactions. -/
def enterNewRound (cs : State) (height round : Int) : Go State :=
  if cs.Height ≠ height ∨ round < cs.Round ∨ (cs.Round = round ∧ cs.Step ≠ .RoundStepNewHeight) then
    pure cs
  else do
    let cs ← cs.newRoundBody round
    let waitForTxs ← (if env.WaitForTxs ∧ round = 0 then (!·) <$> cs.needProofBlock env height
      else pure false)
    if waitForTxs then
      if env.CreateEmptyBlocksInterval then pure (cs.scheduleTimeout height round .RoundStepNewRound)
      else pure cs
    else cs.enterPropose env now height round

/-- `enterPrevoteWait`. -/
def enterPrevoteWait (cs : State) (height round : Int) : Go State :=
  if cs.Height ≠ height ∨ round < cs.Round ∨ (cs.Round = round ∧ .RoundStepPrevoteWait ≤ cs.Step) then
    pure cs
  else do
    let prevotes ← cs.Prevotes round
    if !(← hasTwoThirdsAny prevotes) then
      throw (.panic ("enterPrevoteWait(" ++ toString height ++ "/" ++ toString round ++
        "), but Prevotes does not have any +2/3 votes"))
    else
      let cs := cs.scheduleTimeout height round .RoundStepPrevoteWait
      pure (cs.updateRoundStep round .RoundStepPrevoteWait)

/-- The body of `enterPrecommit` before its deferred update: lock the block `+2/3` prevoted
for, unlock on a `+2/3` for `nil` or for a block this node does not have, and precommit. -/
def precommitBody (cs : State) (round : Int) : Go State := do
  let prevotes ← cs.Prevotes round
  match twoThirdsMajority prevotes with
  | none => pure (cs.signAddVote env now .PrecommitType [] ⟨0, []⟩)
  | some blockID =>
    let (polRound, _) ← (match cs.Votes with
      | none => throw (.panic nilDereference)
      | some hvs => hvs.POLInfo)
    if polRound < round then
      throw (.panic ("This POLRound should be " ++ toString round ++ " but got " ++ toString polRound))
    else if blockID.hash.length = 0 then
      -- `+2/3` prevoted `nil`: unlock and precommit `nil`
      let cs := if cs.LockedBlock.isNone then cs
        else { cs with LockedRound := -1, LockedBlock := none, LockedBlockParts := none }
      pure (cs.signAddVote env now .PrecommitType [] ⟨0, []⟩)
    else if HashesTo env cs.LockedBlock blockID.hash then
      -- relock
      pure ({ cs with LockedRound := round }.signAddVote env now .PrecommitType blockID.hash
        blockID.partSetHeader)
    else if HashesTo env cs.ProposalBlock blockID.hash then
      match cs.ProposalBlock with
      | none => throw (.panic nilDereference)
      | some block =>
        match env.ValidateBlock cs.state block with
        | .error err => throw (.panic ("enterPrecommit: +2/3 prevoted for an invalid block: " ++ err))
        | .ok () =>
          let cs := { cs with LockedRound := round, LockedBlock := cs.ProposalBlock,
                              LockedBlockParts := cs.ProposalBlockParts }
          pure (cs.signAddVote env now .PrecommitType blockID.hash blockID.partSetHeader)
    else
      -- a polka for a block this node does not have: unlock, fetch it, precommit `nil`
      let cs := { cs with LockedRound := -1, LockedBlock := none, LockedBlockParts := none }
      let cs := if !HasHeader cs.ProposalBlockParts blockID.partSetHeader then
          { cs with ProposalBlock := none,
                    ProposalBlockParts := some (NewPartSetFromHeader blockID.partSetHeader) }
        else cs
      pure (cs.signAddVote env now .PrecommitType [] ⟨0, []⟩)

/-- `enterPrecommit`. -/
def enterPrecommit (cs : State) (height round : Int) : Go State :=
  if cs.Height ≠ height ∨ round < cs.Round ∨ (cs.Round = round ∧ .RoundStepPrecommit ≤ cs.Step) then
    pure cs
  else do
    let cs ← cs.precommitBody env now round
    pure (cs.updateRoundStep round .RoundStepPrecommit)

/-- `enterPrecommitWait`: guarded by a flag, not by the step, and it leaves the step alone. -/
def enterPrecommitWait (cs : State) (height round : Int) : Go State :=
  if cs.Height ≠ height ∨ round < cs.Round ∨ (cs.Round = round ∧ cs.TriggeredTimeoutPrecommit) then
    pure cs
  else do
    let precommits ← cs.Precommits round
    if !(← hasTwoThirdsAny precommits) then
      throw (.panic ("enterPrecommitWait(" ++ toString height ++ "/" ++ toString round ++
        "), but Precommits does not have any +2/3 votes"))
    else
      let cs := cs.scheduleTimeout height round .RoundStepPrecommitWait
      pure { cs with TriggeredTimeoutPrecommit := true }

/-! ### Committing -/

/-- The reset at the end of `updateToState`: the round state of the height after the state's
last block, with the precommits that committed that block as `LastCommit`. -/
def resetToState (cs : State) (state : sm.State) : Go State := do
  let lastCommit ← (if state.LastBlockHeight = 0 then pure none
    else match cs.Votes, decide (cs.CommitRound > -1) with
      | some hvs, true => do
        let precommits ← hvs.getVoteSet cs.CommitRound .PrecommitType
        if !(precommits.any VoteSet.HasTwoThirdsMajority) then
          throw (.panic ("Wanted to form a Commit, but Precommits (H/R: " ++
            toString state.LastBlockHeight ++ "/" ++ toString cs.CommitRound ++
            ") didn\x27t have 2/3+: %v"))
        else pure precommits
      | _, _ =>
        if cs.LastCommit.isNone then
          throw (.panic ("LastCommit cannot be empty after initial block (H:" ++
            toString (state.LastBlockHeight + 1) ++ ")"))
        else pure cs.LastCommit)
  let height := if state.LastBlockHeight + 1 = 1 then state.InitialHeight
    else state.LastBlockHeight + 1
  let votes ← NewHeightVoteSet state.ChainID height state.Validators
  pure { cs with
    Height := height, Round := 0, Step := .RoundStepNewHeight, Validators := state.Validators,
    Proposal := none, ProposalBlock := none, ProposalBlockParts := none,
    LockedRound := -1, LockedBlock := none, LockedBlockParts := none,
    ValidRound := -1, ValidBlock := none, ValidBlockParts := none,
    Votes := some votes, CommitRound := -1, LastCommit := lastCommit,
    LastValidators := state.LastValidators, TriggeredTimeoutPrecommit := false, state := state }

/-- `updateToState`: the next height, from the state the block was applied to; a state not
ahead of the one the node has is ignored. -/
def updateToState (cs : State) (state : sm.State) : Go State :=
  if cs.CommitRound > -1 ∧ 0 < cs.Height ∧ cs.Height ≠ state.LastBlockHeight then
    throw (.panic ("updateToState() expected state height of " ++ toString cs.Height ++
      " but found " ++ toString state.LastBlockHeight))
  else if !IsEmpty cs.state then
    if cs.state.LastBlockHeight > 0 ∧ cs.state.LastBlockHeight + 1 ≠ cs.Height then
      throw (.panic ("Inconsistent cs.state.LastBlockHeight+1 " ++
        toString (cs.state.LastBlockHeight + 1) ++ " vs cs.Height " ++ toString cs.Height))
    else if cs.state.LastBlockHeight > 0 ∧ cs.Height = cs.state.InitialHeight then
      throw (.panic ("Inconsistent cs.state.LastBlockHeight " ++
        toString cs.state.LastBlockHeight ++ ", expected 0 for initial height " ++
        toString cs.state.InitialHeight))
    else if state.LastBlockHeight ≤ cs.state.LastBlockHeight then pure cs
    else cs.resetToState state
  else cs.resetToState state

/-- `finalizeCommit`: the block with `+2/3` precommits is applied and the next height begins;
an error of `ApplyBlock` leaves the state in the commit step. -/
def finalizeCommit (cs : State) (height : Int) : Go State :=
  if cs.Height ≠ height ∨ cs.Step ≠ .RoundStepCommit then pure cs
  else do
    let precommits ← cs.Precommits cs.CommitRound
    match twoThirdsMajority precommits with
    | none => throw (.panic "Cannot finalizeCommit, commit does not have two thirds majority")
    | some blockID =>
      if !HasHeader cs.ProposalBlockParts blockID.partSetHeader then
        throw (.panic "Expected ProposalBlockParts header to be commit header")
      else if !HashesTo env cs.ProposalBlock blockID.hash then
        throw (.panic "Cannot finalizeCommit, ProposalBlock does not hash to commit hash")
      else match cs.ProposalBlock with
      | none => throw (.panic nilDereference)
      | some block =>
        match env.ValidateBlock cs.state block with
        | .error err => throw (.panic ("+2/3 committed an invalid block: " ++ err))
        | .ok () =>
          match env.ApplyBlock cs.state ⟨env.blockHash block, partSetHeader cs.ProposalBlockParts⟩
              block with
          | .error _ => pure cs
          | .ok (stateCopy, _) => do
            let cs ← cs.updateToState stateCopy
            let cs := cs.updatePrivValidatorPubKey
            -- `scheduleRound0`
            pure (cs.scheduleTimeout cs.Height 0 .RoundStepNewHeight)

/-- `tryFinalizeCommit`: finalize once the block with `+2/3` precommits is the proposal block. -/
def tryFinalizeCommit (cs : State) (height : Int) : Go State :=
  if cs.Height ≠ height then
    throw (.panic ("tryFinalizeCommit() cs.Height: " ++ toString cs.Height ++ " vs height: " ++
      toString height))
  else do
  let precommits ← cs.Precommits cs.CommitRound
  match twoThirdsMajority precommits with
  | none => pure cs
  | some blockID =>
    if blockID.hash.length = 0 then pure cs
    else if !HashesTo env cs.ProposalBlock blockID.hash then pure cs
    else cs.finalizeCommit env height

/-- The body of `enterCommit` before its deferred update: take the locked block as the proposal
block if it is the one committed, and else get ready to receive the committed block. -/
def commitBody (cs : State) (commitRound : Int) : Go State := do
  let precommits ← cs.Precommits commitRound
  match twoThirdsMajority precommits with
  | none => throw (.panic "RunActionCommit() expects +2/3 precommits")
  | some blockID =>
    let cs := if HashesTo env cs.LockedBlock blockID.hash then
        { cs with ProposalBlock := cs.LockedBlock, ProposalBlockParts := cs.LockedBlockParts }
      else cs
    if !HashesTo env cs.ProposalBlock blockID.hash ∧
        !HasHeader cs.ProposalBlockParts blockID.partSetHeader then
      pure { cs with ProposalBlock := none,
                     ProposalBlockParts := some (NewPartSetFromHeader blockID.partSetHeader) }
    else pure cs

/-- `enterCommit`: guarded by the step only; the round stays, `CommitRound` names the round of
the precommits. -/
def enterCommit (cs : State) (height commitRound : Int) : Go State :=
  if cs.Height ≠ height ∨ .RoundStepCommit ≤ cs.Step then pure cs
  else do
    let cs ← cs.commitBody env commitRound
    let cs := { cs.updateRoundStep cs.Round .RoundStepCommit with CommitRound := commitRound }
    cs.tryFinalizeCommit env height

/-! ### Handling proposals and block parts -/

/-- `setProposal`, through `defaultSetProposal`.  When the proposal gets as far as the signature
check, the round's proposer is read from the validator set (`GetProposer`, which caches it in the
set the state holds) and its key checks the signature over the proposal's sign bytes; a set
without validators gives a `nil` proposer, whose key Go dereferences.  The error of
`defaultSetProposal` is returned beside the state, which keeps the cached proposer. -/
def setProposal (cs : State) (proposal : Tendermint.Proposal) : Go (Except String Unit × State) := do
  let rs : RoundState := ⟨cs.Height, cs.Round, cs.Proposal, cs.ProposalBlockParts⟩
  let (verify, cs) ← (show Go ((Tendermint.Proposal → Bool) × State) from
    if signatureChecked rs proposal then do
      let (proposer, vals) ← cs.Validators.GetProposer
      match proposer with
      | none => throw (.panic nilDereference)
      | some proposer =>
        let signBytes ← env.ProposalSignBytes cs.state.ChainID proposal
        pure (fun p : Tendermint.Proposal =>
            env.crypto.verifySignature proposer.pubKey signBytes p.signature,
          { cs with Validators := vals })
    -- short of the check `verify` is not read (`defaultSetProposal_of_not_signatureChecked`)
    else pure (fun _ => false, cs))
  match defaultSetProposal verify rs proposal with
  | .error err => pure (.error err, cs)
  | .ok rs => pure (.ok (), { cs with Proposal := rs.proposal, ProposalBlockParts := rs.proposalBlockParts })

/-- The update of the valid block once the proposal block is complete: it becomes the valid
block if `+2/3` of this round's prevotes are for it. -/
def updateValidBlock (cs : State) (maj : Option BlockID) : State :=
  match maj with
  | some blockID =>
    if !blockID.IsZero ∧ cs.ValidRound < cs.Round ∧ HashesTo env cs.ProposalBlock blockID.hash then
      { cs with ValidRound := cs.Round, ValidBlock := cs.ProposalBlock,
                ValidBlockParts := cs.ProposalBlockParts }
    else cs
  | none => cs

/-- What `addProposalBlockPart` does once the part set is complete: decode the block, update the
valid block, and go on to prevote (and precommit) or to finalize. -/
def onCompleteBlock (cs : State) (height : Int) (block : Block) : Go State := do
  let cs := { cs with ProposalBlock := some block }
  let prevotes ← cs.Prevotes cs.Round
  let maj := twoThirdsMajority prevotes
  let cs := cs.updateValidBlock env maj
  if cs.Step ≤ .RoundStepPropose then
    if ← cs.isProposalComplete then
      let cs := cs.enterPrevote env now height cs.Round
      if maj.isSome then cs.enterPrecommit env now height cs.Round else pure cs
    else pure cs
  else if cs.Step = .RoundStepCommit then cs.tryFinalizeCommit env height
  else pure cs

/-- `addProposalBlockPart`: whether the part was added (or why not), and the state. -/
def addProposalBlockPart (cs : State) (height : Int) (part : Part) :
    Go (Except String Bool × State) := do
  let (added, rs) ← Consensus.addProposalBlockPart env.tmhash
    ⟨cs.Height, cs.Round, cs.Proposal, cs.ProposalBlockParts⟩ height part
  let cs := { cs with ProposalBlockParts := rs.proposalBlockParts }
  match added, cs.ProposalBlockParts with
  | .ok true, some ps =>
    if !ps.IsComplete then pure (added, cs)
    else do
      let bz ← ps.GetReader
      match env.decodeBlock bz with
      | .error err => pure (.error err, cs)
      | .ok block => do
        let cs ← cs.onCompleteBlock env now height block
        pure (added, cs)
  | _, _ => pure (added, cs)

/-! ### Handling votes -/

/-- The unlock on a polka in `addVote`: a polka of a round after the lock, and not after the
current round, for another block releases the lock. -/
def unlockOnPolka (cs : State) (vote : Vote) (blockID : BlockID) : State :=
  if cs.LockedBlock.isSome ∧ cs.LockedRound < vote.round ∧ vote.round ≤ cs.Round ∧
      !HashesTo env cs.LockedBlock blockID.hash then
    { cs with LockedRound := -1, LockedBlock := none, LockedBlockParts := none }
  else cs

/-- The update of the valid block on a polka of the current round in `addVote`: the proposal
block becomes the valid block if it is the one voted for, and is dropped otherwise; the part
set is made ready for the block voted for. -/
def validOnPolka (cs : State) (vote : Vote) (blockID : BlockID) : State :=
  if blockID.hash.length ≠ 0 ∧ cs.ValidRound < vote.round ∧ vote.round = cs.Round then
    let cs := if HashesTo env cs.ProposalBlock blockID.hash then
        { cs with ValidRound := vote.round, ValidBlock := cs.ProposalBlock,
                  ValidBlockParts := cs.ProposalBlockParts }
      else { cs with ProposalBlock := none }
    if !HasHeader cs.ProposalBlockParts blockID.partSetHeader then
      { cs with ProposalBlockParts := some (NewPartSetFromHeader blockID.partSetHeader) }
    else cs
  else cs

/-- What a polka, `+2/3` prevotes of the vote's round for one block or `nil`, does in
`addVote`, if there is one. -/
def applyPolka (cs : State) (vote : Vote) (maj : Option BlockID) : State :=
  match maj with
  | none => cs
  | some blockID => (cs.unlockOnPolka env vote blockID).validOnPolka env vote blockID

/-- The `PrevoteType` arm of `addVote`'s switch: unlock on a later polka, update the valid
block, then skip ahead to a round with `+2/3` of any prevotes, or move on in the current round. -/
def addPrevote (cs : State) (height : Int) (vote : Vote) : Go State := do
  let prevotes ← cs.Prevotes vote.round
  let cs := cs.applyPolka env vote (twoThirdsMajority prevotes)
  -- the cases of Go's `switch`, the first with its short-circuit `&&`
  let roundSkip ← (if cs.Round < vote.round then hasTwoThirdsAny prevotes else pure false)
  if roundSkip then cs.enterNewRound env now height vote.round
  else if cs.Round = vote.round ∧ .RoundStepPrevote ≤ cs.Step then
    match twoThirdsMajority prevotes with
    | some blockID =>
      if (← cs.isProposalComplete) || blockID.hash.length = 0 then
        cs.enterPrecommit env now height vote.round
      else if ← hasTwoThirdsAny prevotes then cs.enterPrevoteWait height vote.round
      else pure cs
    | none =>
      if ← hasTwoThirdsAny prevotes then cs.enterPrevoteWait height vote.round else pure cs
  else match cs.Proposal with
    | some proposal =>
      if 0 ≤ proposal.polRound ∧ proposal.polRound = vote.round then
        if ← cs.isProposalComplete then pure (cs.enterPrevote env now height cs.Round)
        else pure cs
      else pure cs
    | none => pure cs

/-- The `PrecommitType` arm of `addVote`'s switch: a `+2/3` for a block commits it, a `+2/3`
for `nil` waits, and `+2/3` of any precommits of a round not behind waits too. -/
def addPrecommit (cs : State) (height : Int) (vote : Vote) : Go State := do
  let precommits ← cs.Precommits vote.round
  match twoThirdsMajority precommits with
  | some blockID => do
    let cs ← cs.enterNewRound env now height vote.round
    let cs ← cs.enterPrecommit env now height vote.round
    if blockID.hash.length ≠ 0 then do
      let cs ← cs.enterCommit env height vote.round
      if env.SkipTimeoutCommit then
        if ← hasAll precommits then cs.enterNewRound env now cs.Height 0 else pure cs
      else pure cs
    else cs.enterPrecommitWait height vote.round
  | none =>
    if cs.Round ≤ vote.round then
      if ← hasTwoThirdsAny precommits then do
        let cs ← cs.enterNewRound env now height vote.round
        cs.enterPrecommitWait height vote.round
      else pure cs
    else pure cs

/-- The branch of `addVote` for a precommit of the previous height: it joins `LastCommit` while
the state waits in the new height, and all of them start the round at once under
`SkipTimeoutCommit`. -/
def addLastCommitVote (cs : State) (vote : Vote) : Go (Bool × Option AddVoteErr × State) :=
  if cs.Step ≠ .RoundStepNewHeight then pure (false, none, cs)
  else match cs.LastCommit with
    | none => throw (.panic "AddVote() on nil VoteSet")
    | some lastCommit => do
      let (added, err, lastCommit) ← lastCommit.addVote env.crypto (some vote)
      let cs := { cs with LastCommit := some lastCommit }
      if !added then pure (added, err.map .voteSet, cs)
      -- `cs.config.SkipTimeoutCommit && cs.LastCommit.HasAll()`
      else if env.SkipTimeoutCommit then do
        if ← lastCommit.HasAll then
          let cs ← cs.enterNewRound env now cs.Height 0
          pure (added, err.map .voteSet, cs)
        else pure (added, err.map .voteSet, cs)
      else pure (added, err.map .voteSet, cs)

/-- `addVote`: a precommit of the previous height goes to `LastCommit`; a vote of this height
joins `Votes` and may move the round state on. -/
def addVote (cs : State) (vote : Vote) (peerID : P2PID) :
    Go (Bool × Option AddVoteErr × State) :=
  if vote.height + 1 = cs.Height ∧ vote.type = .PrecommitType then cs.addLastCommitVote env now vote
  else if vote.height ≠ cs.Height then pure (false, none, cs)
  else do
    let height := cs.Height
    let hvs ← (match cs.Votes with
      | none => throw (.panic nilDereference)
      | some hvs => pure hvs)
    let (added, err, hvs) ← hvs.AddVote env.crypto vote peerID
    let cs := { cs with Votes := some hvs }
    if !added then pure (added, err, cs)
    else match vote.type with
      | .PrevoteType => do
        let cs ← cs.addPrevote env now height vote
        pure (added, err, cs)
      | .PrecommitType => do
        let cs ← cs.addPrecommit env now height vote
        pure (added, err, cs)
      | _ => throw (.panic "Unexpected vote type %v")

/-- `tryAddVote`: `addVote`, whose errors the state only logs or reports as evidence. -/
def tryAddVote (cs : State) (vote : Vote) (peerID : P2PID) : Go (Bool × State) := do
  let (added, _, cs) ← cs.addVote env now vote peerID
  pure (added, cs)

/-! ### The receive routine -/

/-- `handleMsg`; a returned error is only logged. -/
def handleMsg (cs : State) (mi : msgInfo) : Go State :=
  match mi.Msg with
  | .ProposalMessage _ proposal => do
    let (_, cs) ← cs.setProposal env proposal
    pure cs
  | .BlockPartMessage height _ part => do
    let (_, cs) ← cs.addProposalBlockPart env now height part
    pure cs
  | .VoteMessage vote => do
    let (_, cs) ← cs.tryAddVote env now vote mi.PeerID
    pure cs

/-- `handleTimeout`: a timeout of the current height, round and step, or ahead of them, moves
the round state on. -/
def handleTimeout (cs : State) (ti : timeoutInfo) : Go State :=
  if ti.Height ≠ cs.Height ∨ ti.Round < cs.Round ∨ (ti.Round = cs.Round ∧ ti.Step < cs.Step) then
    pure cs
  else match ti.Step with
    | .RoundStepNewHeight => cs.enterNewRound env now ti.Height 0
    | .RoundStepNewRound => cs.enterPropose env now ti.Height 0
    | .RoundStepPropose => pure (cs.enterPrevote env now ti.Height ti.Round)
    | .RoundStepPrevoteWait => cs.enterPrecommit env now ti.Height ti.Round
    | .RoundStepPrecommitWait => do
      let cs ← cs.enterPrecommit env now ti.Height ti.Round
      cs.enterNewRound env now ti.Height (wrap32 (ti.Round + 1))
    | _ => throw (.panic "Invalid timeout step: %v")

/-- `handleTxsAvailable`: in round 0, the transactions end the wait for them. -/
def handleTxsAvailable (cs : State) : Go State :=
  if cs.Round ≠ 0 then pure cs
  else match cs.Step with
    | .RoundStepNewHeight => do
      if ← cs.needProofBlock env cs.Height then pure cs
      else pure (cs.scheduleTimeout cs.Height 0 .RoundStepNewRound)
    | .RoundStepNewRound => cs.enterPropose env now cs.Height 0
    | _ => pure cs

end State

/-! ## Starting, and the runs of the receive routine -/

namespace State

/-- `reconstructLastCommit`: the precommits of the last block, rebuilt from its seen commit. -/
def reconstructLastCommit (cs : State) (state : sm.State) : Go State :=
  match env.LoadSeenCommit state.LastBlockHeight with
  | none => throw (.panic ("Failed to reconstruct LastCommit: seen commit for height " ++
      toString state.LastBlockHeight ++ " not found"))
  | some seenCommit => do
    let lastPrecommits ← CommitToVoteSet env.crypto state.ChainID seenCommit state.LastValidators
    if !lastPrecommits.HasTwoThirdsMajority then
      throw (.panic "Failed to reconstruct LastCommit: Does not have +2/3 maj")
    else pure { cs with LastCommit := some lastPrecommits }

end State

/-- `NewState`, then `OnStart`'s `scheduleRound0`: the state of the height after the stored
state's last block, waiting for its first round. -/
def NewState (state : sm.State) : Go State := do
  let cs ← (if state.LastBlockHeight > 0 then State.empty.reconstructLastCommit env state
    else pure State.empty)
  let cs ← cs.updateToState state
  pure (cs.scheduleTimeout cs.Height 0 .RoundStepNewHeight)

/-- One input of the receive routine. -/
inductive Input where
  /-- A message of a peer, which the reactor has checked with `ValidateBasic`. -/
  | peerMsg (mi : msgInfo)
  /-- A message the state sent itself. -/
  | internalMsg (mi : msgInfo)
  /-- A timeout handed to the ticker. -/
  | timeout (ti : timeoutInfo)
  /-- The mempool has transactions. -/
  | txsAvailable
  /-- `SetPrivValidator`. -/
  | setPrivValidator (priv : Option PrivValidator)

/-- One step of the receive routine at the time `now`; an input the routine would never see (a
message that fails `ValidateBasic`, a message or timeout never sent) changes nothing. -/
def step (cs : State) : Input → Go State
  | .peerMsg mi =>
    match mi.Msg.ValidateBasic with
    | .ok () => cs.handleMsg env now mi
    | .error _ => pure cs
  | .internalMsg mi => if mi ∈ cs.internalMsgQueue then cs.handleMsg env now mi else pure cs
  | .timeout ti => if ti ∈ cs.timeouts then cs.handleTimeout env now ti else pure cs
  | .txsAvailable => cs.handleTxsAvailable env now
  | .setPrivValidator priv => pure (cs.SetPrivValidator priv)

end Transitions

/-- One step of the receive routine, at some time and on some input. -/
def Transition (env : Env) (cs cs' : State) : Prop := ∃ now i, step env now cs i = .ok cs'

/-- The loop of `receiveRoutine`: the inputs one at a time, each at its own time; a panic stops
the routine. -/
def receiveRoutine (env : Env) (cs : State) : List (Time × Input) → Go State
  | [] => pure cs
  | (now, i) :: inputs => do
    let cs ← step env now cs i
    receiveRoutine env cs inputs

/-- The states the receive routine reaches from a stored state that genesis validation admits
(`InitialHeight ≥ 1`, no negative height), each input at a time of the world's choice. -/
inductive Reachable (env : Env) : State → Prop
  | init {state : sm.State} {cs : State} (hinit : 1 ≤ state.InitialHeight)
      (hlast : 0 ≤ state.LastBlockHeight) (h : NewState env state = .ok cs) : Reachable env cs
  | step {cs cs' : State} {now : Time} {i : Input} (hcs : Reachable env cs)
      (h : step env now cs i = .ok cs') : Reachable env cs'

end Consensus

end Tendermint
