import Tendermint.Libs.Bits

/-!
# What a peer's bit arrays do to its state (`consensus/msgs.go`, `consensus/reactor.go`)

A node keeps, for each peer, the parts of the current proposal and the votes of the POL round
that the peer is known to have, as bit arrays (`PeerRoundState`).  A peer announces them in
`NewValidBlockMessage` and `ProposalPOLMessage`; `MsgFromProto` decodes the bit array with
`BitArray.FromProto` and the messages' `ValidateBasic` checks only its `Size()`, so the array
is stored with whatever words the peer sent.

The gossip routine then marks the parts it sends to the peer in that array
(`gossipProposalPart`, the first branch of `gossipDataRoutine`).  When every stored array is
well formed this never panics (`gossipProposalPart_ok`); a peer that sends one bit and no words
makes it panic, in a goroutine that no recovery covers (`validBlock_bitArray_panics`).
-/

namespace Tendermint

namespace Consensus

open ExceptRun Bits

/-- `types.MaxBlockSizeBytes`, `types.BlockPartSizeBytes` and `types.MaxBlockPartsCount`. -/
def MaxBlockSizeBytes : Int := 104857600
def BlockPartSizeBytes : Int := 65536
def MaxBlockPartsCount : Int := MaxBlockSizeBytes / BlockPartSizeBytes + 1

/-- `types.MaxVotesCount`. -/
def MaxVotesCount : Int := 10000

/-! ## Messages -/

/-- `NewValidBlockMessage`. -/
structure NewValidBlockMessage where
  height : Int
  round : Int
  blockPartSetHeader : PartSetHeader
  blockParts : Option Bits.BitArray
  isCommit : Bool
  deriving DecidableEq, Repr

/-- `NewValidBlockMessage.ValidateBasic`. -/
def NewValidBlockMessage.ValidateBasic (m : NewValidBlockMessage) : Except String Unit :=
  if m.height < 0 then throw "negative Height"
  else if m.round < 0 then throw "negative Round"
  else match m.blockPartSetHeader.ValidateBasic with
    | .error e => throw ("wrong BlockPartSetHeader: " ++ e)
    | .ok () =>
      if Size m.blockParts = 0 then throw "empty blockParts"
      else if Size m.blockParts ≠ m.blockPartSetHeader.total.toNat then
        throw "blockParts bit array size %d not equal to BlockPartSetHeader.Total %d"
      else if Size m.blockParts > MaxBlockPartsCount then
        throw "blockParts bit array is too big: %d, max: %d"
      else pure ()

/-- `ProposalPOLMessage`. -/
structure ProposalPOLMessage where
  height : Int
  proposalPOLRound : Int
  proposalPOL : Option Bits.BitArray
  deriving DecidableEq, Repr

/-- `ProposalPOLMessage.ValidateBasic`. -/
def ProposalPOLMessage.ValidateBasic (m : ProposalPOLMessage) : Except String Unit :=
  if m.height < 0 then throw "negative Height"
  else if m.proposalPOLRound < 0 then throw "negative ProposalPOLRound"
  else if Size m.proposalPOL = 0 then throw "empty ProposalPOL bit array"
  else if Size m.proposalPOL > MaxVotesCount then
    throw "proposalPOL bit array is too big: %d, max: %d"
  else pure ()

/-- The proto messages with a bit array, as they arrive: the array is the proto's, `nil` or
with any `Bits` and `Elems`. -/
inductive ProtoMessage where
  | NewValidBlock (height round : Int) (blockPartSetHeader : PartSetHeader)
      (blockParts : Option Bits.BitArray) (isCommit : Bool)
  | ProposalPol (height proposalPolRound : Int) (proposalPol : Bits.BitArray)

/-- The decoded messages. -/
inductive Message where
  | NewValidBlock (m : NewValidBlockMessage)
  | ProposalPOL (m : ProposalPOLMessage)

/-- `MsgFromProto`, on the messages with a bit array: the array is filled by `FromProto` into a
`new(bits.BitArray)`, then the message's `ValidateBasic` runs. -/
def MsgFromProto : ProtoMessage → Except String Message
  | .NewValidBlock height round psh blockParts isCommit => do
    let pbPartSetHeader ← match PartSetHeaderFromProto psh with
      | .error e => throw ("parts to proto error: " ++ e)
      | .ok p => pure p
    let pbBits := FromProto ⟨0, []⟩ blockParts
    let m : NewValidBlockMessage :=
      { height := height, round := round, blockPartSetHeader := pbPartSetHeader,
        blockParts := some pbBits, isCommit := isCommit }
    m.ValidateBasic
    pure (.NewValidBlock m)
  | .ProposalPol height proposalPolRound proposalPol => do
    let pbBits := FromProto ⟨0, []⟩ (some proposalPol)
    let m : ProposalPOLMessage :=
      { height := height, proposalPOLRound := proposalPolRound, proposalPOL := some pbBits }
    m.ValidateBasic
    pure (.ProposalPOL m)

/-! ## The peer's round state -/

/-- `cstypes.PeerRoundState`, with the fields the bit-array messages and the part gossip read. -/
structure PeerRoundState where
  height : Int
  round : Int
  proposalBlockPartSetHeader : PartSetHeader
  proposalBlockParts : Option Bits.BitArray
  proposalPOLRound : Int
  proposalPOL : Option Bits.BitArray
  deriving DecidableEq, Repr

namespace PeerRoundState

/-- `ApplyNewValidBlockMessage`. -/
def ApplyNewValidBlockMessage (prs : PeerRoundState) (msg : NewValidBlockMessage) :
    PeerRoundState :=
  if prs.height ≠ msg.height then prs
  else if prs.round ≠ msg.round ∧ !msg.isCommit then prs
  else { prs with proposalBlockPartSetHeader := msg.blockPartSetHeader,
                  proposalBlockParts := msg.blockParts }

/-- `ApplyProposalPOLMessage`. -/
def ApplyProposalPOLMessage (prs : PeerRoundState) (msg : ProposalPOLMessage) : PeerRoundState :=
  if prs.height ≠ msg.height then prs
  else if prs.proposalPOLRound ≠ msg.proposalPOLRound then prs
  else { prs with proposalPOL := msg.proposalPOL }

/-- `SetHasProposalBlockPart`. -/
def SetHasProposalBlockPart (prs : PeerRoundState) (height round index : Int) :
    Go PeerRoundState :=
  if prs.height ≠ height ∨ prs.round ≠ round then pure prs
  else do
    let (_, parts) ← SetIndex prs.proposalBlockParts index true
    pure { prs with proposalBlockParts := parts }

/-- Marking a part of a peer whose parts are well formed never panics and keeps them so. -/
lemma SetHasProposalBlockPart_ok {prs : PeerRoundState}
    (hpeer : ∀ a, prs.proposalBlockParts = some a → WellFormed a) (height round : Int)
    {index : Int} (h0 : 0 ≤ index) :
    ∃ prs', prs.SetHasProposalBlockPart height round index = .ok prs' ∧
      ∀ a, prs'.proposalBlockParts = some a → WellFormed a := by
  unfold SetHasProposalBlockPart
  split
  · exact ⟨prs, rfl, hpeer⟩
  · obtain ⟨ok, parts, hset, hwf⟩ := SetIndex_ok hpeer h0 true
    rw [hset, ok_bind]
    exact ⟨_, rfl, hwf⟩

end PeerRoundState

/-- The first branch of `gossipDataRoutine`: when our proposal's part set has the header the
peer announced, pick a part that we have and the peer does not, send it, and mark it as the
peer's.  `draw` is the random draw of `PickRandom`, `sent` what `peer.Send` returned; the result
is the index sent, if any, and the peer's state after. -/
def gossipProposalPart (ourHeader : Option PartSetHeader) (ourParts : Option Bits.BitArray)
    (prs : PeerRoundState) (draw : Nat) (sent : Bool) : Go (Option Int × PeerRoundState) :=
  if ourHeader = some prs.proposalBlockPartSetHeader then do
    let missing ← Sub ourParts (Copy prs.proposalBlockParts)
    let (index, ok) ← PickRandom missing draw
    if ok then
      if sent then do
        let prs' ← prs.SetHasProposalBlockPart prs.height prs.round index
        pure (some index, prs')
      else pure (some index, prs)
    else pure (none, prs)
  else pure (none, prs)

/-- When our parts and the peer's are well formed, a round of part gossip never panics, and the
peer's parts stay well formed for the next round. -/
theorem gossipProposalPart_ok {ourHeader : Option PartSetHeader} {ourParts : Option Bits.BitArray}
    {prs : PeerRoundState} (hours : ∀ a, ourParts = some a → WellFormed a)
    (hpeer : ∀ a, prs.proposalBlockParts = some a → WellFormed a) (draw : Nat) (sent : Bool) :
    ∃ r, gossipProposalPart ourHeader ourParts prs draw sent = .ok r ∧
      ∀ a, r.2.proposalBlockParts = some a → WellFormed a := by
  unfold gossipProposalPart
  split
  · obtain ⟨missing, hsub, hmissing⟩ : ∃ c, Sub ourParts (Copy prs.proposalBlockParts) = .ok c ∧
        ∀ a, c = some a → WellFormed a := by
      cases ourParts with
      | none => exact ⟨none, rfl, fun _ h => by cases h⟩
      | some a => exact Sub_ok (hours a rfl) _
    obtain ⟨index, ok, hpick, h0⟩ := PickRandom_ok hmissing draw
    rw [hsub, ok_bind, hpick, ok_bind]
    cases ok
    · exact ⟨_, rfl, hpeer⟩
    cases sent
    · exact ⟨_, rfl, hpeer⟩
    -- the part was sent: it is marked in the peer's array
    obtain ⟨prs', hset, hwf⟩ := prs.SetHasProposalBlockPart_ok hpeer prs.height prs.round h0
    simp only [↓reduceIte, hset, ok_bind]
    exact ⟨_, rfl, hwf⟩
  · exact ⟨_, rfl, hpeer⟩

/-- A peer of the proposal of two parts that has part `0`. -/
def partPeer : PeerRoundState := ⟨1, 0, ⟨2, List.replicate 32 0⟩, some ⟨2, [1]⟩, -1, none⟩

/-- We have both parts: part `1` is sent and marked, and the peer's array stays well formed. -/
theorem gossipProposalPart_ok_twoParts :
    (∀ a, some (⟨2, [3]⟩ : Bits.BitArray) = some a → WellFormed a) ∧
      (∀ a, partPeer.proposalBlockParts = some a → WellFormed a) ∧
      ∃ r, gossipProposalPart (some ⟨2, List.replicate 32 0⟩) (some ⟨2, [3]⟩) partPeer 0 true =
          .ok r ∧ (∀ a, r.2.proposalBlockParts = some a → WellFormed a) ∧
        r = (some 1, { partPeer with proposalBlockParts := some ⟨2, [3]⟩ }) := by
  have hours : ∀ a, some (⟨2, [3]⟩ : Bits.BitArray) = some a → WellFormed a := by
    rintro a ⟨⟩
    exact ⟨by decide, by decide⟩
  have hpeer : ∀ a, partPeer.proposalBlockParts = some a → WellFormed a := by
    rintro a ⟨⟩
    exact ⟨by decide, by decide⟩
  obtain ⟨r, hr, hwf⟩ := gossipProposalPart_ok hours hpeer 0 true
  have hrun : gossipProposalPart (some ⟨2, List.replicate 32 0⟩) (some ⟨2, [3]⟩) partPeer 0 true =
      .ok (some 1, { partPeer with proposalBlockParts := some ⟨2, [3]⟩ }) := by decide
  rw [hrun] at hr
  cases hr
  exact ⟨hours, hpeer, _, hrun, hwf, rfl⟩

/-- A peer that announces a valid block of one part with a bit array of one bit and no words
passes `MsgFromProto`; once the message is applied to its state, the first part we send it
panics in `setIndex`, whatever the peer's state at that height and round was. -/
theorem validBlock_bitArray_panics (hash : Bytes) (hhash : hash.length = 32)
    (prs : PeerRoundState) (hh : prs.height = 1) (hr : prs.round = 0) :
    ∃ m, MsgFromProto (.NewValidBlock 1 0 ⟨1, hash⟩ (some ⟨1, []⟩) false) = .ok (.NewValidBlock m) ∧
      m.blockParts = some ⟨1, []⟩ ∧ ¬ WellFormed ⟨1, []⟩ ∧
      gossipProposalPart (some ⟨1, hash⟩) (some ⟨1, [1]⟩) (prs.ApplyNewValidBlockMessage m) 0 true =
        .error (.panic "runtime error: index out of range") := by
  have hv : ValidateHash hash = .ok () := by
    rw [ValidateHash, if_neg (by simp [hhash, tmhashSize])]
    rfl
  refine ⟨{ height := 1, round := 0, blockPartSetHeader := ⟨1, hash⟩,
            blockParts := some ⟨1, []⟩, isCommit := false }, ?_, rfl,
    FromProto_not_wellFormed.2, ?_⟩
  · have hpsh : PartSetHeaderFromProto ⟨1, hash⟩ = .ok ⟨1, hash⟩ := by
      simp only [PartSetHeaderFromProto, PartSetHeader.ValidateBasic, hv]
      rfl
    simp only [MsgFromProto, hpsh, pure_bind, NewValidBlockMessage.ValidateBasic,
      PartSetHeader.ValidateBasic, hv, FromProto]
    rfl
  · -- the message is applied, so the peer's array is the one word-less bit
    have happly : (prs.ApplyNewValidBlockMessage
        { height := 1, round := 0, blockPartSetHeader := ⟨1, hash⟩,
          blockParts := some ⟨1, []⟩, isCommit := false }) =
        { prs with proposalBlockPartSetHeader := ⟨1, hash⟩, proposalBlockParts := some ⟨1, []⟩ } := by
      simp [PeerRoundState.ApplyNewValidBlockMessage, hh, hr]
    rw [happly, gossipProposalPart, if_pos rfl]
    simp only [PeerRoundState.SetHasProposalBlockPart, hh, hr]
    rfl

/-- A peer at height one, round zero, that knows of no proposal yet. -/
def freshPeer : PeerRoundState := ⟨1, 0, ⟨0, []⟩, none, -1, none⟩

/-- The message with the hash of thirty-two zeros crashes the gossip to that peer. -/
theorem validBlock_bitArray_panics_zeroHash :
    ∃ m, MsgFromProto (.NewValidBlock 1 0 ⟨1, List.replicate 32 0⟩ (some ⟨1, []⟩) false) =
        .ok (.NewValidBlock m) ∧
      m.blockParts = some ⟨1, []⟩ ∧ ¬ WellFormed ⟨1, []⟩ ∧
      gossipProposalPart (some ⟨1, List.replicate 32 0⟩) (some ⟨1, [1]⟩)
          (freshPeer.ApplyNewValidBlockMessage m) 0 true =
        .error (.panic "runtime error: index out of range") :=
  validBlock_bitArray_panics (List.replicate 32 0) rfl freshPeer rfl rfl

end Consensus

end Tendermint
