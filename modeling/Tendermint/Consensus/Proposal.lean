import Tendermint.Types.PartSet
import Tendermint.Consensus.PeerState
import Tendermint.Privval.FilePV

/-!
# Receiving a proposal and its parts (`consensus/state.go`, `types/proposal.go`)

A proposal names its block by a `BlockID`, whose `PartSetHeader` announces how many parts the
block is cut into.  `Proposal.ValidateBasic` checks the header's hash only, and
`defaultSetProposal`, once the proposer's signature verifies, makes the part set that the
block's parts are then added to (`addProposalBlockPart`) from that header, with one slot per
announced part.

Nothing on this path compares the announced count with `MaxBlockPartsCount` or with the
consensus parameters: any count a `uint32` holds is accepted, and the node allocates that many
slots (`defaultSetProposal_partSlots`).  On the part set it makes, adding parts never panics
and keeps the part-set invariant (`addProposalBlockPart_inv`), so that handling proposals and
block parts in any order never panics (`handleMsgs_inv`).  The proposer's signature is consulted
only once the state has no proposal and the proposal is for its height and round, with a valid
POL round (`defaultSetProposal_of_not_signatureChecked`).
-/

namespace Tendermint

namespace Proposal

/-- `Proposal.ValidateBasic`; the proto's `Type` is passed beside the fields the model keeps. -/
def ValidateBasic (type : SignedMsgType) (p : Proposal) : Except String Unit :=
  if type ≠ .ProposalType then throw "invalid Type"
  else if p.height < 0 then throw "negative Height"
  else if p.round < 0 then throw "negative Round"
  else if p.polRound < -1 then throw "negative POLRound (exception: -1)"
  else match p.blockID.ValidateBasic with
    | .error e => throw ("wrong BlockID: " ++ e)
    | .ok () =>
      if !p.blockID.IsComplete then throw "expected a complete, non-empty BlockID, got: %v"
      else if p.signature.length = 0 then throw "signature is missing"
      else if p.signature.length > MaxSignatureSize then
        throw ("signature is too big (max: " ++ toString MaxSignatureSize ++ ")")
      else pure ()

end Proposal

namespace Consensus

/-- The fields of `consensus.State` that a proposal and its block parts touch. -/
structure RoundState where
  height : Int
  round : Int
  proposal : Option Proposal
  proposalBlockParts : Option PartSet

/-- `ErrInvalidProposalSignature`. -/
def ErrInvalidProposalSignature : String := "error invalid proposal signature"

/-- `ErrInvalidProposalPOLRound`. -/
def ErrInvalidProposalPOLRound : String := "error invalid proposal POL round"

/-- `defaultSetProposal`; `verify` says whether the key of the round's proposer verifies the
proposal's signature over its sign bytes. -/
def defaultSetProposal (verify : Proposal → Bool) (cs : RoundState) (proposal : Proposal) :
    Except String RoundState :=
  if cs.proposal.isSome then pure cs
  else if proposal.height ≠ cs.height ∨ proposal.round ≠ cs.round then pure cs
  else if proposal.polRound < -1 ∨ (proposal.polRound ≥ 0 ∧ proposal.polRound ≥ proposal.round)
  then throw ErrInvalidProposalPOLRound
  else if !verify proposal then throw ErrInvalidProposalSignature
  else
    let parts := match cs.proposalBlockParts with
      | none => NewPartSetFromHeader proposal.blockID.partSetHeader
      | some ps => ps
    pure { cs with proposal := some proposal, proposalBlockParts := some parts }

/-- Whether `defaultSetProposal` gets as far as the signature check: the state has no proposal
yet, the proposal is for its height and round, and its POL round is `-1` or in `[0, round)`. -/
def signatureChecked (cs : RoundState) (proposal : Proposal) : Bool :=
  cs.proposal.isNone && proposal.height == cs.height && proposal.round == cs.round &&
    !(proposal.polRound < -1 || (proposal.polRound ≥ 0 && proposal.polRound ≥ proposal.round))

/-- Short of the signature check, `defaultSetProposal` does not look at `verify`. -/
theorem defaultSetProposal_of_not_signatureChecked {cs : RoundState} {proposal : Proposal}
    (h : signatureChecked cs proposal = false) (verify verify' : Proposal → Bool) :
    defaultSetProposal verify cs proposal = defaultSetProposal verify' cs proposal := by
  unfold defaultSetProposal
  by_cases hp : cs.proposal.isSome
  · rw [if_pos hp, if_pos hp]
  by_cases hhr : proposal.height ≠ cs.height ∨ proposal.round ≠ cs.round
  · rw [if_neg hp, if_neg hp, if_pos hhr, if_pos hhr]
  -- what is left of the failed check is the POL round's
  have hpol : proposal.polRound < -1 ∨ (proposal.polRound ≥ 0 ∧ proposal.polRound ≥ proposal.round) := by
    simp only [not_or, not_not, ne_eq, Option.not_isSome_iff_eq_none] at hp hhr
    simp [signatureChecked, hp, hhr.1, hhr.2] at h
    by_cases hle : -1 ≤ proposal.polRound
    · have := h hle
      omega
    · omega
  rw [if_neg hp, if_neg hp, if_neg hhr, if_neg hhr, if_pos hpol, if_pos hpol]

/-- A proposal at height one, round zero, of one part under the root `[0, 0]`. -/
def onePartProposal : Proposal :=
  ⟨1, 0, -1, ⟨List.replicate 32 1, ⟨1, [0, 0]⟩⟩, 0, [1]⟩

/-- A state that holds a proposal ignores another, whatever the verifier says of it. -/
theorem defaultSetProposal_of_not_signatureChecked_held :
    signatureChecked ⟨1, 0, some onePartProposal, none⟩ onePartProposal = false ∧
      defaultSetProposal (fun _ => true) ⟨1, 0, some onePartProposal, none⟩ onePartProposal =
        defaultSetProposal (fun _ => false) ⟨1, 0, some onePartProposal, none⟩ onePartProposal :=
  ⟨rfl, defaultSetProposal_of_not_signatureChecked rfl _ _⟩

/-- `addProposalBlockPart`, up to the `AddPart` call: what follows it (reading and decoding a
complete block) does not change the part set. -/
def addProposalBlockPart (tmhash : Bytes → Bytes) (cs : RoundState) (height : Int)
    (part : Part) : Go (Except String Bool × RoundState) :=
  if cs.height ≠ height then pure (.ok false, cs)
  else match cs.proposalBlockParts with
    | none => pure (.ok false, cs)
    | some ps => do
      let (added, ps') ← ps.AddPart tmhash part
      pure (added, { cs with proposalBlockParts := some ps' })

/-- Every part set the state holds has the part-set invariant. -/
def PartsInv (cs : RoundState) : Prop := ∀ ps, cs.proposalBlockParts = some ps → ps.Inv

/-- `defaultSetProposal` keeps `PartsInv`: the set it makes comes from a header. -/
lemma defaultSetProposal_inv {verify : Proposal → Bool} {cs cs' : RoundState} {p : Proposal}
    (h : PartsInv cs) (hset : defaultSetProposal verify cs p = .ok cs') : PartsInv cs' := by
  unfold defaultSetProposal at hset
  split_ifs at hset
  · cases hset
    exact h
  · cases hset
    exact h
  · cases hset
    intro ps hps
    cases hparts : cs.proposalBlockParts with
    | none =>
      simp only [hparts, Option.some.injEq] at hps
      rw [← hps]
      exact PartSet.NewPartSetFromHeader_inv _
    | some ps0 =>
      simp only [hparts, Option.some.injEq] at hps
      exact hps ▸ h ps0 hparts

/-- Adding a block part never panics and keeps `PartsInv`. -/
lemma addProposalBlockPart_inv (tmhash : Bytes → Bytes) {cs : RoundState} (h : PartsInv cs)
    (height : Int) (part : Part) :
    ∃ r cs', addProposalBlockPart tmhash cs height part = .ok (r, cs') ∧ PartsInv cs' := by
  unfold addProposalBlockPart
  split
  · exact ⟨_, cs, rfl, h⟩
  · cases hparts : cs.proposalBlockParts with
    | none => exact ⟨_, cs, rfl, h⟩
    | some ps =>
      obtain ⟨r, ps', hadd, hinv, -⟩ := PartSet.AddPart_inv tmhash (h ps hparts) part
      refine ⟨r, { cs with proposalBlockParts := some ps' }, ?_, ?_⟩
      · simp only [hadd, ExceptRun.ok_bind]
        rfl
      · intro ps'' hps
        cases hps
        exact hinv

/-! ## Handling proposals and block parts -/

/-- The messages of `handleMsg` that touch the proposal and its parts. -/
inductive ProposalMsg where
  | proposal (proposal : Proposal)
  | blockPart (height : Int) (part : Part)

/-- `handleMsg` on these messages, one after the other, at one height and round.  An error is
logged and leaves the state as the failed call left it; a panic stops the node. -/
def handleMsgs (verify : Proposal → Bool) (tmhash : Bytes → Bytes) :
    RoundState → List ProposalMsg → Go RoundState
  | cs, [] => pure cs
  | cs, .proposal p :: msgs =>
    match defaultSetProposal verify cs p with
    | .ok cs' => handleMsgs verify tmhash cs' msgs
    | .error _ => handleMsgs verify tmhash cs msgs
  | cs, .blockPart height part :: msgs => do
    let (_, cs') ← addProposalBlockPart tmhash cs height part
    handleMsgs verify tmhash cs' msgs

/-- Whatever proposals and block parts arrive, in any order, handling them never panics and
every part set the state holds keeps the part-set invariant. -/
theorem handleMsgs_inv (verify : Proposal → Bool) (tmhash : Bytes → Bytes) :
    ∀ (msgs : List ProposalMsg) {cs : RoundState}, PartsInv cs →
      ∃ cs', handleMsgs verify tmhash cs msgs = .ok cs' ∧ PartsInv cs'
  | [], cs, h => ⟨cs, rfl, h⟩
  | .proposal p :: msgs, cs, h => by
    -- a rejected proposal leaves the state as it was
    cases hset : defaultSetProposal verify cs p with
    | ok cs' =>
      simp only [handleMsgs, hset]
      exact handleMsgs_inv verify tmhash msgs (defaultSetProposal_inv h hset)
    | error e =>
      simp only [handleMsgs, hset]
      exact handleMsgs_inv verify tmhash msgs h
  | .blockPart height part :: msgs, cs, h => by
    obtain ⟨r, cs', hadd, hinv⟩ := addProposalBlockPart_inv tmhash h height part
    simp only [handleMsgs, hadd, ExceptRun.ok_bind]
    exact handleMsgs_inv verify tmhash msgs hinv

/-- A part before the proposal finds no part set; after it, the one part completes the set. -/
theorem handleMsgs_inv_onePart :
    PartsInv ⟨1, 0, none, none⟩ ∧
      ∃ cs', handleMsgs (fun _ => true) id ⟨1, 0, none, none⟩
          [.blockPart 1 PartSet.onePart, .proposal onePartProposal, .blockPart 1 PartSet.onePart,
            .blockPart 1 PartSet.onePart] = .ok cs' ∧
        PartsInv cs' ∧ (cs'.proposalBlockParts.map PartSet.IsComplete) = some true := by
  have h₀ : PartsInv ⟨1, 0, none, none⟩ := fun _ h => nomatch h
  obtain ⟨cs', hrun, hinv⟩ := handleMsgs_inv (fun _ => true) id
    [.blockPart 1 PartSet.onePart, .proposal onePartProposal, .blockPart 1 PartSet.onePart,
      .blockPart 1 PartSet.onePart] h₀
  -- the state has no decidable equality: evaluate the completeness of its part set only
  have hcomplete : ((handleMsgs (fun _ => true) id ⟨1, 0, none, none⟩
      [.blockPart 1 PartSet.onePart, .proposal onePartProposal, .blockPart 1 PartSet.onePart,
        .blockPart 1 PartSet.onePart]).toOption.bind (·.proposalBlockParts)).map
      PartSet.IsComplete = some true := by decide +kernel
  rw [hrun] at hcomplete
  exact ⟨h₀, cs', hrun, hinv, hcomplete⟩

/-- A proposal whose block ID has hashes of the right size and announces any positive number of
parts passes `ValidateBasic`; once its signature verifies, `defaultSetProposal` at its height
and round makes a part set with one slot per announced part. -/
theorem defaultSetProposal_partSlots (verify : Proposal → Bool) (cs : RoundState)
    (p : Proposal) (hhash : p.blockID.hash.length = tmhashSize)
    (hpshash : p.blockID.partSetHeader.hash.length = tmhashSize)
    (htotal : p.blockID.partSetHeader.total ≠ 0) (hheight : 0 ≤ p.height) (hround : 0 ≤ p.round)
    (hpol : p.polRound = -1) (hsig : 0 < p.signature.length)
    (hsig' : p.signature.length ≤ MaxSignatureSize) (hverify : verify p = true)
    (hcs : cs.height = p.height ∧ cs.round = p.round ∧ cs.proposal = none ∧
      cs.proposalBlockParts = none) :
    p.ValidateBasic .ProposalType = .ok () ∧
      ∃ cs' ps, defaultSetProposal verify cs p = .ok cs' ∧ cs'.proposalBlockParts = some ps ∧
        ps.parts.length = p.blockID.partSetHeader.total.toNat ∧ ps.Inv := by
  obtain ⟨hh, hr, hprop, hparts⟩ := hcs
  have hvh : ∀ b : Bytes, b.length = tmhashSize → ValidateHash b = .ok () := fun b hb => by
    rw [ValidateHash, if_neg (by omega)]
    rfl
  have hbid : p.blockID.ValidateBasic = .ok () := by
    simp only [BlockID.ValidateBasic, hvh _ hhash, PartSetHeader.ValidateBasic, hvh _ hpshash]
    rfl
  have hcomplete : p.blockID.IsComplete = true := by
    have : 0 < p.blockID.partSetHeader.total := by
      rw [UInt32.lt_iff_toNat_lt]
      have : p.blockID.partSetHeader.total.toNat ≠ 0 := fun h => htotal (UInt32.toNat_inj.mp h)
      simp only [UInt32.toNat_zero]
      omega
    simp [BlockID.IsComplete, hhash, hpshash, this]
  refine ⟨?_, ⟨cs.height, cs.round, some p, some (NewPartSetFromHeader p.blockID.partSetHeader)⟩,
    NewPartSetFromHeader p.blockID.partSetHeader, ?_, rfl, by simp [NewPartSetFromHeader],
    PartSet.NewPartSetFromHeader_inv _⟩
  · simp only [Proposal.ValidateBasic, hbid, hcomplete]
    rw [if_neg (fun h => h rfl), if_neg (by omega), if_neg (by omega), if_neg (by omega)]
    simp only [Bool.not_true, Bool.false_eq_true, if_false]
    rw [if_neg (by omega), if_neg (by omega)]
    rfl
  · rw [defaultSetProposal, hprop]
    simp only [Option.isSome_none, Bool.false_eq_true, if_false, hh, hr, ne_eq, not_true_eq_false,
      or_self, hpol, hverify, Bool.not_true, hparts]
    rw [if_neg (by omega)]
    rfl

/-- A proposal at height one, round zero, announcing the most parts a `uint32` holds. -/
def largeProposal : Proposal :=
  ⟨1, 0, -1, ⟨List.replicate 32 1, ⟨4294967295, List.replicate 32 2⟩⟩, 0, [1]⟩

theorem defaultSetProposal_partSlots_large :
    largeProposal.ValidateBasic .ProposalType = .ok () ∧
      ∃ cs' ps, defaultSetProposal (fun _ => true) ⟨1, 0, none, none⟩ largeProposal = .ok cs' ∧
        cs'.proposalBlockParts = some ps ∧ ps.parts.length = 4294967295 ∧
        MaxBlockPartsCount < ps.parts.length := by
  obtain ⟨hvb, cs', ps, hset, hps, hlen, -⟩ :=
    defaultSetProposal_partSlots (fun _ => true) ⟨1, 0, none, none⟩ largeProposal rfl rfl
      (by decide) (by decide) (by decide) rfl (by decide) (by decide) rfl ⟨rfl, rfl, rfl, rfl⟩
  refine ⟨hvb, cs', ps, hset, hps, hlen, ?_⟩
  rw [hlen]
  decide

end Consensus

end Tendermint
