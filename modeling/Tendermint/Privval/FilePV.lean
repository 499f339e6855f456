import Tendermint.Types.Vote
import Tendermint.Lib.Except

/-!
# The signer's guard against double signing (`privval/file.go`)

`FilePV` keeps the height, round and step it signed last (`FilePVLastSignState`), with the
sign bytes and the signature, and signs a vote or a proposal only at a later position.  At the
same position it hands back the signature it made, and rewrites the timestamp of a message
that differs from the signed one only there: the node may have crashed after signing and before
the message reached its WAL.

`signVote_effect` and `signProposal_effect` say what one call can do (`Effect`): fail and leave
the state alone, sign at a later position, or hand back the stored signature over the stored
sign bytes.  The runs are reasoned about through `Effect` only: over any sequence of calls the
position never goes back, the successful calls come in order, and two of them at one position
return one signature over one sequence of sign bytes (`run_noDoubleSign`).

The timestamp path decodes the stored sign bytes, so it needs them to be an encoding that the
decoder inverts: `Consistent` says the state holds such bytes, and `Decodes` that
`UnmarshalDelimited` inverts `MarshalDelimited`.
-/

namespace Tendermint

/-! ## Proposals and their sign bytes -/

/-- `tmproto.Proposal`, with the fields its sign bytes are made of and its signature. -/
structure Proposal where
  height : Int
  round : Int
  polRound : Int
  blockID : BlockID
  timestamp : Time
  signature : Bytes
  deriving DecidableEq, Repr

/-- `tmproto.CanonicalProposal`. -/
structure CanonicalProposal where
  type : SignedMsgType
  height : Int
  round : Int
  polRound : Int
  blockID : Option CanonicalBlockID
  timestamp : Time
  chainID : String
  deriving DecidableEq, Repr

/-- `CanonicalizeProposal`. -/
def CanonicalizeProposal (chainID : String) (proposal : Proposal) : Go CanonicalProposal := do
  let blockID ← CanonicalizeBlockID proposal.blockID
  pure { type := .ProposalType, height := proposal.height, round := proposal.round,
         polRound := proposal.polRound, blockID := blockID, timestamp := proposal.timestamp,
         chainID := chainID }

namespace Privval

open ExceptRun

/-- What `FilePV` takes of the libraries it does not model: `protoio` on canonical proposals,
`UnmarshalDelimited` of canonical votes and proposals (`none` is its error), and `Sign` of the
private key. -/
structure Signer where
  marshalProposal : CanonicalProposal → Bytes
  unmarshalVote : Bytes → Option CanonicalVote
  unmarshalProposal : Bytes → Option CanonicalProposal
  sign : Bytes → Except String Bytes

/-- `UnmarshalDelimited` inverts `MarshalDelimited`, for votes and for proposals. -/
structure Decodes (crypto : Crypto) (signer : Signer) : Prop where
  vote : ∀ cv, signer.unmarshalVote (crypto.marshalDelimited cv) = some cv
  proposal : ∀ cp, signer.unmarshalProposal (signer.marshalProposal cp) = some cp

/-- `ProposalSignBytes`. -/
def ProposalSignBytes (signer : Signer) (chainID : String) (p : Proposal) : Go Bytes := do
  let pb ← CanonicalizeProposal chainID p
  pure (signer.marshalProposal pb)

/-- The steps of a height and round. -/
def stepNone : Int := 0
def stepPropose : Int := 1
def stepPrevote : Int := 2
def stepPrecommit : Int := 3

/-- `voteToStep`. -/
def voteToStep (vote : Vote) : Go Int :=
  match vote.type with
  | .PrevoteType => pure stepPrevote
  | .PrecommitType => pure stepPrecommit
  | _ => throw (.panic "Unknown vote type: %v")

/-- A position `(Height, Round, Step)`, in the lexicographic order. -/
abbrev HRS := Int ×ₗ Int ×ₗ Int

/-- `FilePVLastSignState`.  A Go `nil` slice is `none`. -/
structure FilePVLastSignState where
  height : Int
  round : Int
  step : Int
  signature : Option Bytes
  signBytes : Option Bytes
  deriving DecidableEq, Repr

namespace FilePVLastSignState

/-- The position of the last signature. -/
def hrs (lss : FilePVLastSignState) : HRS := toLex (lss.height, toLex (lss.round, lss.step))

/-- `CheckHRS`: an error on a regression, `true` when the position is the stored one and its
sign bytes can be handed back. -/
def CheckHRS (lss : FilePVLastSignState) (height round step : Int) : Go Bool :=
  if lss.height > height then throw (.err "height regression. Got %v, last height %v")
  else if lss.height = height then
    if lss.round > round then throw (.err "round regression at height %v. Got %v, last round %v")
    else if lss.round = round then
      if lss.step > step then
        throw (.err "step regression at height %v round %v. Got %v, last step %v")
      else if lss.step = step then
        if lss.signBytes.isSome then
          if lss.signature.isNone then throw (.panic "pv: Signature is nil but SignBytes is not!")
          else pure true
        else throw (.err "no SignBytes found")
      else pure false
    else pure false
  else pure false

/-- `saveSigned`: the new position, signature and sign bytes, persisted by `Save`. -/
def saveSigned (lss : FilePVLastSignState) (height round step : Int) (signBytes sig : Bytes) :
    FilePVLastSignState :=
  { lss with height := height, round := round, step := step, signature := some sig,
             signBytes := some signBytes }

/-- `CheckHRS` lets a call through at a later position, or at the stored one when there is a
signature to hand back. -/
lemma CheckHRS_spec {lss : FilePVLastSignState} {height round step : Int} {sameHRS : Bool}
    (h : lss.CheckHRS height round step = .ok sameHRS) :
    (sameHRS = false ∧ lss.hrs < toLex (height, toLex (round, step))) ∨
      (sameHRS = true ∧ lss.hrs = toLex (height, toLex (round, step)) ∧
        lss.signBytes.isSome ∧ lss.signature.isSome) := by
  unfold CheckHRS at h
  simp only [hrs, Prod.Lex.toLex_lt_toLex, toLex_inj, Prod.mk.injEq]
  split_ifs at h with h1 h2 h3 h4 h5 h6 h7 h8 <;> cases h
  · exact .inr ⟨rfl, ⟨h2, h4, h6⟩, h7, Option.isSome_iff_ne_none.mpr (by simpa using h8)⟩
  · exact .inl ⟨rfl, .inr ⟨h2, .inr ⟨h4, by omega⟩⟩⟩
  · exact .inl ⟨rfl, .inr ⟨h2, .inl (by omega)⟩⟩
  · exact .inl ⟨rfl, .inl (by omega)⟩

/-- At the stored position, with a signature and its bytes stored, `CheckHRS` lets the call
through to hand them back. -/
lemma CheckHRS_of_hrs_eq {lss : FilePVLastSignState} {height round step : Int}
    (hx : lss.hrs = toLex (height, toLex (round, step))) (hsb : lss.signBytes.isSome)
    (hsig : lss.signature.isSome) : lss.CheckHRS height round step = .ok true := by
  simp only [hrs, toLex_inj, Prod.mk.injEq] at hx
  obtain ⟨rfl, rfl, rfl⟩ := hx
  have hnone : lss.signature.isNone = false := by simpa using hsig
  simp [CheckHRS, hsb, hnone]
  rfl

end FilePVLastSignState

/-- The state `GenFilePV` starts from. -/
def genLastSignState : FilePVLastSignState :=
  { height := 0, round := 0, step := stepNone, signature := none, signBytes := none }

/-! ## Signing -/

/-- `checkVotesOnlyDifferByTimestamp`: the timestamp of the last vote, and whether the two
votes agree once both timestamps are set to the clock reading `now`. -/
def checkVotesOnlyDifferByTimestamp (signer : Signer) (now : Time)
    (lastSignBytes newSignBytes : Bytes) : Go (Time × Bool) :=
  match signer.unmarshalVote lastSignBytes with
  | none => throw (.panic "LastSignBytes cannot be unmarshalled into vote: %v")
  | some lastVote =>
    match signer.unmarshalVote newSignBytes with
    | none => throw (.panic "signBytes cannot be unmarshalled into vote: %v")
    | some newVote =>
      pure (lastVote.timestamp,
        decide ({ newVote with timestamp := now } = { lastVote with timestamp := now }))

/-- `checkProposalsOnlyDifferByTimestamp`. -/
def checkProposalsOnlyDifferByTimestamp (signer : Signer) (now : Time)
    (lastSignBytes newSignBytes : Bytes) : Go (Time × Bool) :=
  match signer.unmarshalProposal lastSignBytes with
  | none => throw (.panic "LastSignBytes cannot be unmarshalled into proposal: %v")
  | some lastProposal =>
    match signer.unmarshalProposal newSignBytes with
    | none => throw (.panic "signBytes cannot be unmarshalled into proposal: %v")
    | some newProposal =>
      pure (lastProposal.timestamp,
        decide ({ newProposal with timestamp := now } = { lastProposal with timestamp := now }))

/-- `signVote` on the state `lss`: the signed vote or the error, and the state after.  `now` is
the reading of `tmtime.Now()` in the timestamp comparison. -/
def signVote (crypto : Crypto) (signer : Signer) (now : Time) (lss : FilePVLastSignState)
    (chainID : String) (vote : Vote) : Go Vote × FilePVLastSignState :=
  match voteToStep vote with
  | .error e => (.error e, lss)
  | .ok step =>
    match lss.CheckHRS vote.height vote.round step with
    | .error e => (.error e, lss)
    | .ok sameHRS =>
      match VoteSignBytes crypto chainID vote with
      | .error e => (.error e, lss)
      | .ok signBytes =>
        if sameHRS then
          if signBytes = lss.signBytes.getD [] then
            (.ok { vote with signature := lss.signature.getD [] }, lss)
          else
            match checkVotesOnlyDifferByTimestamp signer now (lss.signBytes.getD []) signBytes with
            | .error e => (.error e, lss)
            | .ok (timestamp, true) =>
              (.ok { vote with timestamp := timestamp, signature := lss.signature.getD [] }, lss)
            | .ok (_, false) => (.error (.err "conflicting data"), lss)
        else
          match signer.sign signBytes with
          | .error e => (.error (.err e), lss)
          | .ok sig =>
            (.ok { vote with signature := sig },
              lss.saveSigned vote.height vote.round step signBytes sig)

/-- `signProposal` on the state `lss`. -/
def signProposal (signer : Signer) (now : Time) (lss : FilePVLastSignState) (chainID : String)
    (proposal : Proposal) : Go Proposal × FilePVLastSignState :=
  match lss.CheckHRS proposal.height proposal.round stepPropose with
  | .error e => (.error e, lss)
  | .ok sameHRS =>
    match ProposalSignBytes signer chainID proposal with
    | .error e => (.error e, lss)
    | .ok signBytes =>
      if sameHRS then
        if signBytes = lss.signBytes.getD [] then
          (.ok { proposal with signature := lss.signature.getD [] }, lss)
        else
          match checkProposalsOnlyDifferByTimestamp signer now (lss.signBytes.getD [])
              signBytes with
          | .error e => (.error e, lss)
          | .ok (timestamp, true) =>
            (.ok { proposal with timestamp := timestamp, signature := lss.signature.getD [] },
              lss)
          | .ok (_, false) => (.error (.err "conflicting data"), lss)
      else
        match signer.sign signBytes with
        | .error e => (.error (.err e), lss)
        | .ok sig =>
          (.ok { proposal with signature := sig },
            lss.saveSigned proposal.height proposal.round stepPropose signBytes sig)

/-- The `fmt.Errorf` wrapping of `SignVote` and `SignProposal`: a returned error gets the
context in front of its text, a panic goes through. -/
def wrapError (context : String) : GoError → GoError
  | .err msg => .err (context ++ msg)
  | .panic msg => .panic msg

/-- `SignVote`. -/
def SignVote (crypto : Crypto) (signer : Signer) (now : Time) (lss : FilePVLastSignState)
    (chainID : String) (vote : Vote) : Go Vote × FilePVLastSignState :=
  let r := signVote crypto signer now lss chainID vote
  (r.1.mapError (wrapError "error signing vote: "), r.2)

/-- `SignProposal`. -/
def SignProposal (signer : Signer) (now : Time) (lss : FilePVLastSignState) (chainID : String)
    (proposal : Proposal) : Go Proposal × FilePVLastSignState :=
  let r := signProposal signer now lss chainID proposal
  (r.1.mapError (wrapError "error signing proposal: "), r.2)

/-! ## What one call can do -/

/-- What a successful call hands back: the signed vote or proposal, with the chain it was
signed for. -/
inductive Signed where
  | vote (chainID : String) (vote : Vote)
  | proposal (chainID : String) (proposal : Proposal)

namespace Signed

def signature : Signed → Bytes
  | .vote _ v => v.signature
  | .proposal _ p => p.signature

/-- The sign bytes of what was handed back, timestamp included. -/
def signBytes (crypto : Crypto) (signer : Signer) : Signed → Go Bytes
  | .vote chainID v => VoteSignBytes crypto chainID v
  | .proposal chainID p => ProposalSignBytes signer chainID p

end Signed

/-- The sign bytes that a call at the stored position hands back a signature over: the stored
sign bytes, decoded as a message of the stored step and encoded again. -/
def FilePVLastSignState.handedBack (crypto : Crypto) (signer : Signer)
    (lss : FilePVLastSignState) : Option Bytes :=
  lss.signBytes.bind fun sb =>
    if lss.step = stepPropose then (signer.unmarshalProposal sb).map signer.marshalProposal
    else (signer.unmarshalVote sb).map crypto.marshalDelimited

/-- What a call at position `x` (`none` for a vote of no signing step) can do to the state
`lss`: fail and leave it, sign at a later position, or hand back the stored signature.  In the
last two cases the state after holds the signature handed back, and the sign bytes of what was
handed back are the ones the state hands back. -/
inductive Effect (crypto : Crypto) (signer : Signer) (lss : FilePVLastSignState) :
    Option HRS → Go Signed × FilePVLastSignState → Prop
  | fail {x : Option HRS} (e : GoError) : Effect crypto signer lss x (.error e, lss)
  | fresh {x : HRS} (s : Signed) (sb : Bytes) (lss' : FilePVLastSignState) :
      lss.hrs < x → lss'.hrs = x → lss'.signature = some s.signature →
      lss'.handedBack crypto signer = some sb → s.signBytes crypto signer = .ok sb →
      Effect crypto signer lss (some x) (.ok s, lss')
  | reuse {x : HRS} (s : Signed) (sb : Bytes) :
      lss.hrs = x → lss.signature = some s.signature →
      lss.handedBack crypto signer = some sb → s.signBytes crypto signer = .ok sb →
      Effect crypto signer lss (some x) (.ok s, lss)

/-- The wrapping of errors keeps what a call did. -/
lemma Effect.mapError {crypto : Crypto} {signer : Signer} {lss lss' : FilePVLastSignState}
    {x : Option HRS} {r : Go Signed} (f : GoError → GoError)
    (h : Effect crypto signer lss x (r, lss')) : Effect crypto signer lss x (r.mapError f, lss') := by
  cases h with
  | fail e => exact .fail (f e)
  | fresh s sb _ hlt hx hsig hb hsb => exact .fresh s sb _ hlt hx hsig hb hsb
  | reuse s sb hx hsig hb hsb => exact .reuse s sb hx hsig hb hsb

section Effects

variable {crypto : Crypto} {signer : Signer}

lemma voteToStep_ok {vote : Vote} {step : Int} (h : voteToStep vote = .ok step) :
    step = stepPrevote ∨ step = stepPrecommit := by
  unfold voteToStep at h
  split at h <;> cases h
  · exact .inl rfl
  · exact .inr rfl

/-- The sign bytes of a vote with another timestamp and signature. -/
lemma VoteSignBytes_with {chainID : String} {vote : Vote} {cv : CanonicalVote}
    (h : CanonicalizeVote chainID vote = .ok cv) (t : Time) (sig : Bytes) :
    VoteSignBytes crypto chainID { vote with timestamp := t, signature := sig } =
      .ok (crypto.marshalDelimited { cv with timestamp := t }) := by
  obtain ⟨bid, hbid, hcv⟩ := bind_eq_ok h
  cases hcv
  simp [VoteSignBytes, CanonicalizeVote, hbid, pure, Except.pure]

lemma ProposalSignBytes_with {chainID : String} {p : Proposal} {cp : CanonicalProposal}
    (h : CanonicalizeProposal chainID p = .ok cp) (t : Time) (sig : Bytes) :
    ProposalSignBytes signer chainID { p with timestamp := t, signature := sig } =
      .ok (signer.marshalProposal { cp with timestamp := t }) := by
  obtain ⟨bid, hbid, hcp⟩ := bind_eq_ok h
  cases hcp
  simp [ProposalSignBytes, CanonicalizeProposal, hbid, pure, Except.pure]

/-- Two canonical votes that agree once their timestamps agree: setting the first one's
timestamp to the second's gives the second. -/
lemma CanonicalVote.eq_of_timestamp {a b : CanonicalVote} {t : Time}
    (h : { a with timestamp := t } = { b with timestamp := t }) :
    { a with timestamp := b.timestamp } = b := by
  cases a
  cases b
  simp_all

lemma CanonicalProposal.eq_of_timestamp {a b : CanonicalProposal} {t : Time}
    (h : { a with timestamp := t } = { b with timestamp := t }) :
    { a with timestamp := b.timestamp } = b := by
  cases a
  cases b
  simp_all

lemma VoteSignBytes_with_signature (chainID : String) (vote : Vote) (sig : Bytes) :
    VoteSignBytes crypto chainID { vote with signature := sig } =
      VoteSignBytes crypto chainID vote := rfl

lemma ProposalSignBytes_with_signature (chainID : String) (p : Proposal) (sig : Bytes) :
    ProposalSignBytes signer chainID { p with signature := sig } =
      ProposalSignBytes signer chainID p := rfl

/-- A stored vote signature hands back the bytes it was made over. -/
lemma handedBack_saveSigned_vote (hd : Decodes crypto signer) (lss : FilePVLastSignState)
    {height round step : Int} (hstep : step = stepPrevote ∨ step = stepPrecommit)
    (cv : CanonicalVote) (sig : Bytes) :
    (lss.saveSigned height round step (crypto.marshalDelimited cv) sig).handedBack crypto
      signer = some (crypto.marshalDelimited cv) := by
  have hne : step ≠ stepPropose := by
    rcases hstep with rfl | rfl <;> decide
  simp [FilePVLastSignState.handedBack, FilePVLastSignState.saveSigned, hne, hd.vote]

lemma handedBack_saveSigned_proposal (hd : Decodes crypto signer) (lss : FilePVLastSignState)
    {height round : Int} (cp : CanonicalProposal) (sig : Bytes) :
    (lss.saveSigned height round stepPropose (signer.marshalProposal cp) sig).handedBack crypto
      signer = some (signer.marshalProposal cp) := by
  simp [FilePVLastSignState.handedBack, FilePVLastSignState.saveSigned, hd.proposal]

lemma hrs_eq_step {lss : FilePVLastSignState} {height round step : Int}
    (h : lss.hrs = toLex (height, toLex (round, step))) : lss.step = step := by
  simp only [FilePVLastSignState.hrs, toLex_inj, Prod.mk.injEq] at h
  exact h.2.2

/-- At the stored position, `signVote` hands back the stored signature, over the stored bytes
or over the vote with the stored timestamp when only the timestamp differs. -/
lemma signVote_reuse (hd : Decodes crypto signer) {now : Time} {lss : FilePVLastSignState}
    {chainID : String} {vote : Vote} {step : Int} {cv : CanonicalVote}
    (hstep : voteToStep vote = .ok step)
    (hcheck : lss.CheckHRS vote.height vote.round step = .ok true)
    (hcv : CanonicalizeVote chainID vote = .ok cv) :
    Effect crypto signer lss (some (toLex (vote.height, toLex (vote.round, step))))
      (Signed.vote chainID <$> (signVote crypto signer now lss chainID vote).1,
        (signVote crypto signer now lss chainID vote).2) := by
  rcases FilePVLastSignState.CheckHRS_spec hcheck with ⟨h, -⟩ | ⟨-, hx, hsome, hsig⟩
  · cases h
  obtain ⟨B, hB⟩ := Option.isSome_iff_exists.mp hsome
  obtain ⟨sig0, hsig0⟩ := Option.isSome_iff_exists.mp hsig
  have hne : lss.step ≠ stepPropose := by
    rw [hrs_eq_step hx]
    rcases voteToStep_ok hstep with h | h <;> rw [h] <;> decide
  have hsb : VoteSignBytes crypto chainID vote = .ok (crypto.marshalDelimited cv) := by
    simp [VoteSignBytes, hcv, pure, Except.pure]
  unfold signVote
  simp only [hstep, hcheck, hsb, if_true, hB, hsig0, Option.getD_some]
  split_ifs with heq
  · -- the same bytes: the stored signature as it is
    refine .reuse _ B hx hsig0 ?_ ?_
    · simp [FilePVLastSignState.handedBack, hB, hne, ← heq, hd.vote]
    · rw [← heq]
      exact (VoteSignBytes_with_signature chainID vote sig0).trans hsb
  · -- other bytes: decode both and compare them without their timestamps
    unfold checkVotesOnlyDifferByTimestamp
    cases hlast : signer.unmarshalVote B with
    | none => exact .fail _
    | some lastVote =>
      simp only [hd.vote]
      by_cases hsame : { cv with timestamp := now } = { lastVote with timestamp := now }
      · simp only [hsame, decide_true]
        refine .reuse _ (crypto.marshalDelimited lastVote) hx hsig0 ?_ ?_
        · simp [FilePVLastSignState.handedBack, hB, hne, hlast]
        · show VoteSignBytes crypto chainID _ = _
          rw [VoteSignBytes_with hcv, CanonicalVote.eq_of_timestamp hsame]
      · simp only [hsame, decide_false]
        exact .fail _

/-- At a later position, `signVote` signs the vote and stores what it signed. -/
lemma signVote_fresh (hd : Decodes crypto signer) {now : Time} {lss : FilePVLastSignState}
    {chainID : String} {vote : Vote} {step : Int} {cv : CanonicalVote}
    (hstep : voteToStep vote = .ok step)
    (hcheck : lss.CheckHRS vote.height vote.round step = .ok false)
    (hcv : CanonicalizeVote chainID vote = .ok cv) :
    Effect crypto signer lss (some (toLex (vote.height, toLex (vote.round, step))))
      (Signed.vote chainID <$> (signVote crypto signer now lss chainID vote).1,
        (signVote crypto signer now lss chainID vote).2) := by
  rcases FilePVLastSignState.CheckHRS_spec hcheck with ⟨-, hlt⟩ | ⟨h, -⟩
  · have hsb : VoteSignBytes crypto chainID vote = .ok (crypto.marshalDelimited cv) := by
      simp [VoteSignBytes, hcv, pure, Except.pure]
    unfold signVote
    simp only [hstep, hcheck, hsb, Bool.false_eq_true, if_false]
    cases hsign : signer.sign (crypto.marshalDelimited cv) with
    | error e => exact .fail _
    | ok sig =>
      refine .fresh _ (crypto.marshalDelimited cv) _ hlt rfl rfl
        (handedBack_saveSigned_vote hd lss (voteToStep_ok hstep) cv sig) ?_
      exact (VoteSignBytes_with_signature chainID vote sig).trans hsb
  · cases h

/-- What one `signVote` does. -/
lemma signVote_effect (hd : Decodes crypto signer) (now : Time) (lss : FilePVLastSignState)
    (chainID : String) (vote : Vote) :
    Effect crypto signer lss
      ((voteToStep vote).toOption.map fun step => toLex (vote.height, toLex (vote.round, step)))
      (Signed.vote chainID <$> (signVote crypto signer now lss chainID vote).1,
        (signVote crypto signer now lss chainID vote).2) := by
  cases hstep : voteToStep vote with
  | error e =>
    unfold signVote
    simp only [hstep]
    exact .fail e
  | ok step =>
    cases hcheck : lss.CheckHRS vote.height vote.round step with
    | error e =>
      unfold signVote
      simp only [hstep, hcheck]
      exact .fail e
    | ok sameHRS =>
      cases hcv : CanonicalizeVote chainID vote with
      | error e =>
        have hsb : VoteSignBytes crypto chainID vote = .error e := by
          simp [VoteSignBytes, hcv]
        unfold signVote
        simp only [hstep, hcheck, hsb]
        exact .fail e
      | ok cv =>
        cases sameHRS
        · exact signVote_fresh hd hstep hcheck hcv
        · exact signVote_reuse hd hstep hcheck hcv

/-- At the stored position, `signProposal` hands back the stored signature. -/
lemma signProposal_reuse (hd : Decodes crypto signer) {now : Time} {lss : FilePVLastSignState}
    {chainID : String} {p : Proposal} {cp : CanonicalProposal}
    (hcheck : lss.CheckHRS p.height p.round stepPropose = .ok true)
    (hcp : CanonicalizeProposal chainID p = .ok cp) :
    Effect crypto signer lss (some (toLex (p.height, toLex (p.round, stepPropose))))
      (Signed.proposal chainID <$> (signProposal signer now lss chainID p).1,
        (signProposal signer now lss chainID p).2) := by
  rcases FilePVLastSignState.CheckHRS_spec hcheck with ⟨h, -⟩ | ⟨-, hx, hsome, hsig⟩
  · cases h
  obtain ⟨B, hB⟩ := Option.isSome_iff_exists.mp hsome
  obtain ⟨sig0, hsig0⟩ := Option.isSome_iff_exists.mp hsig
  have hpro : lss.step = stepPropose := hrs_eq_step hx
  have hsb : ProposalSignBytes signer chainID p = .ok (signer.marshalProposal cp) := by
    simp [ProposalSignBytes, hcp, pure, Except.pure]
  unfold signProposal
  simp only [hcheck, hsb, if_true, hB, hsig0, Option.getD_some]
  split_ifs with heq
  · refine .reuse _ B hx hsig0 ?_ ?_
    · simp [FilePVLastSignState.handedBack, hB, hpro, ← heq, hd.proposal]
    · rw [← heq]
      exact (ProposalSignBytes_with_signature chainID p sig0).trans hsb
  · unfold checkProposalsOnlyDifferByTimestamp
    cases hlast : signer.unmarshalProposal B with
    | none => exact .fail _
    | some lastProposal =>
      simp only [hd.proposal]
      by_cases hsame : { cp with timestamp := now } = { lastProposal with timestamp := now }
      · simp only [hsame, decide_true]
        refine .reuse _ (signer.marshalProposal lastProposal) hx hsig0 ?_ ?_
        · simp [FilePVLastSignState.handedBack, hB, hpro, hlast]
        · show ProposalSignBytes signer chainID _ = _
          rw [ProposalSignBytes_with hcp, CanonicalProposal.eq_of_timestamp hsame]
      · simp only [hsame, decide_false]
        exact .fail _

/-- At a later position, `signProposal` signs the proposal and stores what it signed. -/
lemma signProposal_fresh (hd : Decodes crypto signer) {now : Time} {lss : FilePVLastSignState}
    {chainID : String} {p : Proposal} {cp : CanonicalProposal}
    (hcheck : lss.CheckHRS p.height p.round stepPropose = .ok false)
    (hcp : CanonicalizeProposal chainID p = .ok cp) :
    Effect crypto signer lss (some (toLex (p.height, toLex (p.round, stepPropose))))
      (Signed.proposal chainID <$> (signProposal signer now lss chainID p).1,
        (signProposal signer now lss chainID p).2) := by
  rcases FilePVLastSignState.CheckHRS_spec hcheck with ⟨-, hlt⟩ | ⟨h, -⟩
  · have hsb : ProposalSignBytes signer chainID p = .ok (signer.marshalProposal cp) := by
      simp [ProposalSignBytes, hcp, pure, Except.pure]
    unfold signProposal
    simp only [hcheck, hsb, Bool.false_eq_true, if_false]
    cases hsign : signer.sign (signer.marshalProposal cp) with
    | error e => exact .fail _
    | ok sig =>
      refine .fresh _ (signer.marshalProposal cp) _ hlt rfl rfl
        (handedBack_saveSigned_proposal hd lss cp sig) ?_
      exact (ProposalSignBytes_with_signature chainID p sig).trans hsb
  · cases h

/-- What one `signProposal` does. -/
lemma signProposal_effect (hd : Decodes crypto signer) (now : Time) (lss : FilePVLastSignState)
    (chainID : String) (p : Proposal) :
    Effect crypto signer lss (some (toLex (p.height, toLex (p.round, stepPropose))))
      (Signed.proposal chainID <$> (signProposal signer now lss chainID p).1,
        (signProposal signer now lss chainID p).2) := by
  cases hcheck : lss.CheckHRS p.height p.round stepPropose with
  | error e =>
    unfold signProposal
    simp only [hcheck]
    exact .fail e
  | ok sameHRS =>
    cases hcp : CanonicalizeProposal chainID p with
    | error e =>
      have hsb : ProposalSignBytes signer chainID p = .error e := by
        simp [ProposalSignBytes, hcp]
      unfold signProposal
      simp only [hcheck, hsb]
      exact .fail e
    | ok cp =>
      cases sameHRS
      · exact signProposal_fresh hd hcheck hcp
      · exact signProposal_reuse hd hcheck hcp

/-- A vote that repeats the stored one but for the timestamp is signed: `signVote` hands back
the vote with the stored timestamp and signature, and leaves the state. -/
lemma signVote_repeat (hd : Decodes crypto signer) {now : Time} {lss : FilePVLastSignState}
    {chainID : String} {vote : Vote} {step : Int} {cv lastVote : CanonicalVote} {sig : Bytes}
    (hstep : voteToStep vote = .ok step)
    (hx : lss.hrs = toLex (vote.height, toLex (vote.round, step)))
    (hcv : CanonicalizeVote chainID vote = .ok cv)
    (hB : lss.signBytes = some (crypto.marshalDelimited lastVote)) (hsig : lss.signature = some sig)
    (hsame : { cv with timestamp := now } = { lastVote with timestamp := now }) :
    signVote crypto signer now lss chainID vote =
      (.ok { vote with timestamp := lastVote.timestamp, signature := sig }, lss) := by
  have hcheck := FilePVLastSignState.CheckHRS_of_hrs_eq hx (by simp [hB]) (by simp [hsig])
  have hsb : VoteSignBytes crypto chainID vote = .ok (crypto.marshalDelimited cv) := by
    simp [VoteSignBytes, hcv, pure, Except.pure]
  obtain ⟨bid, -, hcv'⟩ := bind_eq_ok hcv
  have hts : cv.timestamp = vote.timestamp := by
    cases hcv'
    rfl
  unfold signVote
  simp only [hstep, hcheck, hsb, if_true, hB, hsig, Option.getD_some]
  split_ifs with heq
  · -- the same bytes: the same canonical vote, so the timestamp is the stored one already
    have hlast : cv = lastVote := by
      simpa [hd.vote] using congrArg signer.unmarshalVote heq
    rw [← hlast, hts]
  · unfold checkVotesOnlyDifferByTimestamp
    simp only [hd.vote, hsame, decide_true]
    rfl

/-- A proposal that repeats the stored one but for the timestamp is signed. -/
lemma signProposal_repeat (hd : Decodes crypto signer) {now : Time} {lss : FilePVLastSignState}
    {chainID : String} {p : Proposal} {cp lastProposal : CanonicalProposal} {sig : Bytes}
    (hx : lss.hrs = toLex (p.height, toLex (p.round, stepPropose)))
    (hcp : CanonicalizeProposal chainID p = .ok cp)
    (hB : lss.signBytes = some (signer.marshalProposal lastProposal))
    (hsig : lss.signature = some sig)
    (hsame : { cp with timestamp := now } = { lastProposal with timestamp := now }) :
    signProposal signer now lss chainID p =
      (.ok { p with timestamp := lastProposal.timestamp, signature := sig }, lss) := by
  have hcheck := FilePVLastSignState.CheckHRS_of_hrs_eq hx (by simp [hB]) (by simp [hsig])
  have hsb : ProposalSignBytes signer chainID p = .ok (signer.marshalProposal cp) := by
    simp [ProposalSignBytes, hcp, pure, Except.pure]
  obtain ⟨bid, -, hcp'⟩ := bind_eq_ok hcp
  have hts : cp.timestamp = p.timestamp := by
    cases hcp'
    rfl
  unfold signProposal
  simp only [hcheck, hsb, if_true, hB, hsig, Option.getD_some]
  split_ifs with heq
  · have hlast : cp = lastProposal := by
      simpa [hd.proposal] using congrArg signer.unmarshalProposal heq
    rw [← hlast, hts]
  · unfold checkProposalsOnlyDifferByTimestamp
    simp only [hd.proposal, hsame, decide_true]
    rfl

end Effects

/-! ## Runs -/

/-- A call on the signer, with the clock reading of its timestamp comparison. -/
inductive Call where
  | SignVote (chainID : String) (vote : Vote) (now : Time)
  | SignProposal (chainID : String) (proposal : Proposal) (now : Time)

/-- The position a call signs at; a vote of no signing step has none. -/
def Call.hrs : Call → Option HRS
  | .SignVote _ vote _ =>
    (voteToStep vote).toOption.map fun step => toLex (vote.height, toLex (vote.round, step))
  | .SignProposal _ proposal _ =>
    some (toLex (proposal.height, toLex (proposal.round, stepPropose)))

/-- One call on the state `lss`: what it hands back, and the state after. -/
def call (crypto : Crypto) (signer : Signer) (lss : FilePVLastSignState) :
    Call → Go Signed × FilePVLastSignState
  | .SignVote chainID vote now =>
    let r := SignVote crypto signer now lss chainID vote
    (Signed.vote chainID <$> r.1, r.2)
  | .SignProposal chainID proposal now =>
    let r := SignProposal signer now lss chainID proposal
    (Signed.proposal chainID <$> r.1, r.2)

/-- The calls one after another from the state `lss`: what each hands back, and the state it
leaves. -/
def run (crypto : Crypto) (signer : Signer) :
    FilePVLastSignState → List Call → List (Go Signed × FilePVLastSignState)
  | _, [] => []
  | lss, c :: cs =>
    let r := call crypto signer lss c
    r :: run crypto signer r.2 cs

/-- The successful calls of a run, each with its position. -/
def receipts : List Call → List (Go Signed × FilePVLastSignState) → List (HRS × Signed)
  | c :: cs, r :: rs =>
    match c.hrs, r.1 with
    | some x, .ok s => (x, s) :: receipts cs rs
    | _, _ => receipts cs rs
  | _, _ => []

lemma mem_receipts_cons {c : Call} {cs : List Call} {r : Go Signed × FilePVLastSignState}
    {rs : List (Go Signed × FilePVLastSignState)} {y : HRS} {t : Signed} :
    (y, t) ∈ receipts (c :: cs) (r :: rs) ↔
      (c.hrs = some y ∧ r.1 = .ok t) ∨ (y, t) ∈ receipts cs rs := by
  obtain ⟨r1, r2⟩ := r
  rw [receipts]
  cases hc : c.hrs with
  | none => simp
  | some x =>
    cases r1 with
    | error e => simp
    | ok s => simp [eq_comm]

/-- A call that repeats what the state stored but for the timestamp: at the stored position,
with a canonical message that agrees with the stored one once both timestamps are the call's
clock reading.  `s` is what it is to hand back: the message with the stored timestamp and the
stored signature. -/
inductive Repeat (crypto : Crypto) (signer : Signer) (lss : FilePVLastSignState) :
    Call → Signed → Prop
  | vote {chainID : String} {vote : Vote} {now : Time} {step : Int}
      {cv lastVote : CanonicalVote} {sig : Bytes} :
      voteToStep vote = .ok step → lss.hrs = toLex (vote.height, toLex (vote.round, step)) →
      CanonicalizeVote chainID vote = .ok cv →
      lss.signBytes = some (crypto.marshalDelimited lastVote) → lss.signature = some sig →
      { cv with timestamp := now } = { lastVote with timestamp := now } →
      Repeat crypto signer lss (.SignVote chainID vote now)
        (.vote chainID { vote with timestamp := lastVote.timestamp, signature := sig })
  | proposal {chainID : String} {p : Proposal} {now : Time}
      {cp lastProposal : CanonicalProposal} {sig : Bytes} :
      lss.hrs = toLex (p.height, toLex (p.round, stepPropose)) →
      CanonicalizeProposal chainID p = .ok cp →
      lss.signBytes = some (signer.marshalProposal lastProposal) → lss.signature = some sig →
      { cp with timestamp := now } = { lastProposal with timestamp := now } →
      Repeat crypto signer lss (.SignProposal chainID p now)
        (.proposal chainID { p with timestamp := lastProposal.timestamp, signature := sig })

section Runs

variable {crypto : Crypto} {signer : Signer}

/-- A repeat succeeds, and leaves the state. -/
lemma call_repeat (hd : Decodes crypto signer) {lss : FilePVLastSignState} {c : Call}
    {s : Signed} (h : Repeat crypto signer lss c s) : call crypto signer lss c = (.ok s, lss) := by
  cases h with
  | vote hstep hx hcv hB hsig hsame =>
    simp only [call, SignVote, signVote_repeat hd hstep hx hcv hB hsig hsame]
    rfl
  | proposal hx hcp hB hsig hsame =>
    simp only [call, SignProposal, signProposal_repeat hd hx hcp hB hsig hsame]
    rfl

/-- The `i`-th result of a run is the `i`-th call on the state the calls before it left. -/
lemma run_getElem? : ∀ (lss : FilePVLastSignState) (calls : List Call) (i : Nat) (c : Call)
    (lss' : FilePVLastSignState), calls[i]? = some c →
    (lss :: (run crypto signer lss calls).map Prod.snd)[i]? = some lss' →
    (run crypto signer lss calls)[i]? = some (call crypto signer lss' c)
  | _, [], _, _, _, hc, _ => by simp at hc
  | lss, c' :: cs, 0, c, lss', hc, hl => by
    simp only [List.getElem?_cons_zero, Option.some.injEq] at hc hl
    subst hc hl
    rfl
  | lss, c' :: cs, i + 1, c, lss', hc, hl => by
    simp only [run, List.map_cons, List.getElem?_cons_succ] at hc hl ⊢
    exact run_getElem? _ cs i c lss' hc hl

lemma map_mapError {α β : Type} (f : α → β) (g : GoError → GoError) (r : Go α) :
    (f <$> r).mapError g = f <$> r.mapError g := by
  cases r <;> rfl

/-- What one call does. -/
lemma call_effect (hd : Decodes crypto signer) (lss : FilePVLastSignState) (c : Call) :
    Effect crypto signer lss c.hrs (call crypto signer lss c) := by
  cases c with
  | SignVote chainID vote now =>
    have h := (signVote_effect hd now lss chainID vote).mapError (wrapError "error signing vote: ")
    rw [map_mapError] at h
    exact h
  | SignProposal chainID p now =>
    have h := (signProposal_effect hd now lss chainID p).mapError
      (wrapError "error signing proposal: ")
    rw [map_mapError] at h
    exact h

lemma Effect.hrs_le {lss lss' : FilePVLastSignState} {x : Option HRS} {r : Go Signed}
    (h : Effect crypto signer lss x (r, lss')) : lss.hrs ≤ lss'.hrs := by
  cases h with
  | fail e => exact le_rfl
  | fresh s sb _ hlt hx => exact hx ▸ hlt.le
  | reuse s sb hx => exact le_rfl

lemma Effect.eq_of_error {lss lss' : FilePVLastSignState} {x : Option HRS} {e : GoError}
    (h : Effect crypto signer lss x (.error e, lss')) : lss' = lss := by
  cases h
  rfl

/-- A call that hands something back stores its position and what it handed back. -/
lemma Effect.ok {lss lss' : FilePVLastSignState} {x : Option HRS} {s : Signed}
    (h : Effect crypto signer lss x (.ok s, lss')) :
    ∃ y sb, x = some y ∧ lss.hrs ≤ y ∧ lss'.hrs = y ∧ lss'.signature = some s.signature ∧
      lss'.handedBack crypto signer = some sb ∧ s.signBytes crypto signer = .ok sb := by
  cases h with
  | fresh s sb _ hlt hx hsig hb hsb => exact ⟨_, sb, rfl, hlt.le, hx, hsig, hb, hsb⟩
  | reuse s sb hx hsig hb hsb => exact ⟨_, sb, rfl, hx.le, hx, hsig, hb, hsb⟩

lemma run_hrs_ge (hd : Decodes crypto signer) :
    ∀ (calls : List Call) (lss : FilePVLastSignState),
      ∀ p ∈ run crypto signer lss calls, lss.hrs ≤ p.2.hrs
  | [], _, p, hp => by simp [run] at hp
  | c :: cs, lss, p, hp => by
    have hle := (call_effect hd lss c).hrs_le
    simp only [run, List.mem_cons] at hp
    rcases hp with rfl | hp
    · exact hle
    · exact hle.trans (run_hrs_ge hd cs _ p hp)

/-- After a call that stored position `x` with its signature and bytes, every later successful
call is at `x` or after, and one at `x` hands back the same signature over the same bytes: a
call at `x` finds the state as that call left it, since only a call at a later position changes
it. -/
lemma receipts_after (hd : Decodes crypto signer) {σ₀ : FilePVLastSignState} {x : HRS}
    {sig sb : Bytes} (hx : σ₀.hrs = x) (hsig : σ₀.signature = some sig)
    (hb : σ₀.handedBack crypto signer = some sb) :
    ∀ (cs : List Call) (σ : FilePVLastSignState), x < σ.hrs ∨ σ = σ₀ →
      ∀ y t, (y, t) ∈ receipts cs (run crypto signer σ cs) →
        x ≤ y ∧ (x = y → t.signature = sig ∧ t.signBytes crypto signer = .ok sb)
  | [], _, _, y, t, h => by simp [receipts] at h
  | c :: cs, σ, hσ, y, t, h => by
    have hxσ : x ≤ σ.hrs := by
      rcases hσ with hlt | rfl
      · exact hlt.le
      · exact hx.ge
    have he := call_effect hd σ c
    rw [run, mem_receipts_cons] at h
    generalize call crypto signer σ c = rc at he h
    generalize c.hrs = cx at he h
    obtain ⟨r, σ'⟩ := rc
    rcases h with ⟨hc, hr⟩ | h
    · -- this call: at a later position it is after `x`, at the stored one it hands back
      subst hc
      dsimp only at hr
      subst hr
      cases he with
      | fresh s sb' _ hlt =>
        exact ⟨(hxσ.trans_lt hlt).le, fun hxy => absurd (hxy ▸ hxσ.trans_lt hlt) (lt_irrefl x)⟩
      | reuse s sb' hy hsig' hb' hsb' =>
        refine ⟨hxσ.trans hy.le, fun hxy => ?_⟩
        rcases hσ with hlt | rfl
        · exact absurd (hlt.trans_eq (hy.trans hxy.symm)) (lt_irrefl x)
        · rw [hsig] at hsig'
          rw [hb] at hb'
          cases hsig'
          cases hb'
          exact ⟨rfl, hsb'⟩
    · refine receipts_after hd hx hsig hb cs σ' ?_ y t h
      cases he with
      | fail e => exact hσ
      | fresh s sb' _ hlt hy => exact .inl (hy ▸ hxσ.trans_lt hlt)
      | reuse => exact hσ

lemma run_hrs_pairwise (hd : Decodes crypto signer) :
    ∀ (lss : FilePVLastSignState) (calls : List Call),
      (lss.hrs :: (run crypto signer lss calls).map fun r => r.2.hrs).Pairwise (· ≤ ·)
  | lss, [] => by simp [run]
  | lss, c :: cs => by
    have hall := run_hrs_ge hd (c :: cs) lss
    refine List.pairwise_cons.mpr ⟨fun a ha => ?_, ?_⟩
    · obtain ⟨p, hp, rfl⟩ := List.mem_map.mp ha
      exact hall p hp
    · exact run_hrs_pairwise hd _ cs

/-- A failing call leaves the state as the call before it left it. -/
lemma run_error_unchanged (hd : Decodes crypto signer) :
    ∀ (lss : FilePVLastSignState) (calls : List Call) (i : Nat) (e : GoError)
      (lss' : FilePVLastSignState), (run crypto signer lss calls)[i]? = some (.error e, lss') →
      (lss :: (run crypto signer lss calls).map Prod.snd)[i]? = some lss'
  | _, [], _, _, _, h => by simp [run] at h
  | lss, c :: cs, 0, e, lss', h => by
    have he := call_effect hd lss c
    simp only [run, List.getElem?_cons_zero, Option.some.injEq] at h
    rw [h] at he
    simp [he.eq_of_error]
  | lss, c :: cs, i + 1, e, lss', h => by
    simp only [run, List.getElem?_cons_succ] at h
    have := run_error_unchanged hd _ cs i e lss' h
    simpa [run] using this

/-- The successful calls of a run come in order, and two at one position hand back one
signature over one sequence of sign bytes. -/
lemma receipts_pairwise (hd : Decodes crypto signer) :
    ∀ (lss : FilePVLastSignState) (calls : List Call),
      (receipts calls (run crypto signer lss calls)).Pairwise fun a b =>
        a.1 ≤ b.1 ∧ (a.1 = b.1 → a.2.signature = b.2.signature ∧
          a.2.signBytes crypto signer = b.2.signBytes crypto signer)
  | lss, [] => by simp [receipts]
  | lss, c :: cs => by
    have he := call_effect hd lss c
    have ih := receipts_pairwise hd (call crypto signer lss c).2 cs
    rw [run, receipts]
    generalize call crypto signer lss c = r at he ih
    obtain ⟨r1, lss'⟩ := r
    cases hc : c.hrs with
    | none => exact ih
    | some x =>
      cases r1 with
      | error e => exact ih
      | ok s =>
        rw [hc] at he
        obtain ⟨y, sb, hxy, -, hy, hsig, hb, hsb⟩ := he.ok
        cases hxy
        refine List.pairwise_cons.mpr ⟨fun b hmem => ?_, ih⟩
        obtain ⟨hle, hsame⟩ := receipts_after hd hy hsig hb cs lss' (.inr rfl) b.1 b.2 hmem
        refine ⟨hle, fun h => ?_⟩
        obtain ⟨hs, hbytes⟩ := hsame h
        exact ⟨hs.symm, hsb.trans hbytes.symm⟩

end Runs

/-- No double signing.  Over any sequence of `SignVote` and `SignProposal` calls, from any
state: the stored position never goes back; a failing call leaves the state as it was; the
successful calls come in the order of their positions; two successful calls at one position
hand back one signature over one sequence of sign bytes; and a call that repeats the stored
message but for the timestamp succeeds, with the stored timestamp and signature. -/
theorem run_noDoubleSign {crypto : Crypto} {signer : Signer} (hd : Decodes crypto signer)
    (lss : FilePVLastSignState) (calls : List Call) :
    (lss.hrs :: (run crypto signer lss calls).map fun r => r.2.hrs).Pairwise (· ≤ ·) ∧
    (∀ (i : Nat) (e : GoError) (lss' : FilePVLastSignState),
      (run crypto signer lss calls)[i]? = some (.error e, lss') →
        (lss :: (run crypto signer lss calls).map Prod.snd)[i]? = some lss') ∧
    (receipts calls (run crypto signer lss calls)).Pairwise (fun a b =>
      a.1 ≤ b.1 ∧ (a.1 = b.1 → a.2.signature = b.2.signature ∧
        a.2.signBytes crypto signer = b.2.signBytes crypto signer)) ∧
    (∀ (i : Nat) (c : Call) (s : Signed) (lss' : FilePVLastSignState), calls[i]? = some c →
      (lss :: (run crypto signer lss calls).map Prod.snd)[i]? = some lss' →
      Repeat crypto signer lss' c s → (run crypto signer lss calls)[i]? = some (.ok s, lss')) :=
  ⟨run_hrs_pairwise hd lss calls, run_error_unchanged hd lss calls,
    receipts_pairwise hd lss calls, fun i c s lss' hc hl hr => by
      rw [run_getElem? lss calls i c lss' hc hl, call_repeat hd hr]⟩

/-! ## A signer whose decoder inverts its encoder -/

/-- The tag of a message type. -/
def tagOf : SignedMsgType → Nat
  | .UnknownType => 0
  | .PrevoteType => 1
  | .PrecommitType => 2
  | .ProposalType => 3

def typeOfTag : Nat → SignedMsgType
  | 1 => .PrevoteType
  | 2 => .PrecommitType
  | 3 => .ProposalType
  | _ => .UnknownType

/-- A canonical block ID as numbers. -/
def blockIDTuple (b : CanonicalBlockID) : List Nat × Nat × List Nat :=
  (b.hash.map UInt8.toNat, b.partSetHeader.total.toNat, b.partSetHeader.hash.map UInt8.toNat)

def blockIDOfTuple (t : List Nat × Nat × List Nat) : CanonicalBlockID :=
  ⟨t.1.map UInt8.ofNat, ⟨UInt32.ofNat t.2.1, t.2.2.map UInt8.ofNat⟩⟩

/-- The numbers a canonical vote and a canonical proposal are written as. -/
abbrev VoteTuple := Nat × Int × Int × Option (List Nat × Nat × List Nat) × Int × List Nat
abbrev ProposalTuple := Nat × Int × Int × Int × Option (List Nat × Nat × List Nat) × Int × List Nat

/-- A canonical vote as numbers. -/
def voteTuple (cv : CanonicalVote) : VoteTuple :=
  (tagOf cv.type, cv.height, cv.round, cv.blockID.map blockIDTuple, cv.timestamp,
    cv.chainID.toList.map Char.toNat)

def voteOfTuple (t : VoteTuple) : CanonicalVote :=
  ⟨typeOfTag t.1, t.2.1, t.2.2.1, t.2.2.2.1.map blockIDOfTuple, t.2.2.2.2.1,
    String.ofList (t.2.2.2.2.2.map Char.ofNat)⟩

/-- A canonical proposal as numbers. -/
def proposalTuple (cp : CanonicalProposal) : ProposalTuple :=
  (tagOf cp.type, cp.height, cp.round, cp.polRound, cp.blockID.map blockIDTuple, cp.timestamp,
    cp.chainID.toList.map Char.toNat)

def proposalOfTuple (t : ProposalTuple) : CanonicalProposal :=
  ⟨typeOfTag t.1, t.2.1, t.2.2.1, t.2.2.2.1, t.2.2.2.2.1.map blockIDOfTuple, t.2.2.2.2.2.1,
    String.ofList (t.2.2.2.2.2.2.map Char.ofNat)⟩

lemma blockIDOfTuple_blockIDTuple (b : CanonicalBlockID) : blockIDOfTuple (blockIDTuple b) = b := by
  obtain ⟨hash, total, pshHash⟩ := b
  simp [blockIDOfTuple, blockIDTuple, Function.comp_def]

lemma voteOfTuple_voteTuple (cv : CanonicalVote) : voteOfTuple (voteTuple cv) = cv := by
  obtain ⟨type, height, round, blockID, timestamp, chainID⟩ := cv
  cases type <;> simp [voteOfTuple, voteTuple, typeOfTag, tagOf, Option.map_map,
    Function.comp_def, blockIDOfTuple_blockIDTuple]

lemma proposalOfTuple_proposalTuple (cp : CanonicalProposal) :
    proposalOfTuple (proposalTuple cp) = cp := by
  obtain ⟨type, height, round, polRound, blockID, timestamp, chainID⟩ := cp
  cases type <;> simp [proposalOfTuple, proposalTuple, typeOfTag, tagOf, Option.map_map,
    Function.comp_def, blockIDOfTuple_blockIDTuple]

/-- The `Encodable` code of a canonical vote's numbers, and its decoding. -/
def encodeVote (cv : CanonicalVote) : Nat := Encodable.encode (voteTuple cv)

def decodeVote (n : Nat) : Option CanonicalVote :=
  (Encodable.decode n : Option VoteTuple).map voteOfTuple

def encodeProposal (cp : CanonicalProposal) : Nat := Encodable.encode (proposalTuple cp)

def decodeProposal (n : Nat) : Option CanonicalProposal :=
  (Encodable.decode n : Option ProposalTuple).map proposalOfTuple

lemma decodeVote_encodeVote (cv : CanonicalVote) : decodeVote (encodeVote cv) = some cv := by
  rw [decodeVote, encodeVote, Encodable.encodek, Option.map_some, voteOfTuple_voteTuple]

lemma decodeProposal_encodeProposal (cp : CanonicalProposal) :
    decodeProposal (encodeProposal cp) = some cp := by
  rw [decodeProposal, encodeProposal, Encodable.encodek, Option.map_some,
    proposalOfTuple_proposalTuple]

/-- Canonical messages written as that many zero bytes: far from protobuf, but a code that its
decoder inverts; and a key whose signature of a message is the message. -/
def tupleCrypto : Crypto where
  pubKeyAddress _ := []
  verifySignature _ signBytes signature := signBytes == signature
  marshalDelimited cv := List.replicate (encodeVote cv) 0

def tupleSigner : Signer where
  marshalProposal cp := List.replicate (encodeProposal cp) 0
  unmarshalVote b := decodeVote b.length
  unmarshalProposal b := decodeProposal b.length
  sign b := .ok b

lemma tuple_decodes : Decodes tupleCrypto tupleSigner := by
  constructor
  · intro cv
    simp only [tupleSigner, tupleCrypto, List.length_replicate, decodeVote_encodeVote]
  · intro cp
    simp only [tupleSigner, List.length_replicate, decodeProposal_encodeProposal]

/-- A prevote at height 1, round 0, for nil, with the timestamp `t`. -/
def prevoteAt (t : Time) : Vote := ⟨.PrevoteType, 1, 0, ⟨[], ⟨0, []⟩⟩, t, [], 0, []⟩

/-- The prevote at timestamp 0, then the same prevote at timestamp 5 with the clock at 7. -/
def twoPrevotes : List Call :=
  [.SignVote "chain" (prevoteAt 0) 0, .SignVote "chain" (prevoteAt 5) 7]

/-- The second prevote differs from the first only in its timestamp, so it repeats it, and is
handed back with timestamp 0 and the first signature. -/
theorem run_noDoubleSign_twice :
    Decodes tupleCrypto tupleSigner ∧
    ((genLastSignState.hrs ::
        (run tupleCrypto tupleSigner genLastSignState twoPrevotes).map fun r => r.2.hrs).Pairwise
      (· ≤ ·) ∧
    (∀ (i : Nat) (e : GoError) (lss' : FilePVLastSignState),
      (run tupleCrypto tupleSigner genLastSignState twoPrevotes)[i]? = some (.error e, lss') →
        (genLastSignState :: (run tupleCrypto tupleSigner genLastSignState twoPrevotes).map
          Prod.snd)[i]? = some lss') ∧
    (receipts twoPrevotes (run tupleCrypto tupleSigner genLastSignState twoPrevotes)).Pairwise
      (fun a b => a.1 ≤ b.1 ∧ (a.1 = b.1 → a.2.signature = b.2.signature ∧
        a.2.signBytes tupleCrypto tupleSigner = b.2.signBytes tupleCrypto tupleSigner)) ∧
    (∀ (i : Nat) (c : Call) (s : Signed) (lss' : FilePVLastSignState), twoPrevotes[i]? = some c →
      (genLastSignState :: (run tupleCrypto tupleSigner genLastSignState twoPrevotes).map
        Prod.snd)[i]? = some lss' →
      Repeat tupleCrypto tupleSigner lss' c s →
      (run tupleCrypto tupleSigner genLastSignState twoPrevotes)[i]? = some (.ok s, lss'))) ∧
    ∃ lss₁ sig, Repeat tupleCrypto tupleSigner lss₁ (.SignVote "chain" (prevoteAt 5) 7)
        (.vote "chain" { prevoteAt 5 with timestamp := 0, signature := sig }) ∧
      (run tupleCrypto tupleSigner genLastSignState twoPrevotes)[1]? =
        some (.ok (.vote "chain" { prevoteAt 5 with timestamp := 0, signature := sig }), lss₁) := by
  have h := run_noDoubleSign tuple_decodes genLastSignState twoPrevotes
  -- the first prevote is signed at a later position, and its bytes are stored
  have hcv : ∀ t, CanonicalizeVote "chain" (prevoteAt t) =
      .ok ⟨.PrevoteType, 1, 0, none, t, "chain"⟩ := fun _ => rfl
  set cv₀ : CanonicalVote := ⟨.PrevoteType, 1, 0, none, 0, "chain"⟩
  set sig₀ := tupleCrypto.marshalDelimited cv₀
  set lss₁ := genLastSignState.saveSigned 1 0 stepPrevote sig₀ sig₀
  have h₀ : (call tupleCrypto tupleSigner genLastSignState (.SignVote "chain" (prevoteAt 0) 0)).2 =
      lss₁ := rfl
  -- the second prevote agrees with the stored one once both timestamps are 7
  have hrep : Repeat tupleCrypto tupleSigner lss₁ (.SignVote "chain" (prevoteAt 5) 7)
      (.vote "chain" { prevoteAt 5 with timestamp := 0, signature := sig₀ }) :=
    @Repeat.vote _ _ lss₁ "chain" (prevoteAt 5) 7 stepPrevote _ cv₀ sig₀ rfl rfl (hcv 5) rfl rfl rfl
  refine ⟨tuple_decodes, h, lss₁, _, hrep, h.2.2.2 1 _ _ lss₁ rfl ?_ hrep⟩
  simp only [twoPrevotes, run, List.map_cons, List.getElem?_cons_succ, List.getElem?_cons_zero, h₀]

end Privval

end Tendermint
