import Mathlib
import Tendermint.Types.Evidence
import Tendermint.State.Execution
import Tendermint.Lib.GoMap

/-!
# The evidence pool (`evidence/pool.go`)

The pool keeps evidence in four buckets of its store, each keyed by the evidence's height and
hash (`keySuffix`): pending evidence, to be proposed; committed evidence, by the height of its
block; potential amnesia evidence awaiting the end of its trial period; and proofs of lock change
(POLCs), by height and round.  An `AmnesiaEvidence` hashes as the potential amnesia evidence it
embeds, so all three of a potential amnesia evidence, its amnesia evidence with a POLC and the
one without share one key.

`AddEvidence` and `handleInboundPotentialAmnesiaEvidence` call each other: a potential amnesia
evidence is handled by looking for a POLC of a later round, adding the amnesia evidence formed
with it, and then either upgrading the evidence at once or starting its trial.  The flag
`exists`, which should stop the second step once the first has succeeded, is never set, so the
evidence is also put on trial:

* **`handleInbound_files_twice`** — when a POLC is found and the amnesia evidence formed with it
  is added, the potential amnesia evidence is put in the awaiting-trial bucket as well.

The nested `AddEvidence` never hands its evidence back to `handleInboundPotentialAmnesiaEvidence`
(`addEvidenceWith_nested`), so the mutual recursion is one level deep and the model ties it by
passing the handler in (`addEvidenceWith`, `handleInboundWith`).

The store, the block store and the state store are given by what the pool reads of them
(`Env`); `VerifyEvidence`, `VerifyComposite` and `Split` are parameters, modelled in
`Types.Evidence` and `state/validation.go`.  The store iterates a bucket in key order, that is
by height and then by hash.
-/

namespace Tendermint

open GoMap ExceptRun

/-- `Height()` of each kind of evidence. -/
def ConcreteEvidence.Height : ConcreteEvidence → Int
  | .duplicateVote ev => ev.voteA.height
  | .conflictingHeaders ev => ev.h1.header.height
  | .lunaticValidator ev => ev.header.height
  | .potentialAmnesia ev => ev.voteA.height
  | .amnesia ev => ev.potentialAmnesiaEvidence.voteA.height

/-- `Time()` of each kind of evidence; conflicting headers answer the later header time. -/
def ConcreteEvidence.Time : ConcreteEvidence → Time
  | .duplicateVote ev => ev.timestamp
  | .conflictingHeaders ev =>
    if ev.h1.header.time > ev.h2.header.time then ev.h1.header.time else ev.h2.header.time
  | .lunaticValidator ev => ev.timestamp
  | .potentialAmnesia ev => ev.timestamp
  | .amnesia ev => ev.potentialAmnesiaEvidence.timestamp

/-- `PotentialAmnesiaEvidence.Primed`: a vote in an earlier round after a later one is punishable
at once; otherwise the trial period must have passed since the evidence was stamped. -/
def PotentialAmnesiaEvidence.Primed (e : PotentialAmnesiaEvidence) (trialPeriod currentHeight : Int) :
    Bool :=
  if e.voteA.round > e.voteB.round then true
  else if e.heightStamp > 0 then e.heightStamp + trialPeriod ≤ currentHeight
  else false

/-- `NewAmnesiaEvidence`. -/
def NewAmnesiaEvidence (pe : PotentialAmnesiaEvidence) (proof : ProofOfLockChange) :
    AmnesiaEvidence :=
  ⟨pe, proof⟩

@[simp] lemma NewAmnesiaEvidence_potentialAmnesiaEvidence (pe : PotentialAmnesiaEvidence)
    (proof : ProofOfLockChange) : (NewAmnesiaEvidence pe proof).potentialAmnesiaEvidence = pe := rfl
@[simp] lemma NewAmnesiaEvidence_polc (pe : PotentialAmnesiaEvidence) (proof : ProofOfLockChange) :
    (NewAmnesiaEvidence pe proof).polc = proof := rfl

namespace evidence

/-- The fields of `sm.State` the pool reads. -/
structure State where
  ChainID : String
  LastBlockHeight : Int
  LastBlockTime : Time
  ConsensusParams : ConsensusParams

/-- A key of the store behind its prefix byte: the height and the hash (`keySuffix`). -/
abbrev Key := Int × Bytes

/-- The order the store iterates keys in: by height, then by hash. -/
def keyLe (k k' : Key) : Bool := k.1 < k'.1 || (k.1 = k'.1 && decide (k.2 ≤ k'.2))

/-- `Pool`: the four buckets of the store, the list of evidence to gossip, the state, and the
height at which a trial period next ends. -/
structure Pool where
  committed : Map Key Int
  pending : Map Key ConcreteEvidence
  awaitingTrial : Map Key PotentialAmnesiaEvidence
  polcs : Map (Int × Int) ProofOfLockChange
  evidenceList : List ConcreteEvidence
  state : State
  nextEvidenceTrialEndedHeight : Int

/-- What the pool reads of its stores and the checks it calls. -/
structure Env where
  codec : EvidenceCodec
  LoadValidators : Int → Except String ValidatorSet
  LoadBlockMeta : Int → Option Header
  VerifyComposite : ConflictingHeadersEvidence → Header → ValidatorSet → Except String Unit
  Split : ConflictingHeadersEvidence → Header → ValidatorSet → List ConcreteEvidence
  VerifyEvidence : State → ConcreteEvidence → Header → Except String Unit

/-- A bucket's entries in the store's order. -/
def inKeyOrder {ν : Type} (m : Map Key ν) : List (Σ _ : Key, ν) :=
  m.entries.mergeSort fun e e' => keyLe e.1 e'.1

/-- A header with only its time set, `&types.Header{Time: t}`. -/
def timeHeader (t : Time) : Header :=
  ⟨⟨0, 0⟩, "", 0, t, ⟨[], ⟨0, []⟩⟩, [], [], [], [], [], [], [], [], []⟩

/-- A call whose error Go logs and drops, its panic apart. -/
def recoverErr (pool : Pool) : Go Pool → Go Pool
  | .ok p => pure p
  | .error (.panic msg) => throw (.panic msg)
  | .error (.err _) => pure pool

namespace Pool

variable (env : Env)

/-- `keySuffix`. -/
def keySuffix (ev : ConcreteEvidence) : Key := (ev.Height, env.codec.Hash ev)

/-- `IsPending`. -/
def IsPending (pool : Pool) (ev : ConcreteEvidence) : Bool := keySuffix env ev ∈ pool.pending

/-- `IsCommitted`. -/
def IsCommitted (pool : Pool) (ev : ConcreteEvidence) : Bool := keySuffix env ev ∈ pool.committed

/-- `IsOnTrial`: only potential amnesia evidence is put on trial. -/
def IsOnTrial (pool : Pool) : ConcreteEvidence → Bool
  | ev@(.potentialAmnesia _) => keySuffix env ev ∈ pool.awaitingTrial
  | _ => false

/-- `Has`. -/
def Has (pool : Pool) (ev : ConcreteEvidence) : Bool :=
  pool.IsPending env ev || pool.IsCommitted env ev || pool.IsOnTrial env ev

/-- `IsExpired`: older than both the maximum number of blocks and the maximum duration. -/
def IsExpired (pool : Pool) (height : Int) (time : Time) : Bool :=
  let params := pool.state.ConsensusParams.Evidence
  pool.state.LastBlockHeight - height > params.MaxAgeNumBlocks &&
    pool.state.LastBlockTime - time > params.MaxAgeDuration

/-- `addPendingEvidence`. -/
def addPendingEvidence (pool : Pool) (ev : ConcreteEvidence) : Pool :=
  { pool with pending := pool.pending.insert (keySuffix env ev) ev }

/-- `removePendingEvidence`. -/
def removePendingEvidence (pool : Pool) (ev : ConcreteEvidence) : Pool :=
  { pool with pending := pool.pending.erase (keySuffix env ev) }

/-- `removeEvidenceFromList`: the evidence of the given hashes leaves the gossip list. -/
def removeEvidenceFromList (pool : Pool) (hashes : List Bytes) : Pool :=
  { pool with evidenceList := pool.evidenceList.filter fun ev => !hashes.contains (env.codec.Hash ev) }

/-- `RetrievePOLC`. -/
def RetrievePOLC (pool : Pool) (height round : Int) : Option ProofOfLockChange :=
  pool.polcs.lookup (height, round)

/-- `AddPOLC`: the key is read off the first vote before the POLC is encoded. -/
def AddPOLC (pool : Pool) (polc : ProofOfLockChange) : Go Pool :=
  match polc.votes with
  | some (v :: _) =>
    if polc.pubKey.isNone then
      throw (.err ("invalid proof of lock change (err: toproto: key type <nil> is not supported), " ++
        "did you forget to validate?"))
    else pure { pool with polcs := pool.polcs.insert (v.height, v.round) polc }
  | _ => throw (.panic "runtime error: index out of range [0] with length 0")

/-- The header an evidence is checked against: one with the evidence's time for evidence of the
next height, which the block store does not have yet, and else the stored one. -/
def headerFor (pool : Pool) (ev : ConcreteEvidence) : Go Header :=
  if ev.Height = pool.state.LastBlockHeight + 1 then
    if ev.Time < pool.state.LastBlockTime then
      throw (.err ("evidence is from an earlier time than the previous block: " ++ toString ev.Time ++
        " < " ++ toString pool.state.LastBlockTime))
    else pure (timeHeader ev.Time)
  else
    match env.LoadBlockMeta ev.Height with
    | none => throw (.err ("don't have header at height #" ++ toString ev.Height))
    | some header => pure header

/-- The pieces of evidence `AddEvidence` adds: a composite evidence is verified and split. -/
def evidencePieces (valSet : ValidatorSet) : ConcreteEvidence → Go (List ConcreteEvidence)
  | ev@(.conflictingHeaders ce) =>
    match env.LoadBlockMeta ev.Height with
    | none => throw (.err ("don't have block meta at height #" ++ toString ev.Height))
    | some header => do
      (env.VerifyComposite ce header valSet).mapError GoError.err
      pure (env.Split ce header valSet)
  | ev => pure [ev]

/-- Saving a piece of evidence as pending and gossiping it. -/
def savePending (pool : Pool) (ev : ConcreteEvidence) : Pool :=
  let pool := pool.addPendingEvidence env ev
  { pool with evidenceList := pool.evidenceList ++ [ev] }

@[simp] lemma savePending_state (pool : Pool) (ev : ConcreteEvidence) :
    (pool.savePending env ev).state = pool.state := rfl
@[simp] lemma savePending_pending (pool : Pool) (ev : ConcreteEvidence) :
    (pool.savePending env ev).pending = pool.pending.insert (keySuffix env ev) ev := rfl
@[simp] lemma savePending_awaitingTrial (pool : Pool) (ev : ConcreteEvidence) :
    (pool.savePending env ev).awaitingTrial = pool.awaitingTrial := rfl

/-- The loop body of `AddEvidence` for one piece, given the handler of potential amnesia
evidence. -/
def addPiece (handle : Pool → PotentialAmnesiaEvidence → Go Pool) (state : State) (pool : Pool)
    (ev : ConcreteEvidence) : Go Pool :=
  -- evidence it has is skipped, unless it is amnesia evidence with a POLC
  let skip := pool.Has env ev && match ev with
    | .amnesia ae => ae.polc.IsAbsent
    | _ => true
  if skip then pure pool
  else do
    let header ← pool.headerFor env ev
    (env.VerifyEvidence state ev header).mapError fun err => .err ("Invalid evidence: " ++ err)
    match ev with
    | .potentialAmnesia pe => handle pool pe
    | .amnesia ae =>
      let pe := ae.potentialAmnesiaEvidence
      if ae.polc.IsAbsent && pe.voteA.round < pe.voteB.round then
        -- run this node's own trial of the potential amnesia evidence
        (handle pool pe).mapError (GoError.wrap "failed to handle amnesia evidence, err: ")
      else
        -- punishable as it is: it replaces the same case without a POLC, pending or on trial
        let aeWithoutPolc := ConcreteEvidence.amnesia (NewAmnesiaEvidence pe .NewEmptyPOLC)
        let pool :=
          if pool.IsPending env aeWithoutPolc then pool.removePendingEvidence env aeWithoutPolc
          else if pool.IsOnTrial env (.potentialAmnesia pe) then
            { pool with awaitingTrial := pool.awaitingTrial.erase (keySuffix env (.potentialAmnesia pe)) }
          else pool
        pure (pool.savePending env ev)
    | ev => pure (pool.savePending env ev)

/-- `AddEvidence`, given the handler of potential amnesia evidence. -/
def addEvidenceWith (handle : Pool → PotentialAmnesiaEvidence → Go Pool) (pool : Pool)
    (evidence : ConcreteEvidence) : Go Pool := do
  let state := pool.state
  let valSet ← (env.LoadValidators evidence.Height).mapError fun err =>
    .err ("can't load validators at height #" ++ toString evidence.Height ++ ": " ++ err)
  let evList ← evidencePieces env valSet evidence
  evList.foldlM (addPiece env handle state) pool

/-- The loop of `handleInboundPotentialAmnesiaEvidence` looking for a POLC, from round `round`
down, `n` rounds. -/
def searchPOLC (pool : Pool) (height : Int) : Nat → Int → Option ProofOfLockChange
  | 0, _ => none
  | n + 1, round =>
    match pool.RetrievePOLC height round with
    | some polc => if !polc.IsAbsent then some polc else searchPOLC pool height n (round - 1)
    | none => searchPOLC pool height n (round - 1)

/-- `handleInboundPotentialAmnesiaEvidence`, given `AddEvidence`. -/
def handleInboundWith (add : Pool → ConcreteEvidence → Go Pool) (pool : Pool)
    (pe : PotentialAmnesiaEvidence) : Go Pool := do
  let height := pe.voteA.height
  -- Go's `exists`, which is never set to true
  let existsFlag := false
  -- a) a POLC of a round after the first vote's turns it into amnesia evidence
  let pool ← match pool.searchPOLC height (pe.voteB.round - pe.voteA.round).toNat pe.voteB.round with
    | some polc => recoverErr pool (add pool (.amnesia (NewAmnesiaEvidence pe polc)))
    | none => pure pool
  -- stamp the height the evidence was received at
  let pe := { pe with heightStamp := pool.state.LastBlockHeight }
  let params := pool.state.ConsensusParams.Evidence
  -- b) upgrade it now, or start its trial
  if !existsFlag && pe.Primed 1 pe.heightStamp then
    add pool (.amnesia (NewAmnesiaEvidence pe .NewEmptyPOLC))
  else if !existsFlag && pool.state.LastBlockHeight + params.ProofTrialPeriod <
      pe.voteA.height + params.MaxAgeNumBlocks then
    let key := keySuffix env (.potentialAmnesia pe)
    let pool := { pool with awaitingTrial := pool.awaitingTrial.insert key pe }
    let pool := if pool.nextEvidenceTrialEndedHeight = -1 then
        { pool with nextEvidenceTrialEndedHeight := pe.voteA.height + params.ProofTrialPeriod }
      else pool
    pure { pool with evidenceList := pool.evidenceList ++ [.potentialAmnesia pe] }
  else pure pool

/-- The handler the nested `AddEvidence` is given: it is never called
(`addEvidenceWith_nested`). -/
def notReentered (_ : Pool) (_ : PotentialAmnesiaEvidence) : Go Pool :=
  throw (.panic "handleInboundPotentialAmnesiaEvidence reentered")

/-- `handleInboundPotentialAmnesiaEvidence`. -/
def handleInboundPotentialAmnesiaEvidence (pool : Pool) (pe : PotentialAmnesiaEvidence) :
    Go Pool :=
  handleInboundWith env (addEvidenceWith env notReentered) pool pe

/-- `AddEvidence`. -/
def AddEvidence (pool : Pool) (evidence : ConcreteEvidence) : Go Pool :=
  addEvidenceWith env (handleInboundPotentialAmnesiaEvidence env) pool evidence

/-- `MarkEvidenceAsCommitted`. -/
def MarkEvidenceAsCommitted (pool : Pool) (height : Int) (evidence : List ConcreteEvidence) :
    Pool :=
  let (pool, hashes) := evidence.foldl (fun (acc : Pool × List Bytes) ev =>
      let pool := { acc.1 with committed := acc.1.committed.insert (keySuffix env ev) height }
      if pool.IsPending env ev then
        (pool.removePendingEvidence env ev, acc.2 ++ [env.codec.Hash ev])
      else (pool, acc.2))
    (pool, [])
  if hashes.length ≠ 0 then pool.removeEvidenceFromList env hashes else pool

/-- The loop of `removeExpiredPendingEvidence`: it stops at the first evidence that has not
expired, and only then takes the expired ones off the gossip list. -/
def removeExpiredLoop (pool : Pool) (hashes : List Bytes) : List (Σ _ : Key, ConcreteEvidence) →
    Pool
  | [] => pool
  | e :: rest =>
    let ev := e.2
    if !pool.IsExpired (ev.Height - 1) ev.Time then
      if hashes.length ≠ 0 then pool.removeEvidenceFromList env hashes else pool
    else removeExpiredLoop (pool.removePendingEvidence env ev) (hashes ++ [env.codec.Hash ev]) rest

/-- `removeExpiredPendingEvidence`. -/
def removeExpiredPendingEvidence (pool : Pool) : Pool :=
  removeExpiredLoop env pool [] (inKeyOrder pool.pending)

/-- `PendingEvidence`: the first `maxNum` pending evidence in key order, after the expired ones
are removed. -/
def PendingEvidence (pool : Pool) (maxNum : UInt32) : List ConcreteEvidence × Pool :=
  let pool := pool.removeExpiredPendingEvidence env
  ((inKeyOrder pool.pending).map (·.2) |>.take maxNum.toNat, pool)

/-- The loop of `pruneExpiredPOLC`, which also stops at the first that has not expired. -/
def pruneLoop (pool : Pool) : List (Σ _ : Int × Int, ProofOfLockChange) → Go Pool
  | [] => pure pool
  | e :: rest =>
    match e.2.votes with
    | some (v :: vs) =>
      if !pool.IsExpired (v.height - 1) (ProofOfLockChange.latestTime v (v :: vs)) then pure pool
      else pruneLoop { pool with polcs := pool.polcs.erase e.1 } rest
    | _ => throw (.panic "runtime error: index out of range [0] with length 0")

/-- `pruneExpiredPOLC`: the POLCs in the store's order, by height and round. -/
def pruneExpiredPOLC (pool : Pool) : Go Pool :=
  pruneLoop pool (pool.polcs.entries.mergeSort fun e e' =>
    e.1.1 < e'.1.1 || (e.1.1 = e'.1.1 && e.1.2 ≤ e'.1.2))

/-- The loop of `upgradePotentialAmnesiaEvidence`: primed evidence becomes amnesia evidence
without a POLC; at the first that is not, the height its trial ends at is returned. -/
def upgradeLoop (pool : Pool) (trialPeriod currentHeight : Int) :
    List (Σ _ : Key, PotentialAmnesiaEvidence) → Int × Pool
  | [] => (-1, pool)
  | e :: rest =>
    let pe := e.2
    if pe.Primed trialPeriod currentHeight then
      let pool := pool.addPendingEvidence env (.amnesia (NewAmnesiaEvidence pe .NewEmptyPOLC))
      upgradeLoop { pool with awaitingTrial := pool.awaitingTrial.erase e.1 } trialPeriod
        currentHeight rest
    else (pe.heightStamp + trialPeriod, pool)

/-- `upgradePotentialAmnesiaEvidence`. -/
def upgradePotentialAmnesiaEvidence (pool : Pool) : Int × Pool :=
  upgradeLoop env pool pool.state.ConsensusParams.Evidence.ProofTrialPeriod
    pool.state.LastBlockHeight (inKeyOrder pool.awaitingTrial)

/-- `Update`, given the block's height and evidence. -/
def Update (pool : Pool) (height : Int) (evidence : List ConcreteEvidence) (state : State) :
    Go Pool := do
  if state.LastBlockHeight ≠ height then
    throw (.panic ("Failed EvidencePool.Update sanity check: got state.Height=" ++
      toString state.LastBlockHeight ++ " with block.Height=" ++ toString height))
  let pool := { pool with state := state }
  let pool := pool.MarkEvidenceAsCommitted env height evidence
  let maxAge := state.ConsensusParams.Evidence.MaxAgeNumBlocks
  if maxAge = 0 then throw (.panic "runtime error: integer divide by zero")
  let pool ← if height.tmod maxAge = 0 then do
      let pool ← pool.pruneExpiredPOLC
      pure (pool.removeExpiredPendingEvidence env)
    else pure pool
  if pool.nextEvidenceTrialEndedHeight > 0 && height > pool.nextEvidenceTrialEndedHeight then
    let (next, pool) := pool.upgradePotentialAmnesiaEvidence env
    pure { pool with nextEvidenceTrialEndedHeight := next }
  else pure pool

/-! ## The shared key -/

/-- An amnesia evidence is kept under the key of the potential amnesia evidence it embeds,
whatever its POLC. -/
@[simp] lemma keySuffix_amnesia (pe : PotentialAmnesiaEvidence) (polc : ProofOfLockChange) :
    keySuffix env (.amnesia (NewAmnesiaEvidence pe polc)) = keySuffix env (.potentialAmnesia pe) :=
  rfl

/-- The height stamp is not part of the key. -/
@[simp] lemma keySuffix_heightStamp (pe : PotentialAmnesiaEvidence) (h : Int) :
    keySuffix env (.potentialAmnesia { pe with heightStamp := h }) =
      keySuffix env (.potentialAmnesia pe) :=
  rfl

/-- An amnesia evidence is checked against the header of its potential amnesia evidence. -/
@[simp] lemma headerFor_amnesia (pool : Pool) (pe : PotentialAmnesiaEvidence)
    (polc : ProofOfLockChange) :
    pool.headerFor env (.amnesia (NewAmnesiaEvidence pe polc)) =
      pool.headerFor env (.potentialAmnesia pe) :=
  rfl

/-! ## The recursion is one level deep -/

variable {env}

/-- An amnesia evidence with a POLC, or whose votes are not in round order, is added without the
handler. -/
lemma addPiece_amnesia_congr {h₁ h₂ : Pool → PotentialAmnesiaEvidence → Go Pool} {state : State}
    {pool : Pool} {ae : AmnesiaEvidence}
    (hae : ae.polc.IsAbsent = false ∨
      ¬ ae.potentialAmnesiaEvidence.voteA.round < ae.potentialAmnesiaEvidence.voteB.round) :
    addPiece env h₁ state pool (.amnesia ae) = addPiece env h₂ state pool (.amnesia ae) := by
  have hno : (ae.polc.IsAbsent &&
      decide (ae.potentialAmnesiaEvidence.voteA.round < ae.potentialAmnesiaEvidence.voteB.round)) =
      false := by
    rcases hae with h | h <;> simp [h]
  simp only [addPiece, hno, Bool.false_eq_true, if_false]

/-- The nested `AddEvidence` of such an amnesia evidence does not depend on its handler. -/
theorem addEvidenceWith_nested (h₁ h₂ : Pool → PotentialAmnesiaEvidence → Go Pool) (pool : Pool)
    (ae : AmnesiaEvidence)
    (hae : ae.polc.IsAbsent = false ∨
      ¬ ae.potentialAmnesiaEvidence.voteA.round < ae.potentialAmnesiaEvidence.voteB.round) :
    addEvidenceWith env h₁ pool (.amnesia ae) = addEvidenceWith env h₂ pool (.amnesia ae) := by
  simp only [addEvidenceWith, evidencePieces, pure_bind, List.foldlM_cons, List.foldlM_nil,
    bind_pure]
  congr 1
  funext _
  exact addPiece_amnesia_congr hae

/-- The POLC search only finds POLCs that are not absent. -/
lemma searchPOLC_present {pool : Pool} {height : Int} :
    ∀ {n : Nat} {round : Int} {polc : ProofOfLockChange},
      pool.searchPOLC height n round = some polc → polc.IsAbsent = false
  | 0, _, _, h => by simp [searchPOLC] at h
  | n + 1, round, polc, h => by
    unfold searchPOLC at h
    split at h
    · split at h
      · rename_i hpresent
        cases h
        simpa using hpresent
      · exact searchPOLC_present h
    · exact searchPOLC_present h

/-- Stamped with the current height, an evidence whose votes are in round order is not primed
for a trial of one block. -/
lemma Primed_stamped {pe : PotentialAmnesiaEvidence} (hround : pe.voteA.round < pe.voteB.round)
    (h : Int) : ({ pe with heightStamp := h } : PotentialAmnesiaEvidence).Primed 1 h = false := by
  have hnot : ¬ pe.voteB.round < pe.voteA.round := by omega
  simp [PotentialAmnesiaEvidence.Primed, hnot]

/-- Primed for a trial of one block at its own stamp, an evidence has its votes out of round
order. -/
lemma not_round_lt_of_Primed_stamped {pe : PotentialAmnesiaEvidence} {h : Int}
    (hp : ({ pe with heightStamp := h } : PotentialAmnesiaEvidence).Primed 1 h = true) :
    ¬ pe.voteA.round < pe.voteB.round := by
  intro hround
  rw [Primed_stamped hround] at hp
  exact Bool.false_ne_true hp

/-- Go's mutual recursion: whatever handler the nested `AddEvidence` is given,
`handleInboundPotentialAmnesiaEvidence` does the same, for it never reaches the handler. -/
theorem handleInboundWith_reentry_free (h : Pool → PotentialAmnesiaEvidence → Go Pool)
    (pool : Pool) (pe : PotentialAmnesiaEvidence) :
    handleInboundWith env (addEvidenceWith env h) pool pe =
      pool.handleInboundPotentialAmnesiaEvidence env pe := by
  unfold handleInboundPotentialAmnesiaEvidence handleInboundWith
  -- the amnesia evidence formed with a found POLC has one
  have hfound : ∀ polc, pool.searchPOLC pe.voteA.height (pe.voteB.round - pe.voteA.round).toNat
      pe.voteB.round = some polc →
      addEvidenceWith env h pool (.amnesia (NewAmnesiaEvidence pe polc)) =
        addEvidenceWith env notReentered pool (.amnesia (NewAmnesiaEvidence pe polc)) :=
    fun polc hs => addEvidenceWith_nested _ _ _ _ (Or.inl (searchPOLC_present hs))
  -- after the search, the two sides differ only in the handler of the upgrade
  have hrest : ∀ (pool' : Pool) (e : Go Pool),
      (if (!false && ({ pe with heightStamp := pool'.state.LastBlockHeight } :
          PotentialAmnesiaEvidence).Primed 1 pool'.state.LastBlockHeight) = true then
        addEvidenceWith env h pool' (.amnesia (NewAmnesiaEvidence
          { pe with heightStamp := pool'.state.LastBlockHeight } .NewEmptyPOLC))
      else e) =
      (if (!false && ({ pe with heightStamp := pool'.state.LastBlockHeight } :
          PotentialAmnesiaEvidence).Primed 1 pool'.state.LastBlockHeight) = true then
        addEvidenceWith env notReentered pool' (.amnesia (NewAmnesiaEvidence
          { pe with heightStamp := pool'.state.LastBlockHeight } .NewEmptyPOLC))
      else e) := by
    intro pool' e
    split_ifs with hprimed
    · exact addEvidenceWith_nested _ _ _ _
        (Or.inr (@not_round_lt_of_Primed_stamped pe _ (by simpa using hprimed)))
    · rfl
  rcases hs : pool.searchPOLC pe.voteA.height (pe.voteB.round - pe.voteA.round).toNat
    pe.voteB.round with _ | polc
  · simp only [hs, hrest]
  · simp only [hs, hfound _ hs, hrest]

/-! ## A POLC found, and the trial started as well -/

/-- An amnesia evidence with a POLC, for a case the pool has not seen, is saved as pending and
gossiped, whatever the handler. -/
lemma addEvidenceWith_amnesia_fresh {h : Pool → PotentialAmnesiaEvidence → Go Pool}
    {pool : Pool} {pe : PotentialAmnesiaEvidence} {polc : ProofOfLockChange}
    {valSet : ValidatorSet} {header : Header}
    (hval : env.LoadValidators pe.voteA.height = .ok valSet) (hpresent : polc.IsAbsent = false)
    (hpend : keySuffix env (.potentialAmnesia pe) ∉ pool.pending)
    (hcomm : keySuffix env (.potentialAmnesia pe) ∉ pool.committed)
    (htrial : keySuffix env (.potentialAmnesia pe) ∉ pool.awaitingTrial)
    (hheader : pool.headerFor env (.potentialAmnesia pe) = .ok header)
    (hverify : env.VerifyEvidence pool.state (.amnesia (NewAmnesiaEvidence pe polc)) header =
      .ok ()) :
    addEvidenceWith env h pool (.amnesia (NewAmnesiaEvidence pe polc)) =
      .ok (pool.savePending env (.amnesia (NewAmnesiaEvidence pe polc))) := by
  have hnew : pool.Has env (.amnesia (NewAmnesiaEvidence pe polc)) = false := by
    simp [Has, IsPending, IsCommitted, IsOnTrial, hpend, hcomm]
  have hfresh : pool.IsPending env (.amnesia (NewAmnesiaEvidence pe .NewEmptyPOLC)) = false := by
    simp [IsPending, hpend]
  have hnotTrial : pool.IsOnTrial env (.potentialAmnesia pe) = false := by
    simp [IsOnTrial, htrial]
  simp only [addEvidenceWith, evidencePieces, ConcreteEvidence.Height,
    NewAmnesiaEvidence_potentialAmnesiaEvidence, hval, Except.mapError, ok_bind, pure_bind,
    List.foldlM_cons, List.foldlM_nil, bind_pure]
  simp only [addPiece, hnew, Bool.false_and, Bool.false_eq_true, if_false, headerFor_amnesia,
    hheader, hverify, Except.mapError, ok_bind, NewAmnesiaEvidence_potentialAmnesiaEvidence,
    NewAmnesiaEvidence_polc, hpresent, hfresh, hnotTrial]
  rfl

/-- The search finds a POLC that is there at its first round. -/
lemma searchPOLC_first {pool : Pool} {height round : Int} {n : Nat} {polc : ProofOfLockChange}
    (hpolc : pool.polcs.lookup (height, round) = some polc) (hpresent : polc.IsAbsent = false) :
    pool.searchPOLC height (n + 1) round = some polc := by
  simp [searchPOLC, RetrievePOLC, hpolc, hpresent]

variable (env)

/-- A potential amnesia evidence the pool has not seen, for which the pool holds a POLC of the
second vote's round, is turned into amnesia evidence with that POLC, and is put on trial as
well when the trial would end before the evidence expires. -/
theorem handleInbound_files_twice (pool : Pool) (pe : PotentialAmnesiaEvidence)
    (polc : ProofOfLockChange) (valSet : ValidatorSet) (header : Header)
    (hval : env.LoadValidators pe.voteA.height = .ok valSet)
    (hnew : pool.Has env (.potentialAmnesia pe) = false)
    (hheader : pool.headerFor env (.potentialAmnesia pe) = .ok header)
    (hverify : env.VerifyEvidence pool.state (.potentialAmnesia pe) header = .ok ())
    (hround : pe.voteA.round < pe.voteB.round)
    (hpolc : pool.polcs.lookup (pe.voteA.height, pe.voteB.round) = some polc)
    (hpresent : polc.IsAbsent = false)
    (hverifyAe : env.VerifyEvidence pool.state (.amnesia (NewAmnesiaEvidence pe polc)) header =
      .ok ())
    (htrial : pool.state.LastBlockHeight + pool.state.ConsensusParams.Evidence.ProofTrialPeriod <
      pe.voteA.height + pool.state.ConsensusParams.Evidence.MaxAgeNumBlocks) :
    ∃ pool', pool.AddEvidence env (.potentialAmnesia pe) = .ok pool' ∧
      pool'.pending.lookup (keySuffix env (.potentialAmnesia pe)) =
        some (.amnesia (NewAmnesiaEvidence pe polc)) ∧
      keySuffix env (.potentialAmnesia pe) ∈ pool'.awaitingTrial := by
  -- none of the three buckets holds the case
  have hpend : keySuffix env (.potentialAmnesia pe) ∉ pool.pending := by
    simp_all [Has, IsPending]
  have hcomm : keySuffix env (.potentialAmnesia pe) ∉ pool.committed := by
    simp_all [Has, IsCommitted]
  have hnotTrial : keySuffix env (.potentialAmnesia pe) ∉ pool.awaitingTrial := by
    simp_all [Has, IsOnTrial]
  -- a) the POLC of the second vote's round is the first the search tries
  have hsearch : pool.searchPOLC pe.voteA.height (pe.voteB.round - pe.voteA.round).toNat
      pe.voteB.round = some polc := by
    obtain ⟨n, hn⟩ : ∃ n, (pe.voteB.round - pe.voteA.round).toNat = n + 1 :=
      ⟨(pe.voteB.round - pe.voteA.round).toNat - 1, by omega⟩
    rw [hn]
    exact searchPOLC_first hpolc hpresent
  have hnested := @addEvidenceWith_amnesia_fresh env notReentered pool pe polc valSet header
    hval hpresent hpend hcomm hnotTrial hheader hverifyAe
  simp only [AddEvidence, addEvidenceWith, evidencePieces, ConcreteEvidence.Height, hval,
    Except.mapError, ok_bind, pure_bind, List.foldlM_cons, List.foldlM_nil, bind_pure]
  simp only [addPiece, hnew, Bool.false_and, Bool.false_eq_true, if_false, hheader, hverify,
    Except.mapError, ok_bind]
  simp only [handleInboundPotentialAmnesiaEvidence, handleInboundWith, hsearch, hnested,
    recoverErr, pure_bind, savePending_state, Primed_stamped hround, Bool.not_false,
    Bool.true_and, Bool.false_eq_true, if_false, htrial, decide_true, if_true]
  -- b) the evidence is not primed, so its trial starts
  refine ⟨_, rfl, ?_, ?_⟩
  · split_ifs <;> simp
  · split_ifs <;> simp

end Pool

/-- A pool's environment that finds every validator set and header and accepts every
evidence. -/
def acceptingEnv : Env :=
  ⟨signatureCodec, fun _ => .ok ⟨[], none, 0⟩, fun _ => some (timeHeader 0), fun _ _ _ => .ok (),
    fun _ _ _ => [], fun _ _ _ => .ok ()⟩

/-- The validator's POLC for block `3` in round `1`, the round of its second precommit. -/
def lockPOLC : ProofOfLockChange := ⟨some [amnesiaVote 1 3 1], some (List.replicate 32 1)⟩

/-- A pool at height one that holds only that POLC. -/
def polcPool : Pool :=
  ⟨∅, ∅, ∅, (∅ : Map (Int × Int) ProofOfLockChange).insert (1, 1) lockPOLC, [],
    ⟨"", 1, 0, DefaultConsensusParams⟩, -1⟩

/-- The validator that precommitted block `1` in round `0` and block `3` in round `1`, with the
POLC that justifies its change, is filed both as amnesia evidence with that POLC and on
trial. -/
theorem handleInbound_files_twice_locked :
    ∃ pool', polcPool.AddEvidence acceptingEnv (.potentialAmnesia lockedAmnesia) = .ok pool' ∧
      pool'.pending.lookup (Pool.keySuffix acceptingEnv (.potentialAmnesia lockedAmnesia)) =
        some (.amnesia (NewAmnesiaEvidence lockedAmnesia lockPOLC)) ∧
      Pool.keySuffix acceptingEnv (.potentialAmnesia lockedAmnesia) ∈ pool'.awaitingTrial :=
  Pool.handleInbound_files_twice acceptingEnv polcPool lockedAmnesia lockPOLC ⟨[], none, 0⟩
    (timeHeader 0) rfl (by decide) rfl rfl (by decide) rfl rfl rfl (by decide)

end evidence

end Tendermint
