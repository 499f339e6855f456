import Tendermint.Consensus.State
import Tendermint.Consensus.Polkas
import Tendermint.Lib.Run

/-!
# The round state only moves forward, and the node signs only what it may

The receive routine of `consensus.State` takes one input at a time; each moves the round state
(height, round, step) through the `enter*` functions, which call one another and run their last
part in a deferred call.  This file proves what holds over every run of it from a state that
`NewState` builds:

* the round state never goes back in the order of `CompareHRS` (`hrs_monotone`), and no height
  is skipped (`heights_not_skipped`);
* the proposals and votes the node signs are sent in strictly increasing order of height, round
  and step, so it never signs two proposals for one height and round nor two votes of one type
  for one height and round (`signed_once`);
* the locked and the valid block are kept with a round from `0` up to the current round, or are
  absent at round `-1` (`locked_valid_rounds`);
* the ticker is never handed a timeout ahead of the round state (`timeouts_not_ahead`);
* a precommit the node signs for a block is for the block of a polka of its round, `+2/3` of the
  round's prevotes in the node's own vote sets (`precommit_after_polka`), and the locked and the
  valid block are each the block of a polka of their round (`locked_valid_polka`);
* a proposal the node signs with a POL round proposes the block of the polka of that round, the
  polka its peers ask for before they accept it (`proposal_pol_polka`);
* a prevote the node signs in a round after the round of its lock is for the locked block
  (`prevote_follows_lock`);
* past the chain's initial height the last commit holds `+2/3` precommits, so the node always has
  a commit to build its proposal on (`lastCommit_has_maj23`).

**The invariant.**  `Inv` gathers what a reachable state satisfies: a positive height, a round
that is not negative, the commit round of the commit step, the locked and valid rounds, the
timeouts handed to the ticker, and the keys of the messages the node signed (`signedKeys`:
strictly increasing, none ahead of the round state, none of a negative round); and that the
precommits for a block of the current height, the proposals with a POL round, the locked block
and the valid block are backed by the polkas of the height (`State.polkas`, read off its vote
sets), that the height has its vote sets, that past the initial height the last commit has
`+2/3`, and that the prevotes of the height follow the lock (`FollowsLock`).  It reads a state
only through its `View`, so a change that leaves the view alone keeps it (`Inv.congr`), and so
does one that only adds polkas (`Inv.extend`): `Consensus.Polkas` shows that the vote sets of a
height never lose one.

**What a step can do.**  Every part of a transition is one of three kinds, each with its lemma.

* The work of an `enter*` function before its deferred update (`Body`) keeps the round state
  and the polkas, schedules timeouts of its own round, and signs at most one message, ahead of
  the round state it starts from and not ahead of the one it moves to, a precommit for a block
  only on a polka for it, a proposal only with the valid round as its POL round, a prevote only
  for the locked block when there is one; the lock stays, is released, or is set in the current
  round (`LockStep`).  The update then moves the state forward (`Inv.enter`).  This is where the
  guards of the `enter*` functions matter.
* `updateToState` from the commit step starts the next height (`IsReset.inv`,
  `progress_updateToState`).
* Adding a vote adds to the polkas (`Within.of_extend`) or to the last commit
  (`Within.setLastCommit`); everything else leaves the view alone.

Each function of `Consensus.State` gets one lemma that says which of these it does, citing the
lemmas of the functions it calls: `Within` (the same height) or `Progress` (at most the next
one).  The handlers' lemmas give the step theorem `progress_step`, and `Lib.Run` carries it over
runs.

Two facts come from the callers and not from the functions: an `enter*` function that signs is
called only for the state's own round (`enterPrevote`, `enterPrecommit`, and
`enterPrecommitWait`, which schedules a timeout without moving the round), and the ticker only
fires timeouts the state scheduled, which are never ahead of it.

**Runs.**  The results are instantiated on a chain of four validators of equal power
(`fourValidators`), where the node is validator `1`: it prevotes and precommits the block
validator `0` proposes in round `0` and locks it on a polka, the precommits of round `0` are not
enough, and in round `1` it proposes the locked block with POL round `0`, prevotes it again
(`lock_run`), and with its peers' votes commits it and starts height `2` (`commit_run`).  The
kernel evaluates these runs.
-/

namespace Tendermint

namespace Consensus

open ExceptRun

/-! ## Keys of round states and of signed messages -/

/-- A height, round and step value, in the order `CompareHRS` compares them. -/
def hrsKey (height round : Int) (step : Nat) : Int ×ₗ Int ×ₗ Nat :=
  toLex (height, toLex (round, step))

@[simp] lemma hrsKey_le_hrsKey {h r h' r' : Int} {s s' : Nat} :
    hrsKey h r s ≤ hrsKey h' r' s' ↔ h < h' ∨ h = h' ∧ (r < r' ∨ r = r' ∧ s ≤ s') := by
  simp only [hrsKey, Prod.Lex.toLex_le_toLex]

@[simp] lemma hrsKey_lt_hrsKey {h r h' r' : Int} {s s' : Nat} :
    hrsKey h r s < hrsKey h' r' s' ↔ h < h' ∨ h = h' ∧ (r < r' ∨ r = r' ∧ s < s') := by
  simp only [hrsKey, Prod.Lex.toLex_lt_toLex]

lemma exists_hrsKey (k : Int ×ₗ Int ×ₗ Nat) : ∃ h r s, k = hrsKey h r s :=
  ⟨(ofLex k).1, (ofLex (ofLex k).2).1, (ofLex (ofLex k).2).2, rfl⟩

/-- The round of a key. -/
def keyRound (k : Int ×ₗ Int ×ₗ Nat) : Int := (ofLex (ofLex k).2).1

@[simp] lemma keyRound_hrsKey (h r : Int) (s : Nat) : keyRound (hrsKey h r s) = r := rfl

/-- A key strictly after one round state of a height and not after another of that height
has a round between theirs. -/
lemma round_le_keyRound {h r r' : Int} {s s' : Nat} {k : Int ×ₗ Int ×ₗ Nat}
    (hlt : hrsKey h r s < k) (hle : k ≤ hrsKey h r' s') : r ≤ keyRound k := by
  obtain ⟨h₁, r₁, s₁, rfl⟩ := exists_hrsKey k
  simp only [hrsKey_lt_hrsKey, hrsKey_le_hrsKey] at hlt hle
  simp only [keyRound_hrsKey]
  omega

/-- `CompareHRS` says "not before" exactly when the keys are so ordered. -/
lemma CompareHRS_nonneg_iff {h1 r1 h2 r2 : Int} {s1 s2 : RoundStepType} :
    0 ≤ CompareHRS h1 r1 s1 h2 r2 s2 ↔ hrsKey h2 r2 s2.val ≤ hrsKey h1 r1 s1.val := by
  simp only [CompareHRS, hrsKey_le_hrsKey, RoundStepType.lt_iff, gt_iff_lt]
  split_ifs <;> omega

/-- The round state of `cs`. -/
def State.hrs (cs : State) : Int ×ₗ Int ×ₗ Nat := hrsKey cs.Height cs.Round cs.Step.val

/-- The step at which a vote of the type is signed: prevotes on entering `Prevote`, precommits
on entering `Precommit`. -/
def voteStep (type : SignedMsgType) : RoundStepType :=
  if type = .PrevoteType then .RoundStepPrevote else .RoundStepPrecommit

/-- The key of a message the node signs: a proposal at its height and round and the step
`Propose`, a vote at its height and round and the step that signs it.  A block part is not
signed. -/
def StateMessage.signedKey : StateMessage → Option (Int ×ₗ Int ×ₗ Nat)
  | .ProposalMessage _ proposal =>
    some (hrsKey proposal.height proposal.round RoundStepType.RoundStepPropose.val)
  | .BlockPartMessage _ _ _ => none
  | .VoteMessage vote => some (hrsKey vote.height vote.round (voteStep vote.type).val)

/-- The keys of the messages the node signed, in the order it sent them. -/
def State.signedKeys (cs : State) : List (Int ×ₗ Int ×ₗ Nat) :=
  cs.internalMsgQueue.filterMap fun mi => mi.Msg.signedKey

@[simp] lemma signedKeys_sendInternalMessage (cs : State) (mi : msgInfo) :
    (cs.sendInternalMessage mi).signedKeys = cs.signedKeys ++ mi.Msg.signedKey.toList := by
  simp only [State.signedKeys, State.sendInternalMessage, List.filterMap_append]
  cases h : mi.Msg.signedKey <;> simp [h]

/-- The precommit a message carries, if it carries one. -/
def StateMessage.precommit : StateMessage → Option Vote
  | .VoteMessage vote => if vote.type = .PrecommitType then some vote else none
  | _ => none

/-- The precommits the node signed, in the order it sent them. -/
def State.precommits (cs : State) : List Vote :=
  cs.internalMsgQueue.filterMap fun mi => mi.Msg.precommit

@[simp] lemma precommits_sendInternalMessage (cs : State) (mi : msgInfo) :
    (cs.sendInternalMessage mi).precommits = cs.precommits ++ mi.Msg.precommit.toList := by
  simp only [State.precommits, State.sendInternalMessage, List.filterMap_append]
  cases h : mi.Msg.precommit <;> simp [h]

/-- A vote the node sent is signed at its height and round, in the step that signs its type. -/
lemma signedKey_mem_of_vote {cs : State} {mi : msgInfo} {v : Vote}
    (hmi : mi ∈ cs.internalMsgQueue) (hm : mi.Msg = .VoteMessage v) :
    hrsKey v.height v.round (voteStep v.type).val ∈ cs.signedKeys :=
  List.mem_filterMap.mpr ⟨mi, hmi, by simp [hm, StateMessage.signedKey]⟩

/-- A precommit the node signed is signed at its height and round, in the step `Precommit`. -/
lemma signedKey_mem_of_precommit {cs : State} {v : Vote} (hv : v ∈ cs.precommits) :
    hrsKey v.height v.round RoundStepType.RoundStepPrecommit.val ∈ cs.signedKeys := by
  obtain ⟨mi, hmi, hp⟩ := List.mem_filterMap.mp hv
  cases hm : mi.Msg with
  | VoteMessage vote =>
    simp only [hm, StateMessage.precommit, Option.ite_none_right_eq_some, Option.some.injEq] at hp
    obtain ⟨ht, rfl⟩ := hp
    simpa [voteStep, ht] using signedKey_mem_of_vote hmi hm
  | ProposalMessage => simp [hm, StateMessage.precommit] at hp
  | BlockPartMessage => simp [hm, StateMessage.precommit] at hp

/-- The prevote a message carries, if it carries one. -/
def StateMessage.prevote : StateMessage → Option Vote
  | .VoteMessage vote => if vote.type = .PrevoteType then some vote else none
  | _ => none

/-- The prevotes the node signed, in the order it sent them. -/
def State.prevotes (cs : State) : List Vote :=
  cs.internalMsgQueue.filterMap fun mi => mi.Msg.prevote

@[simp] lemma prevotes_sendInternalMessage (cs : State) (mi : msgInfo) :
    (cs.sendInternalMessage mi).prevotes = cs.prevotes ++ mi.Msg.prevote.toList := by
  simp only [State.prevotes, State.sendInternalMessage, List.filterMap_append]
  cases h : mi.Msg.prevote <;> simp [h]

/-- A prevote the node signed is signed at its height and round, in the step `Prevote`. -/
lemma signedKey_mem_of_prevote {cs : State} {v : Vote} (hv : v ∈ cs.prevotes) :
    hrsKey v.height v.round RoundStepType.RoundStepPrevote.val ∈ cs.signedKeys := by
  obtain ⟨mi, hmi, hp⟩ := List.mem_filterMap.mp hv
  cases hm : mi.Msg with
  | VoteMessage vote =>
    simp only [hm, StateMessage.prevote, Option.ite_none_right_eq_some, Option.some.injEq] at hp
    obtain ⟨ht, rfl⟩ := hp
    simpa [voteStep, ht] using signedKey_mem_of_vote hmi hm
  | ProposalMessage => simp [hm, StateMessage.prevote] at hp
  | BlockPartMessage => simp [hm, StateMessage.prevote] at hp

/-- The proposal a message carries, if it carries one. -/
def StateMessage.proposal : StateMessage → Option Proposal
  | .ProposalMessage _ proposal => some proposal
  | _ => none

/-- The proposals the node signed, in the order it sent them. -/
def State.proposals (cs : State) : List Tendermint.Proposal :=
  cs.internalMsgQueue.filterMap fun mi => mi.Msg.proposal

@[simp] lemma proposals_sendInternalMessage (cs : State) (mi : msgInfo) :
    (cs.sendInternalMessage mi).proposals = cs.proposals ++ mi.Msg.proposal.toList := by
  simp only [State.proposals, State.sendInternalMessage, List.filterMap_append]
  cases h : mi.Msg.proposal <;> simp [h]

/-- A proposal the node signed is signed at its height and round, in the step `Propose`. -/
lemma signedKey_mem_of_proposal {cs : State} {p : Proposal} (hp : p ∈ cs.proposals) :
    hrsKey p.height p.round RoundStepType.RoundStepPropose.val ∈ cs.signedKeys := by
  obtain ⟨mi, hmi, hq⟩ := List.mem_filterMap.mp hp
  refine List.mem_filterMap.mpr ⟨mi, hmi, ?_⟩
  cases hm : mi.Msg with
  | ProposalMessage t proposal =>
    simp only [hm, StateMessage.proposal, Option.some.injEq] at hq
    simp [StateMessage.signedKey, hq]
  | BlockPartMessage => simp [hm, StateMessage.proposal] at hq
  | VoteMessage => simp [hm, StateMessage.proposal] at hq

/-! ## Polkas, and the blocks they back -/

/-- The polkas of the state's height, round by round: the block, or `nil`, that `+2/3` of the
prevotes of the round are for. -/
def State.polkas (cs : State) : Int → Option BlockID :=
  match cs.Votes with
  | none => fun _ => none
  | some hvs => hvs.prevotePolka

/-- The polka of a round is what `Votes.Prevotes(round).TwoThirdsMajority()` finds. -/
lemma polkas_eq_some_iff {cs : State} {round : Int} {b : BlockID} :
    cs.polkas round = some b ↔
      ∃ prevotes, cs.Prevotes round = .ok (some prevotes) ∧ prevotes.TwoThirdsMajority = some b := by
  unfold State.polkas State.Prevotes
  cases cs.Votes with
  | none => exact iff_of_false (by simp) fun ⟨_, h, _⟩ => nomatch h
  | some hvs => exact HeightVoteSet.prevotePolka_eq_some_iff

/-- A majority the handlers read from the prevotes of a round is that round's polka. -/
lemma polkas_of_Prevotes {cs : State} {round : Int} {prevotes : Option VoteSet} {b : BlockID}
    (hp : cs.Prevotes round = .ok prevotes) (hm : twoThirdsMajority prevotes = some b) :
    cs.polkas round = some b := by
  cases prevotes with
  | none => cases hm
  | some vs => exact polkas_eq_some_iff.mpr ⟨vs, hp, hm⟩

lemma polkas_of_Votes {cs : State} {hvs : HeightVoteSet} (h : cs.Votes = some hvs) :
    cs.polkas = hvs.prevotePolka := by
  unfold State.polkas
  rw [h]

/-- A block kept with a round (the locked block, the valid block) is absent, or is the block of
the polka of that round. -/
def Backed (env : Env) (polkas : Int → Option BlockID) (block : Option Block) (round : Int) :
    Prop :=
  block = none ∨ ∃ blockID, polkas round = some blockID ∧ HashesTo env block blockID.hash = true

lemma Backed.mono {env : Env} {polkas polkas' : Int → Option BlockID} {block : Option Block}
    {round : Int} (h : Backed env polkas block round) (he : Record.Extends polkas polkas') :
    Backed env polkas' block round := by
  rcases h with h | ⟨blockID, hp, hh⟩
  · exact .inl h
  · exact .inr ⟨blockID, he _ _ hp, hh⟩

/-- A proposal that names a POL round proposes the block of the polka of that round, the `+2/3`
prevotes that `isProposalComplete` asks for. -/
def PolBacked (polkas : Int → Option BlockID) (proposal : Proposal) : Prop :=
  0 ≤ proposal.polRound →
    ∃ blockID, polkas proposal.polRound = some blockID ∧ blockID.hash = proposal.blockID.hash

lemma PolBacked.mono {polkas polkas' : Int → Option BlockID} {proposal : Proposal}
    (h : PolBacked polkas proposal) (he : Record.Extends polkas polkas') :
    PolBacked polkas' proposal := by
  intro h0
  obtain ⟨blockID, hp, hh⟩ := h h0
  exact ⟨blockID, he _ _ hp, hh⟩

/-! ## The invariant -/

/-- A block the state keeps with a round (the locked block, the valid block): absent at round
`-1`, or present at a round from `0` up to the current round. -/
def Kept (kept : Bool) (keptRound round : Int) : Prop :=
  (kept = false ∧ keptRound = -1) ∨ (kept = true ∧ 0 ≤ keptRound ∧ keptRound ≤ round)

lemma Kept.mono {kept : Bool} {keptRound round round' : Int} (h : Kept kept keptRound round)
    (hr : round ≤ round') : Kept kept keptRound round' := by
  rcases h with ⟨hk, hkr⟩ | ⟨hk, h0, hkr⟩
  · exact .inl ⟨hk, hkr⟩
  · exact .inr ⟨hk, h0, hkr.trans hr⟩

lemma kept_none (round : Int) : Kept false (-1) round := .inl ⟨rfl, rfl⟩

lemma kept_at {round : Int} (h : 0 ≤ round) : Kept true round round := .inr ⟨rfl, h, le_rfl⟩

/-- A prevote follows the lock of a state: when the state is locked, in a round before the
prevote's, the prevote is for the locked block. -/
def FollowsLock (env : Env) (cs : State) (v : Vote) : Prop :=
  cs.LockedRound < v.round → ∀ block, cs.LockedBlock = some block → v.blockID.hash = env.blockHash block

/-- How the lock may move: it stays, it is released, or it is set in the state's round. -/
def LockStep (cs cs' : State) : Prop :=
  (cs'.LockedBlock = cs.LockedBlock ∧ cs'.LockedRound = cs.LockedRound) ∨ cs'.LockedBlock = none ∨
    cs'.LockedRound = cs.Round

lemma LockStep.refl (cs : State) : LockStep cs cs := .inl ⟨rfl, rfl⟩

lemma LockStep.trans {cs cs' cs'' : State} (h₁ : LockStep cs cs') (h₂ : LockStep cs' cs'')
    (hr : cs'.Round = cs.Round) : LockStep cs cs'' := by
  rcases h₂ with ⟨hb, hr₂⟩ | hn | hr₂
  · unfold LockStep
    rwa [hb, hr₂]
  · exact .inr (.inl hn)
  · exact .inr (.inr (hr₂.trans hr))

/-- A prevote of a round up to the state's follows every lock the state moves to. -/
lemma FollowsLock.of_lockStep {env : Env} {cs cs' : State} {v : Vote} (h : FollowsLock env cs v)
    (hl : LockStep cs cs') (hr : v.round ≤ cs.Round) : FollowsLock env cs' v := by
  rcases hl with ⟨hb, hr'⟩ | hn | hr'
  · unfold FollowsLock
    rwa [hb, hr']
  · intro _ block hb
    rw [hn] at hb
    cases hb
  · intro hlt
    omega

/-- What the invariant reads of the last commit and the vote sets: whether the last commit holds
`+2/3` for a block, the chain's initial height, and whether the height has its vote sets. -/
def State.commitView (cs : State) : Bool × Int × Bool :=
  (cs.LastCommit.any VoteSet.HasTwoThirdsMajority, cs.state.InitialHeight, cs.Votes.isSome)

/-- What the invariant reads of a state. -/
structure View where
  Height : Int
  Round : Int
  Step : RoundStepType
  CommitRound : Int
  LockedBlock : Option Block
  LockedRound : Int
  ValidBlock : Option Block
  ValidRound : Int
  timeouts : List timeoutInfo
  signed : List (Int ×ₗ Int ×ₗ Nat)
  polkas : Int → Option BlockID
  precommits : List Vote
  prevotes : List Vote
  proposals : List Proposal
  commits : Bool × Int × Bool

/-- The view of a state. -/
def State.view (cs : State) : View :=
  ⟨cs.Height, cs.Round, cs.Step, cs.CommitRound, cs.LockedBlock, cs.LockedRound, cs.ValidBlock,
    cs.ValidRound, cs.timeouts, cs.signedKeys, cs.polkas, cs.precommits, cs.prevotes, cs.proposals,
    cs.commitView⟩

/-- The invariant of the states the receive routine reaches. -/
structure Inv (env : Env) (cs : State) : Prop where
  height_pos : 0 < cs.Height
  round_nonneg : 0 ≤ cs.Round
  commitRound_nonneg : cs.Step = .RoundStepCommit → 0 ≤ cs.CommitRound
  locked : Kept cs.LockedBlock.isSome cs.LockedRound cs.Round
  valid : Kept cs.ValidBlock.isSome cs.ValidRound cs.Round
  timeouts_behind : ∀ ti ∈ cs.timeouts,
    ti.Height < cs.Height ∨ ti.Height = cs.Height ∧ ti.Round ≤ cs.Round
  signed_sorted : cs.signedKeys.Pairwise (· < ·)
  signed_behind : ∀ k ∈ cs.signedKeys, k ≤ cs.hrs
  signed_round_nonneg : ∀ k ∈ cs.signedKeys, 0 ≤ keyRound k
  precommit_polka : ∀ v ∈ cs.precommits, v.height = cs.Height → v.blockID.hash ≠ [] →
    cs.polkas v.round = some v.blockID
  proposal_pol : ∀ p ∈ cs.proposals, p.height = cs.Height → PolBacked cs.polkas p
  prevote_lock : ∀ v ∈ cs.prevotes, v.height = cs.Height → FollowsLock env cs v
  locked_backed : Backed env cs.polkas cs.LockedBlock cs.LockedRound
  valid_backed : Backed env cs.polkas cs.ValidBlock cs.ValidRound
  votes_some : cs.Votes.isSome
  lastCommit_maj : cs.Height ≠ cs.state.InitialHeight → cs.LastCommit.any VoteSet.HasTwoThirdsMajority

section Views

variable {env : Env} {cs cs' : State}

lemma height_eq_of_view (h : cs'.view = cs.view) : cs'.Height = cs.Height :=
  congrArg View.Height h

lemma hrs_eq_of_view (h : cs'.view = cs.view) : cs'.hrs = cs.hrs := by
  simp only [State.view, View.mk.injEq] at h
  simp only [State.hrs, h.1, h.2.1, h.2.2.1]

/-- The invariant depends on the view only, and survives polkas added to the height. -/
lemma Inv.extend (hi : Inv env cs) (h : cs'.view = { cs.view with polkas := cs'.polkas })
    (he : Record.Extends cs.polkas cs'.polkas) : Inv env cs' := by
  simp only [State.view, View.mk.injEq] at h
  obtain ⟨hH, hR, hS, hC, hL, hLR, hV, hVR, hT, hK, -, hP, hPv, hQ, hCV⟩ := h
  have hhrs : cs'.hrs = cs.hrs := by simp only [State.hrs, hH, hR, hS]
  simp only [State.commitView, Prod.mk.injEq] at hCV
  obtain ⟨hLC, hIH, hVS⟩ := hCV
  constructor
  · rw [hH]; exact hi.height_pos
  · rw [hR]; exact hi.round_nonneg
  · rw [hS, hC]; exact hi.commitRound_nonneg
  · rw [hL, hLR, hR]; exact hi.locked
  · rw [hV, hVR, hR]; exact hi.valid
  · rw [hT, hH, hR]; exact hi.timeouts_behind
  · rw [hK]; exact hi.signed_sorted
  · rw [hK, hhrs]; exact hi.signed_behind
  · rw [hK]; exact hi.signed_round_nonneg
  · intro v hv hvh hvb
    rw [hP] at hv
    exact he _ _ (hi.precommit_polka v hv (hvh.trans hH) hvb)
  · intro p hp hph
    rw [hQ] at hp
    exact (hi.proposal_pol p hp (hph.trans hH)).mono he
  · intro v hv hvh
    rw [hPv] at hv
    unfold FollowsLock
    rw [hL, hLR]
    exact hi.prevote_lock v hv (hvh.trans hH)
  · rw [hL, hLR]; exact hi.locked_backed.mono he
  · rw [hV, hVR]; exact hi.valid_backed.mono he
  · rw [hVS]; exact hi.votes_some
  · rw [hH, hIH, hLC]; exact hi.lastCommit_maj

lemma Inv.congr (hi : Inv env cs) (h : cs'.view = cs.view) : Inv env cs' := by
  have hp : cs'.polkas = cs.polkas := congrArg View.polkas h
  exact hi.extend (by rw [h, hp]; rfl) (Record.Extends.of_eq hp)

/-- What the node signed, it signed at its height or before. -/
lemma Inv.height_le_of_signed (hi : Inv env cs) {h r : Int} {s : Nat}
    (hk : hrsKey h r s ∈ cs.signedKeys) : h ≤ cs.Height := by
  have hle := hi.signed_behind _ hk
  simp only [State.hrs, hrsKey_le_hrsKey] at hle
  omega

/-- What the node signed at its height, it signed in its round or before. -/
lemma Inv.round_le_of_signed (hi : Inv env cs) {r : Int} {s : Nat}
    (hk : hrsKey cs.Height r s ∈ cs.signedKeys) : r ≤ cs.Round := by
  have hle := hi.signed_behind _ hk
  simp only [State.hrs, hrsKey_le_hrsKey] at hle
  omega

/-- The prevotes of the height follow every lock the state moves to. -/
lemma Inv.followsLock_of_lockStep (hi : Inv env cs) (hl : LockStep cs cs') :
    ∀ v ∈ cs.prevotes, v.height = cs.Height → FollowsLock env cs' v := by
  intro v hv hvh
  have hk := signedKey_mem_of_prevote hv
  rw [hvh] at hk
  exact (hi.prevote_lock v hv hvh).of_lockStep hl (hi.round_le_of_signed hk)

end Views

/-! ## Progress, and what the parts of a transition do -/

/-- `cs'` keeps the invariant, its round state is not behind that of `cs`, and its height is at
most the next one. -/
structure Progress (env : Env) (cs cs' : State) : Prop where
  inv : Inv env cs'
  le : cs.hrs ≤ cs'.hrs
  height_le : cs'.Height ≤ cs.Height + 1

/-- Progress within the height of `cs`. -/
structure Within (env : Env) (cs cs' : State) : Prop where
  inv : Inv env cs'
  le : cs.hrs ≤ cs'.hrs
  height : cs'.Height = cs.Height

/-- What the work of an `enter*` function does before its deferred update moves the state to
`round` and `step`: the round state and the polkas stay, the locked and valid blocks keep their
invariant, the timeouts it schedules are of this height and not beyond `round`, and it signs at
most one message, ahead of the round state it starts from and not ahead of the one it moves to;
a precommit it signs for a block is for the block of a polka, and a proposal it signs with a POL
round is for the block of that round's polka.  The lock stays, is released or is set in the
round, and a prevote it signs is of the round and follows the lock. -/
structure Body (env : Env) (cs cs' : State) (round : Int) (step : RoundStepType) : Prop where
  height : cs'.Height = cs.Height
  round_eq : cs'.Round = cs.Round
  step_eq : cs'.Step = cs.Step
  locked : 0 ≤ cs.Round → Kept cs.LockedBlock.isSome cs.LockedRound cs.Round →
    Kept cs'.LockedBlock.isSome cs'.LockedRound cs.Round
  valid : 0 ≤ cs.Round → Kept cs.ValidBlock.isSome cs.ValidRound cs.Round →
    Kept cs'.ValidBlock.isSome cs'.ValidRound cs.Round
  timeouts : ∀ ti ∈ cs'.timeouts, ti ∈ cs.timeouts ∨ ti.Height = cs.Height ∧ ti.Round ≤ round
  signed : cs'.signedKeys = cs.signedKeys ∨
    ∃ k, cs'.signedKeys = cs.signedKeys ++ [k] ∧ cs.hrs < k ∧ k ≤ hrsKey cs.Height round step.val
  polkas : cs'.polkas = cs.polkas
  locked_backed : Backed env cs.polkas cs.LockedBlock cs.LockedRound →
    Backed env cs.polkas cs'.LockedBlock cs'.LockedRound
  valid_backed : Backed env cs.polkas cs.ValidBlock cs.ValidRound →
    Backed env cs.polkas cs'.ValidBlock cs'.ValidRound
  precommits : ∀ v ∈ cs'.precommits, v ∈ cs.precommits ∨
    (v.blockID.hash ≠ [] → cs.polkas v.round = some v.blockID)
  proposals : ∀ p ∈ cs'.proposals, p ∈ cs.proposals ∨ PolBacked cs.polkas p
  lock : LockStep cs cs'
  prevotes : ∀ v ∈ cs'.prevotes, v ∈ cs.prevotes ∨ (v.round = cs.Round ∧ FollowsLock env cs' v)
  commitView : cs'.commitView = cs.commitView

section Parts

variable {env : Env} {cs cs' cs'' : State} {round : Int} {step : RoundStepType}

lemma Within.toProgress (hw : Within env cs cs') : Progress env cs cs' :=
  ⟨hw.inv, hw.le, hw.height ▸ Int.le_add_one le_rfl⟩

/-- Progress that starts within the height: it reaches at most the next one. -/
lemma Within.trans_progress (h₁ : Within env cs cs') (h₂ : Progress env cs' cs'') : Progress env cs cs'' :=
  ⟨h₂.inv, h₁.le.trans h₂.le, h₁.height ▸ h₂.height_le⟩

lemma Progress.trans_within (h₁ : Progress env cs cs') (h₂ : Within env cs' cs'') : Progress env cs cs'' :=
  ⟨h₂.inv, h₁.le.trans h₂.le, h₂.height ▸ h₁.height_le⟩

lemma Within.refl (hi : Inv env cs) : Within env cs cs := ⟨hi, le_rfl, rfl⟩

lemma Within.trans (h₁ : Within env cs cs') (h₂ : Within env cs' cs'') : Within env cs cs'' :=
  ⟨h₂.inv, h₁.le.trans h₂.le, h₂.height.trans h₁.height⟩

lemma Within.of_view (hi : Inv env cs) (h : cs'.view = cs.view) : Within env cs cs' :=
  ⟨hi.congr h, (hrs_eq_of_view h).ge, height_eq_of_view h⟩

/-- A state that differs from one with the invariant only by polkas added to its height. -/
lemma Within.of_extend (hi : Inv env cs) (h : cs'.view = { cs.view with polkas := cs'.polkas })
    (he : Record.Extends cs.polkas cs'.polkas) : Within env cs cs' := by
  have hH : cs'.Height = cs.Height := congrArg View.Height h
  have hR : cs'.Round = cs.Round := congrArg View.Round h
  have hS : cs'.Step = cs.Step := congrArg View.Step h
  have hhrs : cs'.hrs = cs.hrs := by simp only [State.hrs, hH, hR, hS]
  exact ⟨hi.extend h he, hhrs.ge, hH⟩

/-- A new last commit that has `+2/3` whenever the old one had. -/
lemma Within.setLastCommit (hi : Inv env cs) {lastCommit : VoteSet}
    (h : cs.LastCommit.any VoteSet.HasTwoThirdsMajority → lastCommit.HasTwoThirdsMajority) :
    Within env cs { cs with LastCommit := some lastCommit } :=
  ⟨{ hi with lastCommit_maj := fun hne => h (hi.lastCommit_maj hne) }, le_rfl, rfl⟩

lemma Within.trans_view (hw : Within env cs cs') (h : cs''.view = cs'.view) : Within env cs cs'' :=
  hw.trans (Within.of_view hw.inv h)

/-- Within a height, the round does not go back. -/
lemma Within.round_le (hw : Within env cs cs') : cs.Round ≤ cs'.Round := by
  have hle := hw.le
  simp only [State.hrs, hrsKey_le_hrsKey, hw.height] at hle
  omega

lemma Body.of_view (h : cs'.view = cs.view) : Body env cs cs' round step := by
  simp only [State.view, View.mk.injEq] at h
  obtain ⟨hH, hR, hS, hC, hL, hLR, hV, hVR, hT, hK, hP, hPc, hPv, hQ, hCV⟩ := h
  refine ⟨hH, hR, hS, ?_, ?_, ?_, .inl hK, hP, ?_, ?_, fun v hv => .inl (hPc ▸ hv),
    fun p hp => .inl (hQ ▸ hp), .inl ⟨hL, hLR⟩, fun v hv => .inl (hPv ▸ hv), hCV⟩
  · intro _ hk
    rwa [hL, hLR]
  · intro _ hk
    rwa [hV, hVR]
  · intro ti hti
    rw [hT] at hti
    exact .inl hti
  · rw [hL, hLR]
    exact id
  · rw [hV, hVR]
    exact id

/-- Two parts of a body, of which at most one signs. -/
lemma Body.trans (h₁ : Body env cs cs' round step) (h₂ : Body env cs' cs'' round step)
    (hk : cs'.signedKeys = cs.signedKeys ∨ cs''.signedKeys = cs'.signedKeys) :
    Body env cs cs'' round step := by
  have hhrs : cs'.hrs = cs.hrs := by simp only [State.hrs, h₁.height, h₁.round_eq, h₁.step_eq]
  refine ⟨h₂.height.trans h₁.height, h₂.round_eq.trans h₁.round_eq, h₂.step_eq.trans h₁.step_eq,
    ?_, ?_, ?_, ?_, h₂.polkas.trans h₁.polkas, ?_, ?_, ?_, ?_, h₁.lock.trans h₂.lock h₁.round_eq,
    ?_, h₂.commitView.trans h₁.commitView⟩
  · intro h0 hk
    have := h₂.locked (h₁.round_eq ▸ h0) (h₁.round_eq ▸ h₁.locked h0 hk)
    rwa [h₁.round_eq] at this
  · intro h0 hk
    have := h₂.valid (h₁.round_eq ▸ h0) (h₁.round_eq ▸ h₁.valid h0 hk)
    rwa [h₁.round_eq] at this
  · intro ti hti
    rcases h₂.timeouts ti hti with hti' | ⟨hh, hr⟩
    · exact h₁.timeouts ti hti'
    · exact .inr ⟨hh.trans h₁.height, hr⟩
  · rcases hk with hk | hk
    · rw [← hk, ← hhrs, ← h₁.height]
      exact h₂.signed
    · rw [hk]
      exact h₁.signed
  · intro hb
    have := h₂.locked_backed (h₁.polkas ▸ h₁.locked_backed hb)
    rwa [h₁.polkas] at this
  · intro hb
    have := h₂.valid_backed (h₁.polkas ▸ h₁.valid_backed hb)
    rwa [h₁.polkas] at this
  · intro v hv
    rcases h₂.precommits v hv with hv' | hpol
    · exact h₁.precommits v hv'
    · exact .inr (h₁.polkas ▸ hpol)
  · intro p hp
    rcases h₂.proposals p hp with hp' | hpol
    · exact h₁.proposals p hp'
    · exact .inr (h₁.polkas ▸ hpol)
  · -- a prevote of the first part follows the lock the second part moves to
    intro v hv
    rcases h₂.prevotes v hv with hv' | ⟨hr, hf⟩
    · rcases h₁.prevotes v hv' with hv'' | ⟨hr, hf⟩
      · exact .inl hv''
      · exact .inr ⟨hr, hf.of_lockStep h₂.lock (hr.trans h₁.round_eq.symm).le⟩
    · exact .inr ⟨hr.trans h₁.round_eq, hf⟩

/-- A part that leaves the view alone, then a body. -/
lemma Body.view_trans' (h : cs'.view = cs.view) (hb : Body env cs' cs'' round step) :
    Body env cs cs'' round step := by
  have hhrs := hrs_eq_of_view h
  simp only [State.view, View.mk.injEq] at h
  obtain ⟨hH, hR, hS, hC, hL, hLR, hV, hVR, hT, hK, hP, hPc, hPv, hQ, hCV⟩ := h
  refine ⟨hb.height.trans hH, hb.round_eq.trans hR, hb.step_eq.trans hS, ?_, ?_, ?_, ?_,
    hb.polkas.trans hP, ?_, ?_, ?_, ?_, LockStep.trans (.inl ⟨hL, hLR⟩) hb.lock hR, ?_,
    hb.commitView.trans hCV⟩
  · intro h0 hk
    rw [← hR] at h0 ⊢
    exact hb.locked h0 (by rwa [hL, hLR, hR])
  · intro h0 hk
    rw [← hR] at h0 ⊢
    exact hb.valid h0 (by rwa [hV, hVR, hR])
  · intro ti hti
    rcases hb.timeouts ti hti with hti' | ⟨hh, hr⟩
    · exact .inl (hT ▸ hti')
    · exact .inr ⟨hh.trans hH, hr⟩
  · rw [← hK, ← hhrs, ← hH]
    exact hb.signed
  · intro hback
    rw [← hP]
    exact hb.locked_backed (by rwa [hP, hL, hLR])
  · intro hback
    rw [← hP]
    exact hb.valid_backed (by rwa [hP, hV, hVR])
  · intro v hv
    rcases hb.precommits v hv with hv' | hpol
    · exact .inl (hPc ▸ hv')
    · exact .inr (hP ▸ hpol)
  · intro p hp
    rcases hb.proposals p hp with hp' | hpol
    · exact .inl (hQ ▸ hp')
    · exact .inr (hP ▸ hpol)
  · intro v hv
    rcases hb.prevotes v hv with hv' | ⟨hr, hf⟩
    · exact .inl (hPv ▸ hv')
    · exact .inr ⟨hr.trans hR, hf⟩

/-- An `enter*` function: its work, then the move to a round state ahead of the one it started
from, keeps the invariant within the height. -/
lemma Inv.enter (hi : Inv env cs) (hb : Body env cs cs' round step)
    (hlt : cs.hrs < hrsKey cs.Height round step.val)
    (hc : step = .RoundStepCommit → 0 ≤ cs'.CommitRound) :
    Within env cs (cs'.updateRoundStep round step) := by
  have hR : cs.Round ≤ round := by
    simp only [State.hrs, hrsKey_lt_hrsKey] at hlt
    omega
  have hhrs : (cs'.updateRoundStep round step).hrs = hrsKey cs.Height round step.val := by
    simp only [State.hrs, State.updateRoundStep, hb.height]
  have hbehind : ∀ k ∈ cs.signedKeys, k ≤ (cs'.updateRoundStep round step).hrs := fun k hk =>
    (hi.signed_behind k hk).trans (hhrs ▸ hlt.le)
  -- the polkas stay: a precommit signed before keeps its polka, the body's gets one
  have hP : (cs'.updateRoundStep round step).polkas = cs.polkas := hb.polkas
  have hprec : ∀ v ∈ cs'.precommits, v.height = cs.Height → v.blockID.hash ≠ [] →
      cs.polkas v.round = some v.blockID := by
    intro v hv hvh hvb
    rcases hb.precommits v hv with hv' | hpol
    · exact hi.precommit_polka v hv' hvh hvb
    · exact hpol hvb
  have hprop : ∀ p ∈ cs'.proposals, p.height = cs.Height → PolBacked cs.polkas p := by
    intro p hp hph
    rcases hb.proposals p hp with hp' | hpol
    · exact hi.proposal_pol p hp' hph
    · exact hpol
  -- a prevote signed before follows the lock the body moves to, and the body's follows it too
  have hprev : ∀ v ∈ cs'.prevotes, v.height = cs.Height → FollowsLock env cs' v := by
    intro v hv hvh
    rcases hb.prevotes v hv with hv' | ⟨-, hf⟩
    · exact hi.followsLock_of_lockStep hb.lock v hv' hvh
    · exact hf
  -- the last commit and the vote sets stay
  have hCV : (cs'.updateRoundStep round step).commitView = cs.commitView := hb.commitView
  simp only [State.commitView, Prod.mk.injEq] at hCV
  obtain ⟨hLC, hIH, hVS⟩ := hCV
  have hH : (cs'.updateRoundStep round step).Height = cs.Height := hb.height
  refine ⟨⟨?_, ?_, ?_, ?_, ?_, ?_, ?_, ?_, ?_,
    fun v hv hvh hvb => hP ▸ hprec v hv (hvh.trans hb.height) hvb,
    fun p hp hph => hP ▸ hprop p hp (hph.trans hb.height),
    fun v hv hvh => hprev v hv (hvh.trans hb.height),
    by rw [hP]; exact hb.locked_backed hi.locked_backed,
    by rw [hP]; exact hb.valid_backed hi.valid_backed,
    by rw [hVS]; exact hi.votes_some,
    fun hne => by rw [hLC]; exact hi.lastCommit_maj (by rwa [hIH, hH] at hne)⟩,
    hhrs ▸ hlt.le, hb.height⟩
  · simpa [State.updateRoundStep, hb.height] using hi.height_pos
  · exact hi.round_nonneg.trans hR
  · exact hc
  · exact (hb.locked hi.round_nonneg hi.locked).mono hR
  · exact (hb.valid hi.round_nonneg hi.valid).mono hR
  · intro ti hti
    simp only [State.updateRoundStep, hb.height]
    rcases hb.timeouts ti hti with hti' | ⟨hh, hr⟩
    · have := hi.timeouts_behind ti hti'
      omega
    · exact .inr ⟨hh, hr⟩
  -- the signed keys: what was signed before is behind `cs`, what the body signed is ahead of it
  all_goals rcases hb.signed with hk | ⟨k, hk, hklt, hkle⟩
  · exact (hk ▸ hi.signed_sorted :)
  · change (cs'.signedKeys).Pairwise _
    rw [hk, List.pairwise_append]
    exact ⟨hi.signed_sorted, List.pairwise_singleton _ _, fun a ha b hb' => by
      rw [List.mem_singleton.mp hb']
      exact lt_of_le_of_lt (hi.signed_behind a ha) hklt⟩
  · exact fun k' hk' => hbehind k' (hk ▸ hk' :)
  · intro k' hk'
    change k' ∈ cs'.signedKeys at hk'
    rw [hk, List.mem_append, List.mem_singleton] at hk'
    rcases hk' with hk' | rfl
    · exact hbehind k' hk'
    · exact hhrs ▸ hkle
  · exact fun k' hk' => hi.signed_round_nonneg k' (hk ▸ hk' :)
  · intro k' hk'
    change k' ∈ cs'.signedKeys at hk'
    rw [hk, List.mem_append, List.mem_singleton] at hk'
    rcases hk' with hk' | rfl
    · exact hi.signed_round_nonneg k' hk'
    · exact hi.round_nonneg.trans (round_le_keyRound hklt hkle)

/-- A timeout of the state's own height, not beyond its round, keeps the invariant. -/
lemma Inv.scheduleTimeout (hi : Inv env cs) {height : Int} (hh : height = cs.Height)
    (hr : round ≤ cs.Round) : Inv env (cs.scheduleTimeout height round step) :=
  { hi with
    timeouts_behind := by
      intro ti hti
      rcases List.mem_append.mp hti with hti | hti
      · exact hi.timeouts_behind ti hti
      · rw [List.mem_singleton.mp hti]
        exact .inr ⟨hh, hr⟩ }

lemma Within.scheduleTimeout (hi : Inv env cs) {height : Int} (hh : height = cs.Height)
    (hr : round ≤ cs.Round) : Within env cs (cs.scheduleTimeout height round step) :=
  ⟨hi.scheduleTimeout hh hr, le_rfl, rfl⟩

end Parts

/-! ## Sending, signing and the locks -/

section Signing

variable (env : Env) (now : Time) {cs cs' : State} {round : Int} {step : RoundStepType}

/-- A block part is not signed, and is neither a vote nor a proposal. -/
lemma view_sendInternalMessage {mi : msgInfo} (hk : mi.Msg.signedKey = none) :
    (cs.sendInternalMessage mi).view = cs.view := by
  have hp : mi.Msg.precommit = none := by
    cases hm : mi.Msg <;> simp_all [StateMessage.signedKey, StateMessage.precommit]
  have hq : mi.Msg.proposal = none := by
    cases hm : mi.Msg <;> simp_all [StateMessage.signedKey, StateMessage.proposal]
  have hv : mi.Msg.prevote = none := by
    cases hm : mi.Msg <;> simp_all [StateMessage.signedKey, StateMessage.prevote]
  simp only [State.view, signedKeys_sendInternalMessage, precommits_sendInternalMessage,
    prevotes_sendInternalMessage, proposals_sendInternalMessage, hk, hp, hv, hq,
    Option.toList_none, List.append_nil]
  rfl

omit now in
variable {env} in
/-- Sending a signed message of a key ahead of the round state, and not ahead of the one the
function moves to; a precommit for a block must be for the block of a polka, a proposal with a
POL round for the block of that round's polka, and a prevote of the round must follow the
lock. -/
lemma body_sendInternalMessage {mi : msgInfo} {k : Int ×ₗ Int ×ₗ Nat}
    (hk : mi.Msg.signedKey = some k) (hlt : cs.hrs < k) (hle : k ≤ hrsKey cs.Height round step.val)
    (hp : ∀ v, mi.Msg.precommit = some v → v.blockID.hash ≠ [] →
      cs.polkas v.round = some v.blockID)
    (hq : ∀ p, mi.Msg.proposal = some p → PolBacked cs.polkas p)
    (hv : ∀ v, mi.Msg.prevote = some v → v.round = cs.Round ∧ FollowsLock env cs v) :
    Body env cs (cs.sendInternalMessage mi) round step := by
  refine ⟨rfl, rfl, rfl, fun _ h => h, fun _ h => h, fun _ hti => .inl hti,
    .inr ⟨k, by simp [hk], hlt, hle⟩, rfl, id, id, fun v hv => ?_, fun p hp' => ?_,
    LockStep.refl cs, fun v hv' => ?_, rfl⟩
  · rw [precommits_sendInternalMessage, List.mem_append, Option.mem_toList] at hv
    rcases hv with hv | hv
    · exact .inl hv
    · exact .inr (hp v hv)
  · rw [proposals_sendInternalMessage, List.mem_append, Option.mem_toList] at hp'
    rcases hp' with hp' | hp'
    · exact .inl hp'
    · exact .inr (hq p hp')
  · rw [prevotes_sendInternalMessage, List.mem_append, Option.mem_toList] at hv'
    rcases hv' with hv' | hv'
    · exact .inl hv'
    · exact .inr (hv v hv')

omit now in
variable {env} in
lemma body_scheduleTimeout {height round' : Int} {step' : RoundStepType} (hh : height = cs.Height)
    (hr : round' ≤ round) : Body env cs (cs.scheduleTimeout height round' step') round step := by
  refine ⟨rfl, rfl, rfl, fun _ h => h, fun _ h => h, ?_, .inl rfl, rfl, id, id,
    fun _ hv => .inl hv, fun _ hp => .inl hp, LockStep.refl cs, fun _ hv => .inl hv, rfl⟩
  intro ti hti
  rcases List.mem_append.mp hti with hti | hti
  · exact .inl hti
  · rw [List.mem_singleton.mp hti]
    exact .inr ⟨hh, hr⟩

omit now in
variable {env} in
/-- Setting the locked block to one kept at the state's round and backed by a polka of its
round, or to none. -/
lemma body_setLock {block : Option Block} {parts : Option PartSet} {lockedRound : Int}
    (hk : 0 ≤ cs.Round → Kept block.isSome lockedRound cs.Round)
    (hb : Backed env cs.polkas block lockedRound) (hl : block = none ∨ lockedRound = cs.Round) :
    Body env cs { cs with LockedRound := lockedRound, LockedBlock := block, LockedBlockParts := parts }
      round step :=
  ⟨rfl, rfl, rfl, fun h0 _ => hk h0, fun _ h => h, fun _ hti => .inl hti, .inl rfl, rfl,
    fun _ => hb, id, fun _ hv => .inl hv, fun _ hp => .inl hp, .inr hl, fun _ hv => .inl hv, rfl⟩

omit now in
variable {env} in
lemma Inv.setValid (hi : Inv env cs) {block : Option Block} {parts : Option PartSet} {validRound : Int}
    (hk : Kept block.isSome validRound cs.Round) (hb : Backed env cs.polkas block validRound) :
    Inv env { cs with ValidRound := validRound, ValidBlock := block, ValidBlockParts := parts } :=
  { hi with valid := hk, valid_backed := hb }

omit now in
variable {env} in
lemma Inv.setLock (hi : Inv env cs) {block : Option Block} {parts : Option PartSet} {lockedRound : Int}
    (hk : Kept block.isSome lockedRound cs.Round) (hb : Backed env cs.polkas block lockedRound)
    (hl : block = none ∨ lockedRound = cs.Round) :
    Inv env { cs with LockedRound := lockedRound, LockedBlock := block, LockedBlockParts := parts } :=
  { hi with
    locked := hk
    locked_backed := hb
    prevote_lock := hi.followsLock_of_lockStep (.inr hl) }

lemma isSome_of_HashesTo {block : Option Block} {hash : Bytes} (h : HashesTo env block hash = true) :
    block.isSome = true := by
  unfold HashesTo at h
  split_ifs at h
  cases block
  · cases h
  · rfl

lemma blockHash_eq_of_HashesTo {block : Block} {hash : Bytes}
    (h : HashesTo env (some block) hash = true) : env.blockHash block = hash := by
  unfold HashesTo at h
  split_ifs at h
  exact beq_iff_eq.mp h

/-- The vote `signVote` makes is of the state's height and round, for the block given. -/
lemma signVote_fields {pv : PrivValidator} {type : SignedMsgType} {hash : Bytes}
    {header : PartSetHeader} {vote : Vote} (h : cs.signVote env now pv type hash header = .ok vote) :
    vote.height = cs.Height ∧ vote.round = cs.Round ∧ vote.type = type ∧
      vote.blockID = ⟨hash, header⟩ := by
  unfold State.signVote at h
  split at h
  · cases h
  · obtain ⟨sig, -, h⟩ := bind_eq_ok h
    cases h
    exact ⟨rfl, rfl, rfl, rfl⟩

/-- `signAddVote` signs at most one vote, of the state's height and round; called on entering
the step that signs votes of its type, that vote is ahead of the round state.  A precommit for a
block is signed only for the block of the round's polka. -/
lemma body_signAddVote {type : SignedMsgType} (ht : voteStep type = step) (hs : cs.Step < step)
    (hash : Bytes) (header : PartSetHeader)
    (hp : type = .PrecommitType → hash ≠ [] → cs.polkas cs.Round = some ⟨hash, header⟩)
    (hl : type = .PrevoteType → ∀ block, cs.LockedBlock = some block → hash = env.blockHash block) :
    Body env cs (cs.signAddVote env now type hash header) cs.Round step := by
  have hlt : cs.hrs < hrsKey cs.Height cs.Round step.val := by
    simpa [State.hrs] using hs
  unfold State.signAddVote
  split
  · split_ifs
    · exact Body.of_view rfl
    · split
      · rename_i vote hvote
        obtain ⟨hh, hr, htype, hid⟩ := signVote_fields env now hvote
        refine body_sendInternalMessage (k := hrsKey cs.Height cs.Round step.val) ?_ hlt le_rfl ?_
          (fun _ hq => by cases hq) ?_
        · simp [StateMessage.signedKey, hh, hr, htype, ht]
        · -- the vote is the precommit, for the block given
          intro v hv hvb
          simp only [StateMessage.precommit, Option.ite_none_right_eq_some, Option.some.injEq] at hv
          obtain ⟨hvt, rfl⟩ := hv
          rw [hid] at hvb
          rw [hr, hid]
          exact hp (htype ▸ hvt) hvb
        · -- the vote is the prevote, for the block given
          intro v hv
          simp only [StateMessage.prevote, Option.ite_none_right_eq_some, Option.some.injEq] at hv
          obtain ⟨hvt, rfl⟩ := hv
          refine ⟨hr, fun _ block hb => ?_⟩
          rw [hid]
          exact hl (htype ▸ hvt) block hb
      · exact Body.of_view rfl
  · exact Body.of_view rfl

/-- `defaultDoPrevote` signs at most one prevote: for the locked block, the proposal block or
`nil`. -/
lemma body_defaultDoPrevote (hs : cs.Step < .RoundStepPrevote) :
    Body env cs (cs.defaultDoPrevote env now) cs.Round .RoundStepPrevote := by
  have hsign : ∀ hash header, (∀ block, cs.LockedBlock = some block → hash = env.blockHash block) →
      Body env cs (cs.signAddVote env now .PrevoteType hash header) cs.Round .RoundStepPrevote :=
    fun hash header hl => body_signAddVote env now (by simp [voteStep]) hs hash header
      (fun ht => nomatch ht) fun _ => hl
  unfold State.defaultDoPrevote
  split
  · -- locked: the prevote is for the locked block
    rename_i b hb
    refine hsign _ _ fun block hb' => ?_
    rw [hb, Option.some.injEq] at hb'
    rw [hb']
  · -- not locked: the lock asks nothing of the prevote
    rename_i hb
    have hfree : ∀ hash, ∀ block, cs.LockedBlock = some block → hash = env.blockHash block :=
      fun _ block hb' => by simp [hb] at hb'
    split
    · exact hsign _ _ (hfree _)
    · split <;> exact hsign _ _ (hfree _)

omit env in
/-- Sending the parts of the proposal block signs nothing. -/
lemma view_sendParts (parts : List Part) (cs : State) :
    (parts.foldl (fun cs part =>
      cs.sendInternalMessage ⟨.BlockPartMessage cs.Height cs.Round part, ""⟩) cs).view = cs.view := by
  induction parts generalizing cs with
  | nil => rfl
  | cons part parts ih =>
    rw [List.foldl_cons, ih]
    exact view_sendInternalMessage rfl

/-- The proposal of `defaultDecideProposal` names the valid round as its POL round: a POL round
means a valid block, backed by the polka of that round, and the block proposed is then the valid
block. -/
lemma polBacked_NewProposal {block : Block} {header : PartSetHeader} {height : Int} {sig : Bytes}
    (hk : Kept cs.ValidBlock.isSome cs.ValidRound cs.Round)
    (hb : Backed env cs.polkas cs.ValidBlock cs.ValidRound)
    (hvalid : ∀ b, cs.ValidBlock = some b → block = b) :
    PolBacked cs.polkas
      { NewProposal height round cs.ValidRound ⟨env.blockHash block, header⟩ now with
        signature := sig } := by
  intro h0
  change 0 ≤ cs.ValidRound at h0
  rcases hb with hnone | ⟨blockID, hp, hhash⟩
  · -- no valid block: the valid round is `-1`
    rcases hk with ⟨-, hr⟩ | ⟨hs, -⟩
    · omega
    · simp [hnone] at hs
  · obtain ⟨b, hv⟩ := Option.isSome_iff_exists.mp (isSome_of_HashesTo env hhash)
    rw [hv] at hhash
    refine ⟨blockID, hp, ?_⟩
    change blockID.hash = env.blockHash block
    rw [hvalid b hv, blockHash_eq_of_HashesTo env hhash]

/-- `defaultDecideProposal` signs at most one proposal, of the height and round it is given,
with the valid round as its POL round. -/
lemma body_defaultDecideProposal {height : Int}
    (h : cs.defaultDecideProposal env now height round = .ok cs') (hh : height = cs.Height)
    (hlt : cs.hrs < hrsKey cs.Height round RoundStepType.RoundStepPropose.val)
    (hk : Kept cs.ValidBlock.isSome cs.ValidRound cs.Round)
    (hb : Backed env cs.polkas cs.ValidBlock cs.ValidRound) :
    Body env cs cs' round .RoundStepPropose := by
  subst hh
  unfold State.defaultDecideProposal at h
  obtain ⟨choice, hchoice, h⟩ := bind_eq_ok h
  -- nothing to propose, no signer, or a signer that refuses: nothing is sent
  rcases choice with _ | ⟨block, blockParts⟩
  · cases h
    exact Body.of_view rfl
  -- the valid block, when there is one, is the block proposed
  have hvalid : ∀ b, cs.ValidBlock = some b → block = b := by
    intro b hv
    rw [hv] at hchoice
    cases hchoice
    rfl
  cases hpv : cs.privValidator with
  | none =>
    simp only [hpv] at h
    cases h
  | some pv =>
    simp only [hpv] at h
    split at h
    · cases h
      exact Body.of_view rfl
    · cases h
      refine Body.trans (body_sendInternalMessage rfl hlt le_rfl (fun _ hv => by cases hv) ?_
          fun _ hv => by cases hv)
        (Body.of_view (view_sendParts _ _)) (.inr (congrArg View.signed (view_sendParts _ _)))
      intro p hp
      cases hp
      exact polBacked_NewProposal env now hk hb hvalid

/-- The work of `enterPropose`: its timeout, and the proposal if this node proposes. -/
lemma body_proposeBody {height : Int} (h : cs.proposeBody env now height round = .ok cs')
    (hh : height = cs.Height)
    (hlt : cs.hrs < hrsKey cs.Height round RoundStepType.RoundStepPropose.val)
    (hvk : Kept cs.ValidBlock.isSome cs.ValidRound cs.Round)
    (hvb : Backed env cs.polkas cs.ValidBlock cs.ValidRound) :
    Body env cs cs' round .RoundStepPropose := by
  have hb : Body env cs (cs.scheduleTimeout height round .RoundStepPropose) round .RoundStepPropose :=
    body_scheduleTimeout hh le_rfl
  unfold State.proposeBody at h
  dsimp only at h
  split at h
  · split_ifs at h
    · cases h
      exact hb
    · obtain ⟨⟨proposer, vals⟩, -, h⟩ := bind_eq_ok h
      split at h
      · cases h
      · split_ifs at h
        · have hd := body_defaultDecideProposal env now h hh hlt hvk hvb
          exact hb.trans (Body.view_trans' (by rfl) hd) (.inl rfl)
        · cases h
          exact hb.trans (Body.of_view rfl) (.inr rfl)
  · cases h
    exact hb

end Signing

/-! ## Entering the steps of a round -/

/-- The guard of the `enter*` functions lets a call through exactly when it is for the state's
height and a round state ahead of the state's. -/
lemma enter_guard_iff {cs : State} {height round : Int} {step : RoundStepType} :
    ¬(cs.Height ≠ height ∨ round < cs.Round ∨ (cs.Round = round ∧ step ≤ cs.Step)) ↔
      cs.Height = height ∧ cs.hrs < hrsKey height round step.val := by
  simp only [State.hrs, hrsKey_lt_hrsKey, RoundStepType.le_iff]
  omega

/-- `enterNewRound` asks the step to be `NewHeight` when the round is the state's own. -/
lemma ne_newHeight_iff {step : RoundStepType} :
    step ≠ .RoundStepNewHeight ↔ .RoundStepNewRound ≤ step := by
  cases step <;> decide

section Enter

variable (env : Env) (now : Time) {cs cs' : State} {height round : Int}

/-- A call for the state's height that passes the guard of an `enter*` function, for a round
not beyond the state's, is for the state's round. -/
lemma round_eq_of_guard {step : RoundStepType} (hr : cs.Height = height → round ≤ cs.Round)
    (hg : cs.Height = height ∧ cs.hrs < hrsKey height round step.val) :
    round = cs.Round ∧ cs.Step < step := by
  obtain ⟨hh, hlt⟩ := hg
  have hr' := hr hh
  simp only [State.hrs, hrsKey_lt_hrsKey] at hlt
  exact ⟨by omega, by rw [RoundStepType.lt_iff]; omega⟩

/-- `enterPrevote`, called for the state's own round, prevotes at most once and moves to
`Prevote`. -/
lemma within_enterPrevote (height round : Int) (hi : Inv env cs)
    (hr : cs.Height = height → round ≤ cs.Round) :
    Within env cs (cs.enterPrevote env now height round) := by
  unfold State.enterPrevote
  split_ifs with hg
  · exact Within.refl hi
  · have hg := enter_guard_iff.mp hg
    obtain ⟨rfl, hs⟩ := round_eq_of_guard hr hg
    exact hi.enter (body_defaultDoPrevote env now hs) (hg.1 ▸ hg.2) (by simp)

/-- The work of `enterPrecommit`, for the state's own round: the lock is set, renewed or
released, and at most one precommit is signed. -/
lemma body_precommitBody (hs : cs.Step < .RoundStepPrecommit)
    (h : cs.precommitBody env now cs.Round = .ok cs') :
    Body env cs cs' cs.Round .RoundStepPrecommit := by
  -- a precommit for `nil` needs no polka, one for a block needs the polka of the round
  have hsign : ∀ {c : State} (hash header), c.Step < .RoundStepPrecommit →
      (hash ≠ [] → c.polkas c.Round = some ⟨hash, header⟩) →
      Body env c (c.signAddVote env now .PrecommitType hash header) c.Round .RoundStepPrecommit :=
    fun hash header hc hp => body_signAddVote env now (by simp [voteStep]) hc hash header
      (fun _ => hp) fun ht => nomatch ht
  have hnil : ∀ {c : State}, c.Step < .RoundStepPrecommit →
      Body env c (c.signAddVote env now .PrecommitType [] ⟨0, []⟩) c.Round .RoundStepPrecommit :=
    fun hc => hsign _ _ hc fun h => absurd rfl h
  have hunlock : Body env cs { cs with LockedRound := -1, LockedBlock := none, LockedBlockParts := none }
      cs.Round .RoundStepPrecommit := body_setLock (fun _ => kept_none _) (.inl rfl) (.inl rfl)
  unfold State.precommitBody at h
  obtain ⟨prevotes, hprevotes, h⟩ := bind_eq_ok h
  split at h
  · -- no polka: precommit `nil`
    cases h
    exact hnil hs
  rename_i blockID hmaj
  have hpolka : cs.polkas cs.Round = some blockID := polkas_of_Prevotes hprevotes hmaj
  obtain ⟨⟨polRound, _⟩, -, h⟩ := bind_eq_ok h
  dsimp only at h
  split at h
  · cases h
  split at h
  · -- a polka for `nil`: unlock and precommit `nil`
    cases h
    split_ifs
    · exact hnil hs
    · exact hunlock.trans (hnil hs) (.inl rfl)
  split at h
  · -- a polka for the locked block: relock
    rename_i hlocked
    cases h
    exact Body.trans (body_setLock (fun h0 => .inr ⟨isSome_of_HashesTo env hlocked, h0, le_rfl⟩)
      (.inr ⟨blockID, hpolka, hlocked⟩) (.inr rfl)) (hsign _ _ hs fun _ => hpolka) (.inl rfl)
  split at h
  · -- a polka for the proposal block: lock it
    rename_i hproposal
    split at h
    · cases h
    rename_i block hblock
    split at h
    · cases h
    cases h
    exact Body.trans (body_setLock (fun h0 => .inr ⟨by rw [hblock]; rfl, h0, le_rfl⟩)
      (.inr ⟨blockID, hpolka, hproposal⟩) (.inr rfl)) (hsign _ _ hs fun _ => hpolka) (.inl rfl)
  · -- a polka for a block this node does not have: unlock, fetch it, precommit `nil`
    cases h
    refine hunlock.trans ?_ (.inl rfl)
    split_ifs
    · exact Body.view_trans' (by rfl) (hnil hs)
    · exact hnil hs

/-- `enterPrecommit`, called for the state's own round, precommits at most once and moves to
`Precommit`. -/
lemma within_enterPrecommit (hi : Inv env cs) (hr : cs.Height = height → round ≤ cs.Round)
    (h : cs.enterPrecommit env now height round = .ok cs') : Within env cs cs' := by
  unfold State.enterPrecommit at h
  split at h
  · cases h
    exact Within.refl hi
  · rename_i hg
    have hg := enter_guard_iff.mp hg
    obtain ⟨rfl, hs⟩ := round_eq_of_guard hr hg
    obtain ⟨cs₁, h₁, h⟩ := bind_eq_ok h
    cases h
    exact hi.enter (body_precommitBody env now hs h₁) (hg.1 ▸ hg.2) (by simp)

variable {env} in
/-- `enterPrevoteWait` moves to `PrevoteWait` with its timeout. -/
lemma within_enterPrevoteWait (hi : Inv env cs) (h : cs.enterPrevoteWait height round = .ok cs') :
    Within env cs cs' := by
  unfold State.enterPrevoteWait at h
  split at h
  · cases h
    exact Within.refl hi
  · rename_i hg
    obtain ⟨hh, hlt⟩ := enter_guard_iff.mp hg
    obtain ⟨_, -, h⟩ := bind_eq_ok h
    obtain ⟨_, -, h⟩ := bind_eq_ok h
    split at h
    · cases h
    · cases h
      exact hi.enter (body_scheduleTimeout hh.symm le_rfl) (hh ▸ hlt) (by simp)

variable {env} in
/-- `enterPrecommitWait`, called for the state's own round, schedules its timeout; it moves
neither the round nor the step. -/
lemma within_enterPrecommitWait (hi : Inv env cs) (hr : cs.Height = height → round ≤ cs.Round)
    (h : cs.enterPrecommitWait height round = .ok cs') : Within env cs cs' := by
  unfold State.enterPrecommitWait at h
  split at h
  · cases h
    exact Within.refl hi
  · rename_i hg
    have hh : cs.Height = height := by tauto
    obtain ⟨_, -, h⟩ := bind_eq_ok h
    obtain ⟨_, -, h⟩ := bind_eq_ok h
    split at h
    · cases h
    · cases h
      exact (Within.scheduleTimeout hi hh.symm (hr hh)).trans_view rfl

/-- `enterPropose` moves to `Propose`, with its timeout and the proposal if this node
proposes, and goes on to prevote once the proposal is complete. -/
lemma within_enterPropose (hi : Inv env cs) (h : cs.enterPropose env now height round = .ok cs') :
    Within env cs cs' := by
  unfold State.enterPropose at h
  split at h
  · cases h
    exact Within.refl hi
  · rename_i hg
    obtain ⟨hh, hlt⟩ := enter_guard_iff.mp hg
    obtain ⟨cs₁, h₁, h⟩ := bind_eq_ok h
    have hw := hi.enter (body_proposeBody env now h₁ hh.symm (hh ▸ hlt) hi.valid hi.valid_backed)
      (hh ▸ hlt) (by simp)
    obtain ⟨complete, -, h⟩ := bind_eq_ok h
    split at h
    · cases h
      exact hw.trans (within_enterPrevote env now _ _ hw.inv fun _ => le_rfl)
    · cases h
      exact hw

/-- The setup of a new round moves to `NewRound` of that round and leaves the rest of the view
alone. -/
lemma view_newRoundBody (h : cs.newRoundBody round = .ok cs') :
    cs'.view = (cs.updateRoundStep round .RoundStepNewRound).view := by
  unfold State.newRoundBody at h
  obtain ⟨validators, -, h⟩ := bind_eq_ok h
  obtain ⟨_, -, h⟩ := bind_eq_ok h
  obtain ⟨votes, hvotes, h⟩ := bind_eq_ok h
  cases h
  cases hV : cs.Votes with
  | none =>
    split_ifs at hvotes <;> simp only [State.updateRoundStep, hV] at hvotes <;> cases hvotes
  | some hvs =>
    -- `SetRound` adds the vote sets of the next round: the polkas stay
    have hp : votes.prevotePolka = hvs.prevotePolka := by
      split_ifs at hvotes <;> simp only [State.updateRoundStep, hV] at hvotes <;>
        exact HeightVoteSet.SetRound_prevotePolka hvotes
    split_ifs <;>
    · simp only [State.view, State.polkas, State.commitView, State.updateRoundStep, hV, hp,
        Option.isSome_some]
      rfl

/-- `enterNewRound` moves to `NewRound` of the round it is called for, and on to its proposal
unless it waits for transactions; afterwards the state is at that round or beyond it. -/
lemma within_enterNewRound (hi : Inv env cs) (h : cs.enterNewRound env now height round = .ok cs') :
    Within env cs cs' ∧ (cs.Height = height → round ≤ cs'.Round) := by
  unfold State.enterNewRound at h
  split at h
  · rename_i hg
    cases h
    refine ⟨Within.refl hi, fun hh => ?_⟩
    rw [ne_newHeight_iff, RoundStepType.le_iff] at hg
    omega
  · rename_i hg
    rw [ne_newHeight_iff, enter_guard_iff] at hg
    obtain ⟨hh, hlt⟩ := hg
    obtain ⟨cs₁, h₁, h⟩ := bind_eq_ok h
    have hw₁ : Within env cs cs₁ :=
      (hi.enter (Body.of_view rfl : Body env cs cs round .RoundStepNewRound) (hh ▸ hlt)
        (by simp)).trans_view (view_newRoundBody h₁)
    have hround : cs₁.Round = round := congrArg View.Round (view_newRoundBody h₁)
    have hheight : cs₁.Height = height := hw₁.height.trans hh
    obtain ⟨waitForTxs, -, h⟩ := bind_eq_ok h
    split at h
    · -- waiting for transactions, with or without a timeout for an empty block
      split at h
      · cases h
        exact ⟨hw₁.trans (Within.scheduleTimeout hw₁.inv hheight.symm hround.ge), fun _ => hround.ge⟩
      · cases h
        exact ⟨hw₁, fun _ => hround.ge⟩
    · have hw₂ := within_enterPropose env now hw₁.inv h
      exact ⟨hw₁.trans hw₂, fun _ => hround.ge.trans hw₂.round_le⟩

end Enter

/-! ## Committing and starting the next height -/

/-- `cs'` is the round state of the height after `state`'s last block, with the messages and
timeouts of `cs`, new vote sets, and as last commit none at the first height, precommits with a
`+2/3` majority, or, when `cs` had no commit round, the last commit of `cs`. -/
structure IsReset (cs : State) (state : sm.State) (cs' : State) : Prop where
  height : cs'.Height =
    if state.LastBlockHeight + 1 = 1 then state.InitialHeight else state.LastBlockHeight + 1
  round : cs'.Round = 0
  step : cs'.Step = .RoundStepNewHeight
  locked : cs'.LockedBlock = none ∧ cs'.LockedRound = -1
  valid : cs'.ValidBlock = none ∧ cs'.ValidRound = -1
  timeouts : cs'.timeouts = cs.timeouts
  queue : cs'.internalMsgQueue = cs.internalMsgQueue
  stored : cs'.state = state
  votes : cs'.Votes.isSome
  lastCommit : state.LastBlockHeight = 0 ∨ cs'.LastCommit.any VoteSet.HasTwoThirdsMajority ∨
    ((cs.Votes = none ∨ cs.CommitRound ≤ -1) ∧ cs'.LastCommit = cs.LastCommit)

section Commit

variable (env : Env) (now : Time) {cs cs' : State} {st : sm.State} {height : Int}

lemma isReset_resetToState (h : cs.resetToState st = .ok cs') : IsReset cs st cs' := by
  unfold State.resetToState at h
  obtain ⟨lastCommit, hlc, h⟩ := bind_eq_ok h
  obtain ⟨votes, -, h⟩ := bind_eq_ok h
  cases h
  refine ⟨rfl, rfl, rfl, ⟨rfl, rfl⟩, ⟨rfl, rfl⟩, rfl, rfl, rfl, rfl, ?_⟩
  -- the three ways `updateToState` finds the last commit
  split at hlc
  · exact .inl ‹_›
  split at hlc
  · -- the precommits of the commit round, checked for `+2/3`
    obtain ⟨precommits, -, hlc⟩ := bind_eq_ok hlc
    split at hlc
    · cases hlc
    · rename_i hmaj
      cases hlc
      exact .inr (.inl (by simpa using hmaj))
  · -- no vote sets or no commit round: the last commit kept
    rename_i hno
    split at hlc
    · cases hlc
    · cases hlc
      refine .inr (.inr ⟨?_, rfl⟩)
      cases hV : cs.Votes with
      | none => exact .inl rfl
      | some hvs =>
        refine .inr ?_
        by_contra hc
        exact hno hvs hV (by simp only [decide_eq_true_eq]; omega)

/-- `updateToState` ignores a state no further than the one the node has, and else resets to the
height after it, past its first check. -/
lemma updateToState_cases (h : cs.updateToState st = .ok cs') :
    (IsEmpty cs.state = false ∧ cs' = cs) ∨
      (¬(cs.CommitRound > -1 ∧ 0 < cs.Height ∧ cs.Height ≠ st.LastBlockHeight) ∧
        IsReset cs st cs') := by
  unfold State.updateToState at h
  split at h
  · cases h
  rename_i hcheck
  split at h
  · rename_i hempty
    split at h
    · cases h
    split at h
    · cases h
    split at h
    · cases h
      exact .inl ⟨by simpa using hempty, rfl⟩
    · exact .inr ⟨hcheck, isReset_resetToState h⟩
  · exact .inr ⟨hcheck, isReset_resetToState h⟩

variable {env} in
/-- A reset state keeps the invariant when the timeouts, signed keys, precommits and proposals of
the old state are behind the new height, and past the initial height the last commit has
`+2/3`. -/
lemma IsReset.inv (hr : IsReset cs st cs') (hpos : 0 < cs'.Height)
    (ht : ∀ ti ∈ cs.timeouts, ti.Height < cs'.Height)
    (hsorted : cs.signedKeys.Pairwise (· < ·)) (hbehind : ∀ k ∈ cs.signedKeys, k ≤ cs'.hrs)
    (hround : ∀ k ∈ cs.signedKeys, 0 ≤ keyRound k)
    (hprec : ∀ v ∈ cs.precommits, v.height < cs'.Height)
    (hprop : ∀ p ∈ cs.proposals, p.height < cs'.Height)
    (hlc : cs'.Height ≠ st.InitialHeight → cs'.LastCommit.any VoteSet.HasTwoThirdsMajority) :
    Inv env cs' := by
  have hk : cs'.signedKeys = cs.signedKeys := by simp only [State.signedKeys, hr.queue]
  have hp : cs'.precommits = cs.precommits := by simp only [State.precommits, hr.queue]
  have hq : cs'.proposals = cs.proposals := by simp only [State.proposals, hr.queue]
  refine ⟨hpos, hr.round ▸ le_rfl, fun hs => ?_, ?_, ?_, ?_, hk ▸ hsorted, hk ▸ hbehind,
    hk ▸ hround, fun v hv hvh => ?_, fun p hp' hph => ?_, fun v _ _ _ block hb => ?_,
    .inl hr.locked.1, .inl hr.valid.1, hr.votes, hr.stored ▸ hlc⟩
  · rw [hr.step] at hs
    cases hs
  · rw [hr.locked.1, hr.locked.2]
    exact kept_none _
  · rw [hr.valid.1, hr.valid.2]
    exact kept_none _
  · intro ti hti
    rw [hr.timeouts] at hti
    exact .inl (ht ti hti)
  · -- no precommit is of the new height yet
    rw [hp] at hv
    exact absurd hvh (hprec v hv).ne
  · -- nor any proposal
    rw [hq] at hp'
    exact absurd hph (hprop p hp').ne
  · -- and the new height starts unlocked
    rw [hr.locked.1] at hb
    cases hb

variable {env} in
/-- `updateToState` from the commit step: the first check ties the state applied to the
state's own height, so the next height is one more than it. -/
lemma progress_updateToState (hi : Inv env cs) (hc : cs.Step = .RoundStepCommit)
    (h : cs.updateToState st = .ok cs') : Progress env cs cs' := by
  rcases updateToState_cases h with ⟨-, rfl⟩ | ⟨hcheck, hr⟩
  · exact (Within.refl hi).toProgress
  have hC := hi.commitRound_nonneg hc
  have hpos := hi.height_pos
  have hH : cs'.Height = cs.Height + 1 := by
    rw [hr.height]
    split_ifs <;> omega
  have hlt : cs.hrs < cs'.hrs := by
    simp only [State.hrs, hrsKey_lt_hrsKey, hH]
    omega
  have hnext : cs.Height < cs'.Height := by omega
  -- the precommits and proposals were signed at round states not ahead of `cs`
  refine ⟨hr.inv (by omega) (fun ti hti => ?_) hi.signed_sorted
    (fun k hk => (hi.signed_behind k hk).trans hlt.le) hi.signed_round_nonneg
    (fun v hv => (hi.height_le_of_signed (signedKey_mem_of_precommit hv)).trans_lt hnext)
    (fun p hp => (hi.height_le_of_signed (signedKey_mem_of_proposal hp)).trans_lt hnext)
    (fun _ => ?_), hlt.le, hH.le⟩
  · rcases hi.timeouts_behind ti hti with h' | ⟨h', -⟩ <;> omega
  · -- the block applied is of this height and the state has its vote sets and commit round, so
    -- the last commit is the commit round's precommits, checked for `+2/3`
    rcases hr.lastCommit with h0 | hmaj | ⟨hV | hC', -⟩
    · omega
    · exact hmaj
    · exact absurd hi.votes_some (by simp [hV])
    · omega

lemma view_updatePrivValidatorPubKey : cs.updatePrivValidatorPubKey.view = cs.view := by
  unfold State.updatePrivValidatorPubKey
  split
  · rfl
  · split <;> rfl

/-- `finalizeCommit` applies the committed block and starts the next height with its first
timeout; an error of `ApplyBlock` leaves the state as it was. -/
lemma progress_finalizeCommit (hi : Inv env cs) (h : cs.finalizeCommit env height = .ok cs') :
    Progress env cs cs' := by
  unfold State.finalizeCommit at h
  split at h
  · cases h
    exact (Within.refl hi).toProgress
  rename_i hg
  have hc : cs.Step = .RoundStepCommit := by tauto
  obtain ⟨_, -, h⟩ := bind_eq_ok h
  -- the panics on a missing or mismatched block, and an `ApplyBlock` error
  split at h
  · cases h
  split at h
  · cases h
  split at h
  · cases h
  split at h
  · cases h
  split at h
  · cases h
  split at h
  · cases h
    exact (Within.refl hi).toProgress
  obtain ⟨cs₁, h₁, h⟩ := bind_eq_ok h
  cases h
  have hp₁ := progress_updateToState hi hc h₁
  have hw₂ := Within.of_view hp₁.inv
    (view_updatePrivValidatorPubKey : cs₁.updatePrivValidatorPubKey.view = cs₁.view)
  exact (hp₁.trans_within hw₂).trans_within
    (Within.scheduleTimeout hw₂.inv rfl hw₂.inv.round_nonneg)

/-- `tryFinalizeCommit` finalizes only a block it has with `+2/3` precommits. -/
lemma progress_tryFinalizeCommit (hi : Inv env cs) (h : cs.tryFinalizeCommit env height = .ok cs') :
    Progress env cs cs' := by
  unfold State.tryFinalizeCommit at h
  split at h
  · cases h
  obtain ⟨_, -, h⟩ := bind_eq_ok h
  split at h
  · cases h
    exact (Within.refl hi).toProgress
  split at h
  · cases h
    exact (Within.refl hi).toProgress
  split at h
  · cases h
    exact (Within.refl hi).toProgress
  exact progress_finalizeCommit env hi h

/-- The work of `enterCommit` only moves blocks between the proposal and the lock. -/
lemma view_commitBody {commitRound : Int} (h : cs.commitBody env commitRound = .ok cs') :
    cs'.view = cs.view := by
  unfold State.commitBody at h
  obtain ⟨_, -, h⟩ := bind_eq_ok h
  split at h
  · cases h
  -- the locked block may become the proposal block, and the proposal block may be dropped
  dsimp only at h
  split at h <;> split at h <;> cases h <;> rfl

variable {env} in
lemma Body.setCommitRound {round c : Int} {step : RoundStepType} (hb : Body env cs cs' round step) :
    Body env cs { cs' with CommitRound := c } round step :=
  ⟨hb.height, hb.round_eq, hb.step_eq, hb.locked, hb.valid, hb.timeouts, hb.signed, hb.polkas,
    hb.locked_backed, hb.valid_backed, hb.precommits, hb.proposals, hb.lock, hb.prevotes,
    hb.commitView⟩

/-- `enterCommit`, for a commit round that is not negative, moves to `Commit` in the state's
round and tries to finalize. -/
lemma progress_enterCommit {commitRound : Int} (hi : Inv env cs) (hr : 0 ≤ commitRound)
    (h : cs.enterCommit env height commitRound = .ok cs') : Progress env cs cs' := by
  unfold State.enterCommit at h
  split at h
  · cases h
    exact (Within.refl hi).toProgress
  rename_i hg
  obtain ⟨cs₁, h₁, h⟩ := bind_eq_ok h
  have hv := view_commitBody env h₁
  have hs : cs.Step.val < RoundStepType.RoundStepCommit.val := by
    rw [RoundStepType.le_iff] at hg
    omega
  have hlt : cs.hrs < hrsKey cs.Height cs₁.Round RoundStepType.RoundStepCommit.val := by
    have hR : cs₁.Round = cs.Round := congrArg View.Round hv
    rw [hR]
    simpa [State.hrs] using hs
  have hw := hi.enter (Body.setCommitRound (c := commitRound) (Body.of_view hv)) hlt fun _ => hr
  exact hw.trans_progress (progress_tryFinalizeCommit env hw.inv h)

end Commit

/-! ## The handlers of the receive routine -/

section Handlers

variable (env : Env) (now : Time) {cs cs' : State} {height : Int}

/-- `setProposal` writes the proposal, its part set and the cached proposer, none of which the
invariant reads. -/
lemma view_setProposal {proposal : Proposal} {r : Except String Unit}
    (h : cs.setProposal env proposal = .ok (r, cs')) : cs'.view = cs.view := by
  unfold State.setProposal at h
  obtain ⟨⟨verify, cs₁⟩, h₁, h⟩ := bind_eq_ok h
  have hv : cs₁.view = cs.view := by
    dsimp only at h₁
    split at h₁
    · obtain ⟨⟨proposer, vals⟩, -, h₁⟩ := bind_eq_ok h₁
      split at h₁
      · cases h₁
      · obtain ⟨signBytes, -, h₁⟩ := bind_eq_ok h₁
        cases h₁
        rfl
    · cases h₁
      rfl
  dsimp only at h
  split at h
  · cases h
    exact hv
  · cases h
    exact hv

/-- The complete proposal block becomes the valid block only with a polka for it in this
round. -/
lemma within_updateValidBlock (hi : Inv env cs) (maj : Option BlockID)
    (hmaj : ∀ b, maj = some b → cs.polkas cs.Round = some b) :
    Within env cs (cs.updateValidBlock env maj) := by
  unfold State.updateValidBlock
  split
  · rename_i blockID
    split_ifs with hc
    · refine ⟨hi.setValid ?_ (.inr ⟨blockID, hmaj blockID rfl, hc.2.2⟩), le_rfl, rfl⟩
      rw [isSome_of_HashesTo env hc.2.2]
      exact kept_at hi.round_nonneg
    · exact Within.refl hi
  · exact Within.refl hi

/-- Once the proposal block is complete: prevote (and precommit on a polka) if the state waits
for it in `Propose`, or finalize if it waits for it in `Commit`. -/
lemma progress_onCompleteBlock {block : Block} (hi : Inv env cs)
    (h : cs.onCompleteBlock env now height block = .ok cs') : Progress env cs cs' := by
  unfold State.onCompleteBlock at h
  obtain ⟨prevotes, hprevotes, h⟩ := bind_eq_ok h
  have hw₀ : Within env cs { cs with ProposalBlock := some block } := Within.of_view hi rfl
  have hw := hw₀.trans (within_updateValidBlock env hw₀.inv (twoThirdsMajority prevotes)
    fun _ hb => polkas_of_Prevotes hprevotes hb)
  dsimp only at h
  split at h
  · obtain ⟨complete, -, h⟩ := bind_eq_ok h
    split at h
    · have hw₂ := hw.trans (within_enterPrevote env now height _ hw.inv fun _ => le_rfl)
      split at h
      · exact (hw₂.trans (within_enterPrecommit env now hw₂.inv (fun _ => le_rfl) h)).toProgress
      · cases h
        exact hw₂.toProgress
    · cases h
      exact hw.toProgress
  · split at h
    · exact hw.trans_progress (progress_tryFinalizeCommit env hw.inv h)
    · cases h
      exact hw.toProgress

/-- A block part joins the part set; a complete set is decoded into the proposal block. -/
lemma progress_addProposalBlockPart {part : Part} {added : Except String Bool} (hi : Inv env cs)
    (h : cs.addProposalBlockPart env now height part = .ok (added, cs')) : Progress env cs cs' := by
  unfold State.addProposalBlockPart at h
  obtain ⟨⟨added', rs⟩, -, h⟩ := bind_eq_ok h
  have hw : Within env cs { cs with ProposalBlockParts := rs.proposalBlockParts } :=
    Within.of_view hi rfl
  dsimp only at h
  split at h
  · split at h
    · cases h
      exact hw.toProgress
    obtain ⟨bz, -, h⟩ := bind_eq_ok h
    split at h
    · cases h
      exact hw.toProgress
    obtain ⟨cs₂, h₂, h⟩ := bind_eq_ok h
    cases h
    exact hw.trans_progress (progress_onCompleteBlock env now hw.inv h₂)
  · cases h
    exact hw.toProgress

/-- The unlock on a polka leaves no lock. -/
lemma within_unlockOnPolka {vote : Vote} {blockID : BlockID} (hi : Inv env cs) :
    Within env cs (cs.unlockOnPolka env vote blockID) := by
  unfold State.unlockOnPolka
  split_ifs
  · exact ⟨hi.setLock (kept_none _) (.inl rfl) (.inl rfl), le_rfl, rfl⟩
  · exact Within.refl hi

lemma polkas_unlockOnPolka {vote : Vote} {blockID : BlockID} :
    (cs.unlockOnPolka env vote blockID).polkas = cs.polkas := by
  unfold State.unlockOnPolka
  split_ifs <;> rfl

/-- The valid block set on a polka is the proposal block, at the current round, and the polka
is for it. -/
lemma within_validOnPolka {vote : Vote} {blockID : BlockID} (hi : Inv env cs)
    (hpol : cs.polkas vote.round = some blockID) :
    Within env cs (cs.validOnPolka env vote blockID) := by
  have hvalid : vote.round = cs.Round → HashesTo env cs.ProposalBlock blockID.hash = true →
      Inv env { cs with
        ValidRound := vote.round, ValidBlock := cs.ProposalBlock,
        ValidBlockParts := cs.ProposalBlockParts } := by
    intro hr hhash
    refine hi.setValid ?_ (.inr ⟨blockID, hpol, hhash⟩)
    rw [isSome_of_HashesTo env hhash, hr]
    exact kept_at hi.round_nonneg
  unfold State.validOnPolka
  dsimp only
  split_ifs with hpolka hhash
  · exact ⟨(hvalid hpolka.2.2 hhash).congr rfl, le_rfl, rfl⟩
  · exact ⟨hvalid hpolka.2.2 hhash, le_rfl, rfl⟩
  · exact Within.of_view hi rfl
  · exact Within.of_view hi rfl
  · exact Within.refl hi

lemma within_applyPolka {vote : Vote} (hi : Inv env cs) (maj : Option BlockID)
    (hmaj : ∀ b, maj = some b → cs.polkas vote.round = some b) :
    Within env cs (cs.applyPolka env vote maj) := by
  unfold State.applyPolka
  split
  · exact Within.refl hi
  · rename_i blockID
    have hw : Within env cs (cs.unlockOnPolka env vote blockID) := within_unlockOnPolka env hi
    have hpol : (cs.unlockOnPolka env vote blockID).polkas vote.round = some blockID := by
      rw [polkas_unlockOnPolka env]
      exact hmaj blockID rfl
    exact hw.trans (within_validOnPolka env hw.inv hpol)

/-- `addPrevote`: a polka moves the lock and the valid block, `+2/3` of any prevotes of a later
round skips to that round, and those of the current round move on from `Prevote`. -/
lemma within_addPrevote {vote : Vote} (hi : Inv env cs)
    (h : cs.addPrevote env now height vote = .ok cs') : Within env cs cs' := by
  unfold State.addPrevote at h
  obtain ⟨prevotes, hprevotes, h⟩ := bind_eq_ok h
  have hw : Within env cs (cs.applyPolka env vote (twoThirdsMajority prevotes)) :=
    within_applyPolka env hi _ fun _ hb => polkas_of_Prevotes hprevotes hb
  dsimp only at h
  generalize cs.applyPolka env vote (twoThirdsMajority prevotes) = cs₁ at hw h
  obtain ⟨roundSkip, -, h⟩ := bind_eq_ok h
  split at h
  · exact hw.trans (within_enterNewRound env now hw.inv h).1
  split at h
  · -- a prevote of the current round, in `Prevote` or later
    rename_i hcur
    have hr : cs₁.Height = height → vote.round ≤ cs₁.Round := fun _ => hcur.1.ge
    split at h
    · obtain ⟨complete, -, h⟩ := bind_eq_ok h
      split at h
      · exact hw.trans (within_enterPrecommit env now hw.inv hr h)
      obtain ⟨any, -, h⟩ := bind_eq_ok h
      split at h
      · exact hw.trans (within_enterPrevoteWait hw.inv h)
      · cases h
        exact hw
    · obtain ⟨any, -, h⟩ := bind_eq_ok h
      split at h
      · exact hw.trans (within_enterPrevoteWait hw.inv h)
      · cases h
        exact hw
  · -- a polka for the proposal's `POLRound` lets the state prevote in its own round
    split at h
    · split at h
      · obtain ⟨complete, -, h⟩ := bind_eq_ok h
        split at h
        · cases h
          exact hw.trans (within_enterPrevote env now _ _ hw.inv fun _ => le_rfl)
        · cases h
          exact hw
      · cases h
        exact hw
    · cases h
      exact hw

/-- `addPrecommit`: a `+2/3` for a block of a round that is not negative commits it, and
anything else stays in the height. -/
lemma progress_addPrecommit {vote : Vote} (hi : Inv env cs) (hr : 0 ≤ vote.round)
    (h : cs.addPrecommit env now height vote = .ok cs') : Progress env cs cs' := by
  unfold State.addPrecommit at h
  obtain ⟨precommits, -, h⟩ := bind_eq_ok h
  split at h
  · obtain ⟨cs₁, h₁, h⟩ := bind_eq_ok h
    have hw₁ := within_enterNewRound env now hi h₁
    -- after `enterNewRound` the state is at the vote's round or beyond it
    have hr₁ : cs₁.Height = height → vote.round ≤ cs₁.Round := fun hh =>
      hw₁.2 (hw₁.1.height.symm.trans hh)
    obtain ⟨cs₂, h₂, h⟩ := bind_eq_ok h
    have hw₂ := within_enterPrecommit env now hw₁.1.inv hr₁ h₂
    have hr₂ : cs₂.Height = height → vote.round ≤ cs₂.Round := fun hh =>
      (hr₁ (hw₂.height.symm.trans hh)).trans hw₂.round_le
    split at h
    · obtain ⟨cs₃, h₃, h⟩ := bind_eq_ok h
      have hp₃ := progress_enterCommit env hw₂.inv hr h₃
      have hp : Progress env cs cs₃ := (hw₁.1.trans hw₂).trans_progress hp₃
      split at h
      · obtain ⟨all, -, h⟩ := bind_eq_ok h
        split at h
        · exact hp.trans_within (within_enterNewRound env now hp.inv h).1
        · cases h
          exact hp
      · cases h
        exact hp
    · exact (hw₁.1.trans (hw₂.trans (within_enterPrecommitWait hw₂.inv hr₂ h))).toProgress
  · split at h
    · obtain ⟨any, -, h⟩ := bind_eq_ok h
      split at h
      · obtain ⟨cs₁, h₁, h⟩ := bind_eq_ok h
        have hw₁ := within_enterNewRound env now hi h₁
        have hr₁ : cs₁.Height = height → vote.round ≤ cs₁.Round := fun hh =>
          hw₁.2 (hw₁.1.height.symm.trans hh)
        exact (hw₁.1.trans (within_enterPrecommitWait hw₁.1.inv hr₁ h)).toProgress
      · cases h
        exact (Within.refl hi).toProgress
    · cases h
      exact (Within.refl hi).toProgress

/-- A precommit of the previous height joins `LastCommit`, and may start round `0`. -/
lemma within_addLastCommitVote {vote : Vote} {added : Bool} {err : Option AddVoteErr}
    (hi : Inv env cs) (h : cs.addLastCommitVote env now vote = .ok (added, err, cs')) :
    Within env cs cs' := by
  unfold State.addLastCommitVote at h
  split at h
  · cases h
    exact Within.refl hi
  split at h
  · cases h
  rename_i lastCommit₀ hlast
  obtain ⟨⟨added', err', lastCommit⟩, hadd, h⟩ := bind_eq_ok h
  dsimp only at h
  -- the vote joins the last commit, which keeps its `+2/3`
  have hw : Within env cs { cs with LastCommit := some lastCommit } :=
    Within.setLastCommit hi fun hm => VoteSet.HasTwoThirdsMajority_addVote hadd (by simpa [hlast] using hm)
  split at h
  · cases h
    exact hw
  split at h
  · obtain ⟨all, -, h⟩ := bind_eq_ok h
    split at h
    · obtain ⟨cs₂, h₂, h⟩ := bind_eq_ok h
      cases h
      exact hw.trans (within_enterNewRound env now hw.inv h₂).1
    · cases h
      exact hw
  · cases h
    exact hw

/-- `addVote` of a vote whose round is not negative. -/
lemma progress_addVote {vote : Vote} {peerID : P2PID} {added : Bool} {err : Option AddVoteErr}
    (hi : Inv env cs) (hr : 0 ≤ vote.round)
    (h : cs.addVote env now vote peerID = .ok (added, err, cs')) : Progress env cs cs' := by
  unfold State.addVote at h
  split at h
  · exact (within_addLastCommitVote env now hi h).toProgress
  split at h
  · cases h
    exact (Within.refl hi).toProgress
  dsimp only at h
  obtain ⟨hvs, hvs_eq, h⟩ := bind_eq_ok h
  obtain ⟨⟨added', err', hvs'⟩, hadd, h⟩ := bind_eq_ok h
  dsimp only at h
  -- the vote joins the vote sets of the height, whose polkas it keeps
  have hV : cs.Votes = some hvs := by
    split at hvs_eq
    · cases hvs_eq
    · cases hvs_eq
      assumption
  have hw : Within env cs { cs with Votes := some hvs' } := by
    have hview : ({ cs with Votes := some hvs' } : State).view =
        { cs.view with polkas := ({ cs with Votes := some hvs' } : State).polkas } := by
      simp only [State.view, State.commitView, hV, Option.isSome_some]
      rfl
    refine Within.of_extend hi hview ?_
    rw [polkas_of_Votes hV]
    exact HeightVoteSet.AddVote_prevotePolka hadd
  split at h
  · cases h
    exact hw.toProgress
  split at h
  · obtain ⟨cs₂, h₂, h⟩ := bind_eq_ok h
    cases h
    exact (hw.trans (within_addPrevote env now hw.inv h₂)).toProgress
  · obtain ⟨cs₂, h₂, h⟩ := bind_eq_ok h
    cases h
    exact hw.trans_progress (progress_addPrecommit env now hw.inv hr h₂)
  · cases h

lemma progress_tryAddVote {vote : Vote} {peerID : P2PID} {added : Bool} (hi : Inv env cs)
    (hr : 0 ≤ vote.round) (h : cs.tryAddVote env now vote peerID = .ok (added, cs')) :
    Progress env cs cs' := by
  unfold State.tryAddVote at h
  obtain ⟨⟨added', err, cs₁⟩, h₁, h⟩ := bind_eq_ok h
  cases h
  exact progress_addVote env now hi hr h₁

/-- `handleMsg` of a message whose votes have rounds that are not negative. -/
lemma progress_handleMsg {mi : msgInfo} (hi : Inv env cs)
    (hv : ∀ vote, mi.Msg = .VoteMessage vote → 0 ≤ vote.round)
    (h : cs.handleMsg env now mi = .ok cs') : Progress env cs cs' := by
  unfold State.handleMsg at h
  split at h
  · obtain ⟨⟨_, cs₁⟩, h₁, h⟩ := bind_eq_ok h
    cases h
    exact (Within.of_view hi (view_setProposal env h₁)).toProgress
  · obtain ⟨⟨_, cs₁⟩, h₁, h⟩ := bind_eq_ok h
    cases h
    exact progress_addProposalBlockPart env now hi h₁
  · rename_i vote hm
    obtain ⟨⟨_, cs₁⟩, h₁, h⟩ := bind_eq_ok h
    cases h
    exact progress_tryAddVote env now hi (hv vote hm) h₁

/-- `handleTimeout` of a timeout the state scheduled: the timeout is not ahead of the state, so
the `enter*` functions it calls are for the state's round. -/
lemma within_handleTimeout {ti : timeoutInfo} (hi : Inv env cs) (hti : ti ∈ cs.timeouts)
    (h : cs.handleTimeout env now ti = .ok cs') : Within env cs cs' := by
  have hr : cs.Height = ti.Height → ti.Round ≤ cs.Round := by
    intro hh
    rcases hi.timeouts_behind ti hti with h' | ⟨-, h'⟩
    · omega
    · exact h'
  unfold State.handleTimeout at h
  split at h
  · cases h
    exact Within.refl hi
  split at h
  · exact (within_enterNewRound env now hi h).1
  · exact within_enterPropose env now hi h
  · cases h
    exact within_enterPrevote env now _ _ hi hr
  · exact within_enterPrecommit env now hi hr h
  · obtain ⟨cs₁, h₁, h⟩ := bind_eq_ok h
    have hw₁ := within_enterPrecommit env now hi hr h₁
    exact hw₁.trans (within_enterNewRound env now hw₁.inv h).1
  · cases h

lemma within_handleTxsAvailable (hi : Inv env cs) (h : cs.handleTxsAvailable env now = .ok cs') :
    Within env cs cs' := by
  unfold State.handleTxsAvailable at h
  split at h
  · cases h
    exact Within.refl hi
  rename_i hr
  split at h
  · obtain ⟨_, -, h⟩ := bind_eq_ok h
    split at h
    · cases h
      exact Within.refl hi
    · cases h
      exact Within.scheduleTimeout hi rfl (by omega)
  · exact within_enterPropose env now hi h
  · cases h
    exact Within.refl hi

lemma view_SetPrivValidator (priv : Option PrivValidator) :
    (cs.SetPrivValidator priv).view = cs.view :=
  view_updatePrivValidatorPubKey

end Handlers

/-! ## Every step, every start, every run -/

section World

variable (env : Env) {cs cs' : State}

/-- A vote that passes `ValidateBasic` has a round that is not negative. -/
lemma round_nonneg_of_ValidateBasic {vote : Vote} (h : vote.ValidateBasic = .ok ()) :
    0 ≤ vote.round := by
  unfold Vote.ValidateBasic at h
  split at h
  · cases h
  split at h
  · cases h
  split at h
  · cases h
  · omega

/-- One step of the receive routine keeps the invariant, does not move the round state back and
reaches at most the next height.  A vote comes from a peer, which the reactor checked with
`ValidateBasic`, or from the node itself, which signed it in a round that is not negative. -/
lemma progress_step (now : Time) {i : Input} (hi : Inv env cs) (h : step env now cs i = .ok cs') :
    Progress env cs cs' := by
  cases i with
  | peerMsg mi =>
    simp only [step] at h
    split at h
    · rename_i hvb
      refine progress_handleMsg env now hi (fun vote hm => ?_) h
      rw [hm] at hvb
      exact round_nonneg_of_ValidateBasic hvb
    · cases h
      exact (Within.refl hi).toProgress
  | internalMsg mi =>
    simp only [step] at h
    split at h
    · rename_i hmem
      refine progress_handleMsg env now hi (fun vote hm => ?_) h
      have hk : hrsKey vote.height vote.round (voteStep vote.type).val ∈ cs.signedKeys :=
        List.mem_filterMap.mpr ⟨mi, hmem, by simp only [hm, StateMessage.signedKey]⟩
      simpa using hi.signed_round_nonneg _ hk
    · cases h
      exact (Within.refl hi).toProgress
  | timeout ti =>
    simp only [step] at h
    split at h
    · rename_i hti
      exact (within_handleTimeout env now hi hti h).toProgress
    · cases h
      exact (Within.refl hi).toProgress
  | txsAvailable => exact (within_handleTxsAvailable env now hi h).toProgress
  | setPrivValidator priv =>
    simp only [step] at h
    cases h
    exact (Within.of_view hi (view_SetPrivValidator priv)).toProgress

lemma Transition.progress (hi : Inv env cs) (ht : Transition env cs cs') : Progress env cs cs' := by
  obtain ⟨now, i, h⟩ := ht
  exact progress_step env now hi h

/-- `reconstructLastCommit` sets `LastCommit` and nothing else. -/
lemma reconstructLastCommit_eq {st : sm.State} (h : cs.reconstructLastCommit env st = .ok cs') :
    ∃ lastCommit, cs' = { cs with LastCommit := some lastCommit } ∧
      lastCommit.HasTwoThirdsMajority = true := by
  unfold State.reconstructLastCommit at h
  split at h
  · cases h
  obtain ⟨lastPrecommits, -, h⟩ := bind_eq_ok h
  split at h
  · cases h
  · rename_i hmaj
    cases h
    exact ⟨_, rfl, by simpa using hmaj⟩

/-- `NewState` of a stored state that genesis validation admits starts at a positive height,
in round `0` with no lock, having sent nothing, with the commit of the stored last block. -/
lemma inv_NewState {st : sm.State} (hinit : 1 ≤ st.InitialHeight) (hlast : 0 ≤ st.LastBlockHeight)
    (h : NewState env st = .ok cs) : Inv env cs := by
  unfold NewState at h
  obtain ⟨cs₀, h₀, h⟩ := bind_eq_ok h
  -- `NewState` starts from the empty state, with the last commit when there is a last block
  have hstart : cs₀.state = emptyState ∧ cs₀.timeouts = [] ∧ cs₀.internalMsgQueue = [] ∧
      (cs₀.LastCommit.any VoteSet.HasTwoThirdsMajority ∨ st.LastBlockHeight = 0) := by
    split at h₀
    · obtain ⟨lastCommit, rfl, hmaj⟩ := reconstructLastCommit_eq env h₀
      exact ⟨rfl, rfl, rfl, .inl hmaj⟩
    · cases h₀
      exact ⟨rfl, rfl, rfl, .inr (by omega)⟩
  obtain ⟨cs₁, h₁, h⟩ := bind_eq_ok h
  cases h
  -- the empty state is never "ahead" of the stored one, so `updateToState` resets
  rcases updateToState_cases h₁ with ⟨hempty, -⟩ | ⟨-, hr⟩
  · rw [hstart.1] at hempty
    simp [IsEmpty, emptyState] at hempty
  have hpos : 0 < cs₁.Height := by
    rw [hr.height]
    split_ifs <;> omega
  have hk : cs₀.signedKeys = [] := by simp [State.signedKeys, hstart.2.2.1]
  have hp : cs₀.precommits = [] := by simp [State.precommits, hstart.2.2.1]
  have hq : cs₀.proposals = [] := by simp [State.proposals, hstart.2.2.1]
  -- past the first height, the last commit is the one reconstructed from the stored commit
  have hlc : cs₁.Height ≠ st.InitialHeight → cs₁.LastCommit.any VoteSet.HasTwoThirdsMajority := by
    intro hne
    have hlast : st.LastBlockHeight ≠ 0 := fun h0 => hne (by rw [hr.height, if_pos (by omega)])
    rcases hr.lastCommit with h0 | hmaj | ⟨-, heq⟩
    · exact absurd h0 hlast
    · exact hmaj
    · rw [heq]
      exact hstart.2.2.2.resolve_right hlast
  have hi₁ : Inv env cs₁ :=
    hr.inv hpos (by simp [hstart.2.1]) (by simp [hk]) (by simp [hk]) (by simp [hk]) (by simp [hp])
      (by simp [hq]) hlc
  exact hi₁.scheduleTimeout rfl hr.round.ge

/-- Every state the receive routine reaches keeps the invariant. -/
lemma Reachable.inv (hr : Reachable env cs) : Inv env cs := by
  induction hr with
  | init hinit hlast h => exact inv_NewState env hinit hlast h
  | step _ h ih => exact (progress_step env _ ih h).inv

/-- A run of the loop of `receiveRoutine` is a run of its transitions. -/
lemma reflTransGen_of_receiveRoutine :
    ∀ {inputs : List (Time × Input)} {cs cs' : State}, receiveRoutine env cs inputs = .ok cs' →
      Relation.ReflTransGen (Transition env) cs cs'
  | [], _, _, h => by
    cases h
    exact .refl
  | (now, i) :: inputs, _, _, h => by
    obtain ⟨cs₁, h₁, h⟩ := bind_eq_ok h
    exact .head ⟨now, i, h₁⟩ (reflTransGen_of_receiveRoutine h)

lemma Reachable.receiveRoutine {inputs : List (Time × Input)} (hr : Reachable env cs)
    (h : receiveRoutine env cs inputs = .ok cs') : Reachable env cs' :=
  Run.inv (fun _ _ hs ⟨_, _, ht⟩ => .step hs ht) hr (reflTransGen_of_receiveRoutine env h)

/-- Along a run from a state with the invariant, every height from the first to the last is the
height after some prefix of the inputs: one step reaches at most the next height. -/
lemma exists_prefix_height : ∀ {inputs : List (Time × Input)} {cs cs' : State}, Inv env cs →
    receiveRoutine env cs inputs = .ok cs' → ∀ {height : Int}, cs.Height ≤ height →
      height ≤ cs'.Height →
      ∃ n cs'', receiveRoutine env cs (inputs.take n) = .ok cs'' ∧ cs''.Height = height
  | [], cs, _, _, h, _, hlo, hhi => by
    cases h
    exact ⟨0, cs, rfl, by omega⟩
  | (now, i) :: inputs, cs, _, hi, h, height, hlo, hhi => by
    obtain ⟨cs₁, h₁, h⟩ := bind_eq_ok h
    have hp := progress_step env now hi h₁
    rcases eq_or_lt_of_le hlo with rfl | hlt
    · exact ⟨0, cs, rfl, rfl⟩
    · obtain ⟨n, cs'', hrun, hh⟩ :=
        exists_prefix_height hp.inv h (by have := hp.height_le; omega) hhi
      refine ⟨n + 1, cs'', ?_, hh⟩
      rw [List.take_succ_cons, receiveRoutine, h₁]
      exact hrun

/-! ## A chain of one validator -/

/-- A node whose block store has no commit and whose application takes no block; every key has
the empty address. -/
def quietEnv : Env where
  crypto := ⟨fun _ => [], fun _ _ _ => false, fun _ => []⟩
  tmhash := id
  blockHash := fun _ => []
  ProposalSignBytes := fun _ _ => pure []
  decodeBlock := fun _ => .error "no block"
  ValidateBlock := fun _ _ => .error "no block"
  ApplyBlock := fun _ _ _ => .error "no block"
  CreateProposalBlock := fun _ _ _ _ => none
  appHashChanged := fun _ _ => pure false
  LoadSeenCommit := fun _ => none
  WaitForTxs := false
  CreateEmptyBlocksInterval := false
  SkipTimeoutCommit := false

/-- The one validator, with the empty address. -/
def soloValidator : Validator := ⟨[], [], 1, 0⟩

/-- The genesis state of the chain. -/
def soloGenesis : sm.State :=
  { emptyState with
    ChainID := "test-chain", InitialHeight := 1,
    Validators := ⟨[soloValidator], some soloValidator, 1⟩ }

/-- A signer that signs everything. -/
def soloSigner : PrivValidator := ⟨.ok [], fun _ _ => .ok [1], fun _ _ => .ok [1]⟩

/-- The key is set, round `0` starts (the validator proposes, but the application gives it no
block) and the proposal times out: the node prevotes `nil`. -/
def soloInputs : List (Time × Input) :=
  [(0, .setPrivValidator (some soloSigner)), (0, .timeout ⟨1, 0, .RoundStepNewHeight⟩),
    (0, .timeout ⟨1, 0, .RoundStepPropose⟩)]

lemma solo_run : ∃ cs cs', NewState quietEnv soloGenesis = .ok cs ∧
    receiveRoutine quietEnv cs soloInputs = .ok cs' ∧ cs.Height = 1 ∧ cs'.Height = 1 ∧
      cs'.Step = .RoundStepPrevote ∧ cs'.internalMsgQueue.length = 1 :=
  ⟨_, _, rfl, rfl, rfl, rfl, rfl, rfl⟩

/-- The validator of a chain restarted after its first block, with a non-empty address. -/
def restartValidator : Validator := ⟨[1], [], 1, 0⟩

def restartValidators : ValidatorSet := ⟨[restartValidator], some restartValidator, 1⟩

/-- The commit of block `1`, signed by the validator. -/
def restartCommit : Commit :=
  NewCommit 1 0 ⟨List.replicate 32 1, ⟨1, List.replicate 32 1⟩⟩ [⟨.BlockIDFlagCommit, [1], 0, [1]⟩]

/-- A node whose block store has the seen commit of block `1`, whose keys all have the
validator's address, and whose signatures all verify. -/
def restartEnv : Env :=
  { quietEnv with
    crypto := ⟨fun _ => [1], fun _ _ _ => true, fun _ => []⟩
    LoadSeenCommit := fun height => if height = 1 then some restartCommit else none }

/-- The stored state after block `1`. -/
def restartState : sm.State :=
  { emptyState with
    ChainID := "test-chain", InitialHeight := 1, LastBlockHeight := 1,
    LastValidators := restartValidators, Validators := restartValidators }

/-- Restarted, the node rebuilds its last commit from the stored one and waits in height `2`. -/
lemma restart_run : ∃ cs, NewState restartEnv restartState = .ok cs ∧ cs.Height = 2 ∧
    cs.state.InitialHeight = 1 :=
  ⟨_, rfl, rfl, rfl⟩

/-! ## A chain of four validators -/

/-- The address of validator `k`, which is also its key: twenty bytes `k`. -/
def testAddress (k : UInt8) : Address := List.replicate 20 k

/-- Four validators of power `1`, as `NewValidatorSet` makes them: validator `0` proposes in round
`0`, and validator `1` in round `1`.  No three of them but all four have more than two thirds of
the power, so no validator decides alone. -/
def fourValidators : ValidatorSet :=
  ⟨[⟨testAddress 0, testAddress 0, 1, -3⟩, ⟨testAddress 1, testAddress 1, 1, 1⟩,
      ⟨testAddress 2, testAddress 2, 1, 1⟩, ⟨testAddress 3, testAddress 3, 1, 1⟩],
    some ⟨testAddress 0, testAddress 0, 1, -3⟩, 4⟩

example : NewValidatorSet ([0, 1, 2, 3].map fun k => ⟨testAddress k, testAddress k, 1, 0⟩) =
    .ok fourValidators := by
  decide

/-- The stored state of the chain before its first block. -/
def fourGenesis : sm.State :=
  { emptyState with
    ChainID := "test-chain", InitialHeight := 1, Validators := fourValidators,
    NextValidators := fourValidators }

/-- The bytes of the block of height `1`, which fit one part. -/
def polkaBlockBytes : Bytes := List.replicate 31 7

/-- The block's one part.  Under the identity as `tmhash` the root of a single leaf is the leaf
hash, the leaf's bytes after a zero byte. -/
def polkaPart : Part := ⟨0, polkaBlockBytes, ⟨1, 0, 0 :: polkaBlockBytes, []⟩⟩

def polkaBlockID : BlockID := ⟨List.replicate 32 9, ⟨1, 0 :: polkaBlockBytes⟩⟩

/-- The block of height `1`, proposed by validator `0`. -/
def polkaBlock : Block :=
  ⟨⟨⟨0, 0⟩, "test-chain", 1, 0, ⟨[], ⟨0, []⟩⟩, [], [], [], [], [], [], [], [], testAddress 0⟩,
    ⟨[], none⟩, ⟨[], none⟩, none⟩

/-- A node whose keys are addresses and whose signatures all verify, whose part sets decode to
`polkaBlock`, which hashes to the hash of `polkaBlockID`, and whose application takes every
block, moving the stored state one height on. -/
def polkaEnv : Env where
  crypto := ⟨fun pubKey => pubKey, fun _ _ _ => true, fun _ => []⟩
  tmhash := id
  blockHash := fun _ => polkaBlockID.hash
  ProposalSignBytes := fun _ _ => pure []
  decodeBlock := fun _ => .ok polkaBlock
  ValidateBlock := fun _ _ => .ok ()
  ApplyBlock := fun st _ _ =>
    .ok ({ st with LastBlockHeight := st.LastBlockHeight + 1, LastValidators := st.Validators }, 0)
  CreateProposalBlock := fun _ _ _ _ => none
  appHashChanged := fun _ _ => pure false
  LoadSeenCommit := fun _ => none
  WaitForTxs := false
  CreateEmptyBlocksInterval := false
  SkipTimeoutCommit := false

/-- The node's signer, with the key of validator `1`. -/
def nodeSigner : PrivValidator := ⟨.ok (testAddress 1), fun _ _ => .ok [1], fun _ _ => .ok [1]⟩

/-- A vote of height `1` of validator `k`, from a peer. -/
def peerVote (type : SignedMsgType) (round : Int) (k : UInt8) (blockID : BlockID) : msgInfo :=
  ⟨.VoteMessage ⟨type, 1, round, blockID, 0, testAddress k, k.toNat, [1]⟩, "peer"⟩

/-- A vote of height `1` the node signed and sent itself. -/
def ownVote (type : SignedMsgType) (round : Int) (blockID : BlockID) : msgInfo :=
  ⟨.VoteMessage ⟨type, 1, round, blockID, 0, testAddress 1, 1, [1]⟩, ""⟩

def nilBlockID : BlockID := ⟨[], ⟨0, []⟩⟩

/-- The node's proposal of round `1`: the block it is locked on, with POL round `0`. -/
def ownProposal : msgInfo :=
  ⟨.ProposalMessage .ProposalType ⟨1, 1, 0, polkaBlockID, 0, [1]⟩, ""⟩

/-- Round `0` and the start of round `1`.  Validator `0` proposes the block; the node prevotes
it, and with the prevotes of validators `0` and `2` that is a polka, so it locks the block, makes
it its valid block and precommits it.  Validators `0` and `2` precommit `nil`, the node waits for
more precommits and the wait times out.  In round `1` the node proposes the locked block with
POL round `0`, and on its own proposal prevotes it. -/
def lockInputs : List (Time × Input) :=
  [(0, .setPrivValidator (some nodeSigner)), (0, .timeout ⟨1, 0, .RoundStepNewHeight⟩),
    (0, .peerMsg ⟨.ProposalMessage .ProposalType ⟨1, 0, -1, polkaBlockID, 0, [1]⟩, "peer"⟩),
    (0, .peerMsg ⟨.BlockPartMessage 1 0 polkaPart, "peer"⟩),
    (0, .internalMsg (ownVote .PrevoteType 0 polkaBlockID)),
    (0, .peerMsg (peerVote .PrevoteType 0 0 polkaBlockID)),
    (0, .peerMsg (peerVote .PrevoteType 0 2 polkaBlockID)),
    (0, .internalMsg (ownVote .PrecommitType 0 polkaBlockID)),
    (0, .peerMsg (peerVote .PrecommitType 0 0 nilBlockID)),
    (0, .peerMsg (peerVote .PrecommitType 0 2 nilBlockID)),
    (0, .timeout ⟨1, 0, .RoundStepPrecommitWait⟩),
    (0, .internalMsg ownProposal), (0, .internalMsg ⟨.BlockPartMessage 1 1 polkaPart, ""⟩)]

/-- The rest of round `1`: with the prevotes of validators `0` and `2` the node relocks and
precommits the block, and with their precommits it commits the block and starts height `2`. -/
def commitInputs : List (Time × Input) :=
  [(0, .internalMsg (ownVote .PrevoteType 1 polkaBlockID)),
    (0, .peerMsg (peerVote .PrevoteType 1 0 polkaBlockID)),
    (0, .peerMsg (peerVote .PrevoteType 1 2 polkaBlockID)),
    (0, .internalMsg (ownVote .PrecommitType 1 polkaBlockID)),
    (0, .peerMsg (peerVote .PrecommitType 1 0 polkaBlockID)),
    (0, .peerMsg (peerVote .PrecommitType 1 2 polkaBlockID))]

/-- The messages the node has signed after `lockInputs`: a prevote and a precommit of round `0`,
its proposal and the block part of round `1`, and a prevote of round `1`. -/
def lockMessages : List msgInfo :=
  [ownVote .PrevoteType 0 polkaBlockID, ownVote .PrecommitType 0 polkaBlockID, ownProposal,
    ⟨.BlockPartMessage 1 1 polkaPart, ""⟩, ownVote .PrevoteType 1 polkaBlockID]

/-- After `lockInputs` the node is in round `1` of height `1`, locked since round `0` on the block
that is also its valid block. -/
lemma lock_run : ∃ cs cs', NewState polkaEnv fourGenesis = .ok cs ∧
    receiveRoutine polkaEnv cs lockInputs = .ok cs' ∧ cs'.Height = 1 ∧ cs'.Round = 1 ∧
      cs'.LockedRound = 0 ∧ cs'.LockedBlock.isSome ∧ cs'.ValidRound = 0 ∧
      cs'.ValidBlock.isSome ∧ cs'.internalMsgQueue = lockMessages := by
  -- the kernel runs the routine, and is asked only for what the lemma reads of the end
  have h : (NewState polkaEnv fourGenesis >>= fun cs => receiveRoutine polkaEnv cs lockInputs).map
      (fun cs => ((cs.Height, cs.Round), (cs.LockedRound, cs.ValidRound),
        (cs.LockedBlock.isSome, cs.ValidBlock.isSome), cs.internalMsgQueue)) =
      .ok ((1, 1), (0, 0), (true, true), lockMessages) := by
    decide +kernel
  obtain ⟨cs, cs', h₀, h₁, hv⟩ := bind_map_eq_ok h
  simp only [Prod.mk.injEq] at hv
  obtain ⟨⟨hH, hR⟩, ⟨hLR, hVR⟩, ⟨hL, hV⟩, hq⟩ := hv
  exact ⟨cs, cs', h₀, h₁, hH, hR, hLR, hL, hVR, hV, hq⟩

/-- After `lockInputs` and `commitInputs` the node has committed the block and is at height `2`. -/
lemma commit_run : ∃ cs cs', NewState polkaEnv fourGenesis = .ok cs ∧
    receiveRoutine polkaEnv cs (lockInputs ++ commitInputs) = .ok cs' ∧ cs.Height = 1 ∧
      cs'.Height = 2 := by
  have h : (NewState polkaEnv fourGenesis >>= fun cs =>
      receiveRoutine polkaEnv cs (lockInputs ++ commitInputs)).map (·.Height) = .ok 2 := by
    decide +kernel
  have h₀ : (NewState polkaEnv fourGenesis).map (·.Height) = .ok 1 := by
    decide +kernel
  obtain ⟨cs, cs', hs, h₁, hH⟩ := bind_map_eq_ok h
  rw [hs] at h₀
  exact ⟨cs, cs', hs, h₁, Except.ok.inj h₀, hH⟩

/-! ## What holds over every run -/

/-- The round state never goes back: over any inputs of the receive routine from a reachable
state, `CompareHRS` of the state it ends in against the one it started from is not negative. -/
theorem hrs_monotone {inputs : List (Time × Input)} (hr : Reachable env cs)
    (h : receiveRoutine env cs inputs = .ok cs') :
    0 ≤ CompareHRS cs'.Height cs'.Round cs'.Step cs.Height cs.Round cs.Step := by
  have hp := Run.monotone (f := State.hrs)
    (fun _ _ hs ht => ⟨(ht.progress env hs).inv, (ht.progress env hs).le⟩) hr.inv
    (reflTransGen_of_receiveRoutine env h)
  exact CompareHRS_nonneg_iff.mpr hp.2

theorem hrs_monotone_solo : ∃ cs cs', NewState quietEnv soloGenesis = .ok cs ∧
    receiveRoutine quietEnv cs soloInputs = .ok cs' ∧ cs'.Step = .RoundStepPrevote ∧
      0 ≤ CompareHRS cs'.Height cs'.Round cs'.Step cs.Height cs.Round cs.Step := by
  obtain ⟨cs, cs', h₀, h, -, -, hstep, -⟩ := solo_run
  exact ⟨cs, cs', h₀, h, hstep,
    hrs_monotone quietEnv (.init (by decide) (by decide) h₀) h⟩

/-- The node never signs two proposals for one height and round, nor two votes of one type for
one height and round: of the messages it sent itself, two of one kind with the same height and
round are the same. -/
theorem signed_once (hr : Reachable env cs) :
    (∀ m₁ ∈ cs.internalMsgQueue, ∀ m₂ ∈ cs.internalMsgQueue, ∀ v₁ v₂ : Vote,
      m₁.Msg = .VoteMessage v₁ → m₂.Msg = .VoteMessage v₂ →
      v₁.height = v₂.height → v₁.round = v₂.round → v₁.type = v₂.type → v₁ = v₂) ∧
    (∀ m₁ ∈ cs.internalMsgQueue, ∀ m₂ ∈ cs.internalMsgQueue,
      ∀ (t₁ t₂ : SignedMsgType) (p₁ p₂ : Proposal),
      m₁.Msg = .ProposalMessage t₁ p₁ → m₂.Msg = .ProposalMessage t₂ p₂ →
      p₁.height = p₂.height → p₁.round = p₂.round → p₁ = p₂) := by
  -- the keys of the messages it signed strictly increase, so no two share one
  have hsorted := hr.inv.signed_sorted
  constructor
  · intro m₁ h₁ m₂ h₂ v₁ v₂ hm₁ hm₂ hh hround htype
    have hm : m₁ = m₂ := Log.eq_of_key_eq hsorted h₁ h₂
      (k := hrsKey v₁.height v₁.round (voteStep v₁.type).val)
      (by simp only [hm₁, StateMessage.signedKey])
      (by simp only [hm₂, StateMessage.signedKey, hh, hround, htype])
    rw [hm, hm₂] at hm₁
    exact (StateMessage.VoteMessage.inj hm₁).symm
  · intro m₁ h₁ m₂ h₂ t₁ t₂ p₁ p₂ hm₁ hm₂ hh hround
    have hm : m₁ = m₂ := Log.eq_of_key_eq hsorted h₁ h₂
      (k := hrsKey p₁.height p₁.round RoundStepType.RoundStepPropose.val)
      (by simp only [hm₁, StateMessage.signedKey])
      (by simp only [hm₂, StateMessage.signedKey, hh, hround])
    rw [hm, hm₂] at hm₁
    exact (StateMessage.ProposalMessage.inj hm₁).2.symm

theorem signed_once_round1 : ∃ cs cs', NewState polkaEnv fourGenesis = .ok cs ∧
    receiveRoutine polkaEnv cs lockInputs = .ok cs' ∧ cs'.internalMsgQueue = lockMessages ∧
    (∀ m₁ ∈ cs'.internalMsgQueue, ∀ m₂ ∈ cs'.internalMsgQueue, ∀ v₁ v₂ : Vote,
      m₁.Msg = .VoteMessage v₁ → m₂.Msg = .VoteMessage v₂ →
      v₁.height = v₂.height → v₁.round = v₂.round → v₁.type = v₂.type → v₁ = v₂) ∧
    (∀ m₁ ∈ cs'.internalMsgQueue, ∀ m₂ ∈ cs'.internalMsgQueue,
      ∀ (t₁ t₂ : SignedMsgType) (p₁ p₂ : Proposal),
      m₁.Msg = .ProposalMessage t₁ p₁ → m₂.Msg = .ProposalMessage t₂ p₂ →
      p₁.height = p₂.height → p₁.round = p₂.round → p₁ = p₂) := by
  obtain ⟨cs, cs', h₀, h, -, -, -, -, -, -, hq⟩ := lock_run
  exact ⟨cs, cs', h₀, h, hq,
    signed_once polkaEnv ((Reachable.init (by decide) (by decide) h₀).receiveRoutine polkaEnv h)⟩

/-- The locked block and the valid block are each absent with round `-1`, or present with a
round from `0` up to the current round. -/
theorem locked_valid_rounds (hr : Reachable env cs) :
    Kept cs.LockedBlock.isSome cs.LockedRound cs.Round ∧
      Kept cs.ValidBlock.isSome cs.ValidRound cs.Round :=
  ⟨hr.inv.locked, hr.inv.valid⟩

theorem locked_valid_rounds_round1 : ∃ cs cs', NewState polkaEnv fourGenesis = .ok cs ∧
    receiveRoutine polkaEnv cs lockInputs = .ok cs' ∧ cs'.Round = 1 ∧
    cs'.LockedBlock.isSome ∧ cs'.LockedRound = 0 ∧ cs'.ValidBlock.isSome ∧ cs'.ValidRound = 0 ∧
    Kept cs'.LockedBlock.isSome cs'.LockedRound cs'.Round ∧
      Kept cs'.ValidBlock.isSome cs'.ValidRound cs'.Round := by
  obtain ⟨cs, cs', h₀, h, -, hR, hLR, hL, hVR, hV, -⟩ := lock_run
  exact ⟨cs, cs', h₀, h, hR, hL, hLR, hV, hVR,
    locked_valid_rounds polkaEnv ((Reachable.init (by decide) (by decide) h₀).receiveRoutine polkaEnv h)⟩

/-- The receive routine never skips a height: along any run from a reachable state, every height
from the first to the last is the height after some prefix of the inputs. -/
theorem heights_not_skipped {inputs : List (Time × Input)} (hr : Reachable env cs)
    (h : receiveRoutine env cs inputs = .ok cs') {height : Int} (hlo : cs.Height ≤ height)
    (hhi : height ≤ cs'.Height) :
    ∃ n cs'', receiveRoutine env cs (inputs.take n) = .ok cs'' ∧ cs''.Height = height :=
  exists_prefix_height env hr.inv h hlo hhi

theorem heights_not_skipped_commit : ∃ cs cs', NewState polkaEnv fourGenesis = .ok cs ∧
    receiveRoutine polkaEnv cs (lockInputs ++ commitInputs) = .ok cs' ∧ cs.Height = 1 ∧
    cs'.Height = 2 ∧ cs.Height ≤ 2 ∧ 2 ≤ cs'.Height ∧
    ∃ n cs'', receiveRoutine polkaEnv cs ((lockInputs ++ commitInputs).take n) = .ok cs'' ∧
      cs''.Height = 2 := by
  obtain ⟨cs, cs', h₀, h, hH₀, hH⟩ := commit_run
  have hlo : cs.Height ≤ 2 := by omega
  exact ⟨cs, cs', h₀, h, hH₀, hH, hlo, hH.ge,
    heights_not_skipped polkaEnv (.init (by decide) (by decide) h₀) h hlo hH.ge⟩

/-- The ticker is never handed a timeout ahead of the round state: each timeout the state
scheduled is of an earlier height, or of its height and a round not beyond its own. -/
theorem timeouts_not_ahead (hr : Reachable env cs) :
    ∀ ti ∈ cs.timeouts, ti.Height < cs.Height ∨ ti.Height = cs.Height ∧ ti.Round ≤ cs.Round :=
  hr.inv.timeouts_behind

theorem timeouts_not_ahead_solo : ∃ cs cs', NewState quietEnv soloGenesis = .ok cs ∧
    receiveRoutine quietEnv cs soloInputs = .ok cs' ∧
    ∀ ti ∈ cs'.timeouts, ti.Height < cs'.Height ∨ ti.Height = cs'.Height ∧ ti.Round ≤ cs'.Round := by
  obtain ⟨cs, cs', h₀, h, -⟩ := solo_run
  exact ⟨cs, cs', h₀, h,
    timeouts_not_ahead quietEnv ((Reachable.init (by decide) (by decide) h₀).receiveRoutine quietEnv h)⟩

/-- A block kept with a round and backed by the state's polkas is the block of a `+2/3`
majority of the round's prevotes, as `Votes.Prevotes(round)` holds them. -/
lemma exists_prevotes_of_backed {block : Option Block} {round : Int}
    (h : Backed env cs.polkas block round) (hb : block.isSome) :
    ∃ prevotes blockID, cs.Prevotes round = .ok (some prevotes) ∧
      prevotes.TwoThirdsMajority = some blockID ∧ HashesTo env block blockID.hash = true := by
  rcases h with h | ⟨blockID, hp, hh⟩
  · simp [h] at hb
  · obtain ⟨prevotes, hprevotes, hmaj⟩ := polkas_eq_some_iff.mp hp
    exact ⟨prevotes, blockID, hprevotes, hmaj, hh⟩

/-- The node precommits a block only on a polka for it: every precommit for a block that it
signed in its current height is for the block that `+2/3` of the prevotes of the precommit's
round are for, in its own vote sets. -/
theorem precommit_after_polka (hr : Reachable env cs) :
    ∀ mi ∈ cs.internalMsgQueue, ∀ vote : Vote, mi.Msg = .VoteMessage vote →
      vote.type = .PrecommitType → vote.height = cs.Height → vote.blockID.hash ≠ [] →
      ∃ prevotes, cs.Prevotes vote.round = .ok (some prevotes) ∧
        prevotes.TwoThirdsMajority = some vote.blockID := by
  intro mi hmi vote hm ht hh hb
  have hv : vote ∈ cs.precommits :=
    List.mem_filterMap.mpr ⟨mi, hmi, by simp [hm, StateMessage.precommit, ht]⟩
  exact polkas_eq_some_iff.mp (hr.inv.precommit_polka vote hv hh hb)

theorem precommit_after_polka_round1 : ∃ cs cs', NewState polkaEnv fourGenesis = .ok cs ∧
    receiveRoutine polkaEnv cs lockInputs = .ok cs' ∧ cs'.Height = 1 ∧
    ownVote .PrecommitType 0 polkaBlockID ∈ cs'.internalMsgQueue ∧
    ∀ mi ∈ cs'.internalMsgQueue, ∀ vote : Vote, mi.Msg = .VoteMessage vote →
      vote.type = .PrecommitType → vote.height = cs'.Height → vote.blockID.hash ≠ [] →
      ∃ prevotes, cs'.Prevotes vote.round = .ok (some prevotes) ∧
        prevotes.TwoThirdsMajority = some vote.blockID := by
  obtain ⟨cs, cs', h₀, h, hH, -, -, -, -, -, hq⟩ := lock_run
  have hmem : ownVote .PrecommitType 0 polkaBlockID ∈ cs'.internalMsgQueue := by
    rw [hq]
    simp [lockMessages]
  exact ⟨cs, cs', h₀, h, hH, hmem, precommit_after_polka polkaEnv
    ((Reachable.init (by decide) (by decide) h₀).receiveRoutine polkaEnv h)⟩

/-- A proposal the node signs at its height with a POL round proposes the block that `+2/3` of
the prevotes of that round are for in its own vote sets: the check `isProposalComplete` makes of
a proposal with a POL round passes for the node's own proposal. -/
theorem proposal_pol_polka (hr : Reachable env cs) :
    ∀ mi ∈ cs.internalMsgQueue, ∀ (t : SignedMsgType) (proposal : Proposal),
      mi.Msg = .ProposalMessage t proposal → proposal.height = cs.Height →
      0 ≤ proposal.polRound →
      ∃ prevotes blockID, cs.Prevotes proposal.polRound = .ok (some prevotes) ∧
        prevotes.TwoThirdsMajority = some blockID ∧ blockID.hash = proposal.blockID.hash := by
  intro mi hmi t proposal hm hh h0
  have hp : proposal ∈ cs.proposals :=
    List.mem_filterMap.mpr ⟨mi, hmi, by simp [hm, StateMessage.proposal]⟩
  obtain ⟨blockID, hpol, hhash⟩ := hr.inv.proposal_pol proposal hp hh h0
  obtain ⟨prevotes, hprev, hmaj⟩ := polkas_eq_some_iff.mp hpol
  exact ⟨prevotes, blockID, hprev, hmaj, hhash⟩

theorem proposal_pol_polka_round1 : ∃ cs cs', NewState polkaEnv fourGenesis = .ok cs ∧
    receiveRoutine polkaEnv cs lockInputs = .ok cs' ∧ cs'.Height = 1 ∧
    ownProposal ∈ cs'.internalMsgQueue ∧
    ∀ mi ∈ cs'.internalMsgQueue, ∀ (t : SignedMsgType) (proposal : Proposal),
      mi.Msg = .ProposalMessage t proposal → proposal.height = cs'.Height →
      0 ≤ proposal.polRound →
      ∃ prevotes blockID, cs'.Prevotes proposal.polRound = .ok (some prevotes) ∧
        prevotes.TwoThirdsMajority = some blockID ∧ blockID.hash = proposal.blockID.hash := by
  obtain ⟨cs, cs', h₀, h, hH, -, -, -, -, -, hq⟩ := lock_run
  have hmem : ownProposal ∈ cs'.internalMsgQueue := by
    rw [hq]
    simp [lockMessages]
  exact ⟨cs, cs', h₀, h, hH, hmem, proposal_pol_polka polkaEnv
    ((Reachable.init (by decide) (by decide) h₀).receiveRoutine polkaEnv h)⟩

/-- The node prevotes the block it is locked on: every prevote it signed at its height in a round
after the round of its lock is for the locked block.  Releasing the lock or locking again in the
current round keeps this, since the prevotes of the height are of rounds up to the current one. -/
theorem prevote_follows_lock (hr : Reachable env cs) :
    ∀ mi ∈ cs.internalMsgQueue, ∀ vote : Vote, mi.Msg = .VoteMessage vote →
      vote.type = .PrevoteType → vote.height = cs.Height → cs.LockedRound < vote.round →
      ∀ block, cs.LockedBlock = some block → vote.blockID.hash = env.blockHash block := by
  intro mi hmi vote hm ht hh
  have hv : vote ∈ cs.prevotes :=
    List.mem_filterMap.mpr ⟨mi, hmi, by simp [hm, StateMessage.prevote, ht]⟩
  exact hr.inv.prevote_lock vote hv hh

theorem prevote_follows_lock_round1 : ∃ cs cs', NewState polkaEnv fourGenesis = .ok cs ∧
    receiveRoutine polkaEnv cs lockInputs = .ok cs' ∧ cs'.Height = 1 ∧ cs'.LockedRound = 0 ∧
    cs'.LockedBlock.isSome ∧ ownVote .PrevoteType 1 polkaBlockID ∈ cs'.internalMsgQueue ∧
    ∀ mi ∈ cs'.internalMsgQueue, ∀ vote : Vote, mi.Msg = .VoteMessage vote →
      vote.type = .PrevoteType → vote.height = cs'.Height → cs'.LockedRound < vote.round →
      ∀ block, cs'.LockedBlock = some block → vote.blockID.hash = polkaEnv.blockHash block := by
  obtain ⟨cs, cs', h₀, h, hH, -, hLR, hL, -, -, hq⟩ := lock_run
  have hmem : ownVote .PrevoteType 1 polkaBlockID ∈ cs'.internalMsgQueue := by
    rw [hq]
    simp [lockMessages]
  exact ⟨cs, cs', h₀, h, hH, hLR, hL, hmem, prevote_follows_lock polkaEnv
    ((Reachable.init (by decide) (by decide) h₀).receiveRoutine polkaEnv h)⟩

/-- The node is locked only on a block with a polka, and so it is with its valid block: each,
when there is one, hashes to the block that `+2/3` of the prevotes of its round are for. -/
theorem locked_valid_polka (hr : Reachable env cs) :
    (cs.LockedBlock.isSome → ∃ prevotes blockID,
      cs.Prevotes cs.LockedRound = .ok (some prevotes) ∧
        prevotes.TwoThirdsMajority = some blockID ∧ HashesTo env cs.LockedBlock blockID.hash = true) ∧
    (cs.ValidBlock.isSome → ∃ prevotes blockID,
      cs.Prevotes cs.ValidRound = .ok (some prevotes) ∧
        prevotes.TwoThirdsMajority = some blockID ∧ HashesTo env cs.ValidBlock blockID.hash = true) :=
  ⟨exists_prevotes_of_backed env hr.inv.locked_backed,
    exists_prevotes_of_backed env hr.inv.valid_backed⟩

theorem locked_valid_polka_round1 : ∃ cs cs', NewState polkaEnv fourGenesis = .ok cs ∧
    receiveRoutine polkaEnv cs lockInputs = .ok cs' ∧ cs'.LockedBlock.isSome ∧
    cs'.ValidBlock.isSome ∧
    (cs'.LockedBlock.isSome → ∃ prevotes blockID,
      cs'.Prevotes cs'.LockedRound = .ok (some prevotes) ∧
        prevotes.TwoThirdsMajority = some blockID ∧
          HashesTo polkaEnv cs'.LockedBlock blockID.hash = true) ∧
    (cs'.ValidBlock.isSome → ∃ prevotes blockID,
      cs'.Prevotes cs'.ValidRound = .ok (some prevotes) ∧
        prevotes.TwoThirdsMajority = some blockID ∧
          HashesTo polkaEnv cs'.ValidBlock blockID.hash = true) := by
  obtain ⟨cs, cs', h₀, h, -, -, -, hL, -, hV, -⟩ := lock_run
  exact ⟨cs, cs', h₀, h, hL, hV, locked_valid_polka polkaEnv
    ((Reachable.init (by decide) (by decide) h₀).receiveRoutine polkaEnv h)⟩

/-- Past the chain's initial height the node always has the commit of the previous block: its
last commit holds `+2/3` precommits for one block, so `createProposalBlock` never reaches the
case the source marks as one that should not happen. -/
theorem lastCommit_has_maj23 (hr : Reachable env cs) (hh : cs.Height ≠ cs.state.InitialHeight) :
    ∃ lastCommit, cs.LastCommit = some lastCommit ∧ lastCommit.HasTwoThirdsMajority = true := by
  have hm := hr.inv.lastCommit_maj hh
  cases hlc : cs.LastCommit with
  | none => simp [hlc] at hm
  | some lastCommit => exact ⟨lastCommit, rfl, by simpa [hlc] using hm⟩

theorem lastCommit_has_maj23_restart : ∃ cs, NewState restartEnv restartState = .ok cs ∧
    cs.Height ≠ cs.state.InitialHeight ∧
      ∃ lastCommit, cs.LastCommit = some lastCommit ∧ lastCommit.HasTwoThirdsMajority = true := by
  obtain ⟨cs, h₀, hH, hI⟩ := restart_run
  have hh : cs.Height ≠ cs.state.InitialHeight := by
    rw [hH, hI]
    decide
  exact ⟨cs, h₀, hh, lastCommit_has_maj23 restartEnv (.init (by decide) (by decide) h₀) hh⟩

end World

end Consensus

end Tendermint
