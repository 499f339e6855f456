import Tendermint.Blockchain.BpPool

/-!
# The state machine of fast sync v1 and its two goroutines

`BcReactorFSM` (blockchain/v1/reactor_fsm.go) holds the pool and a state (`unknown`,
`waitForPeer`, `waitForBlock`, `finished`); `Handle` takes an event under the FSM's mutex, runs
the state's handler and moves to the state it returns, running the new state's `enter`
(`finished` cleans the pool up).  Two goroutines of the reactor (blockchain/v1/reactor.go) call
it.  `poolRoutine` hands it the status and block responses, the peer removals, the state
timeouts and the request ticks.  `processBlocksRoutine` reads the first two blocks with
`FirstTwoBlocks`, under the mutex; verifies and applies the first with the mutex released; and
reports the result with `Handle(processedBlockEv)`.  So the model's `world` keeps the FSM and
where `processBlocksRoutine` is, and a step is one `Handle` of `poolRoutine`, or one of the two
parts of a round of `processBlocksRoutine`.  Timers, messages to the switch and the logger have
no state here; what the switch answers, the peers' rates, and whether a block verifies are
arguments of the events.

What the model shows: a peer removed while its two blocks are being verified takes them out
of the pool; if the verification fails, the error branch of `processedBlockEv` reads the
height of a block that is no longer there, through a `nil` pointer, and `Handle` panics
(`Handle_panics_after_peer_removal`).
-/

namespace Tendermint.V1

open GoMap ExceptRun

def errNoErrorFinished : String := "fast sync is finished"

def errInvalidEvent : String := "invalid event in current state"

def errTimeoutEventWrongState : String := "timeout event for a state different than the current one"

def errNoTallerPeer : String := "fast sync timed out on waiting for a peer taller than this node"

def errNoPeerResponseForCurrentHeights : String :=
  "fast sync timed out on peer block response for current heights"

def errBlockVerificationFailure : String := "fast sync block verification failure"

def errSwitchRemovesPeer : String := "switch is removing peer"

/-- The states of the FSM. -/
inductive bcState where
  | unknown
  | waitForPeer
  | waitForBlock
  | finished
  deriving DecidableEq, Repr

def bcState.name : bcState → String
  | .unknown => "unknown"
  | .waitForPeer => "waitForPeer"
  | .waitForBlock => "waitForBlock"
  | .finished => "finished"

/-- An event with its data; `makeRequestsEv` carries what the switch answers to each block
request and which peers' rates are too low. -/
inductive bReactorEvent where
  | startFSMEv
  | statusResponseEv (peerID : PeerID) (base height : Int)
  | blockResponseEv (peerID : PeerID) (block : Block) (length : Int)
  | processedBlockEv (err : Option String)
  | makeRequestsEv (maxNumRequests : Int) (sendBlockRequest : PeerID → Int → Option String)
      (slow : PeerID → Bool)
  | stopFSMEv
  | peerRemoveEv (peerID : PeerID) (err : Option String)
  | stateTimeoutEv (stateName : String)

structure BcReactorFSM where
  state : bcState
  pool : BlockPool

def NewFSM (height : Int) : BcReactorFSM := ⟨.unknown, NewBlockPool height⟩

namespace BcReactorFSM

/-- The state after a change of the pool: no peers, the top reached, or still waiting. -/
def afterPool (pool : BlockPool) (err : Option String) : bcState × BlockPool × Option String :=
  if pool.NumPeers = 0 then (.waitForPeer, pool, err)
  else if pool.ReachedMaxHeight then (.finished, pool, err)
  else (.waitForBlock, pool, err)

/-- The handlers of the states: the next state, the pool, and the error. -/
def handle (fsm : BcReactorFSM) (ev : bReactorEvent) : Go (bcState × BlockPool × Option String) :=
  let pool := fsm.pool
  match fsm.state, ev with
  | .unknown, .startFSMEv => pure (.waitForPeer, pool, none)
  | .unknown, .stopFSMEv => pure (.finished, pool, some errNoErrorFinished)
  | .unknown, _ => pure (.unknown, pool, some errInvalidEvent)
  | .waitForPeer, .stateTimeoutEv stateName =>
    if stateName ≠ "waitForPeer" then pure (.waitForPeer, pool, some errTimeoutEventWrongState)
    else pure (.finished, pool, some errNoTallerPeer)
  | .waitForPeer, .statusResponseEv peerID base height => do
    let (pool, err) ← pool.UpdatePeer peerID base height
    if err.isSome ∧ pool.NumPeers = 0 then pure (.waitForPeer, pool, err)
    else pure (.waitForBlock, pool, none)
  | .waitForPeer, .stopFSMEv => pure (.finished, pool, some errNoErrorFinished)
  | .waitForPeer, _ => pure (.waitForPeer, pool, some errInvalidEvent)
  | .waitForBlock, .statusResponseEv peerID base height => do
    let (pool, err) ← pool.UpdatePeer peerID base height
    pure (afterPool pool err)
  | .waitForBlock, .blockResponseEv peerID block length => do
    let (pool, err) ← pool.AddBlock peerID block length
    -- a block that was not asked for, or came from another peer: the peer goes
    let pool ← if err.isSome then pool.RemovePeer peerID else pure pool
    if pool.NumPeers = 0 then pure (.waitForPeer, pool, err) else pure (.waitForBlock, pool, err)
  | .waitForBlock, .processedBlockEv err => do
    let pool ← match err with
      | some _ =>
        -- the log line reads the heights of both blocks, through `nil` if one is missing
        match pool.FirstTwoBlocksAndPeers with
        | (some _, some _, _) => pool.InvalidateFirstTwoBlocks
        | _ => throw (.panic nilDereference)
      | none => pool.ProcessedCurrentHeightBlock
    if pool.ReachedMaxHeight then pure (.finished, pool, none)
    else pure (.waitForBlock, pool, err)
  | .waitForBlock, .peerRemoveEv peerID _ => do
    let pool ← pool.RemovePeer peerID
    pure (afterPool pool none)
  | .waitForBlock, .makeRequestsEv maxNumRequests sendBlockRequest slow => do
    let pool ← pool.MakeNextRequests sendBlockRequest slow maxNumRequests
    pure (.waitForBlock, pool, none)
  | .waitForBlock, .stateTimeoutEv stateName =>
    if stateName ≠ "waitForBlock" then pure (.waitForBlock, pool, some errTimeoutEventWrongState)
    else do
      let pool ← pool.RemovePeerAtCurrentHeights
      if pool.NumPeers = 0 then pure (.waitForPeer, pool, some errNoPeerResponseForCurrentHeights)
      else if pool.ReachedMaxHeight then pure (.finished, pool, none)
      else pure (.waitForBlock, pool, some errNoPeerResponseForCurrentHeights)
  | .waitForBlock, .stopFSMEv => pure (.finished, pool, some errNoErrorFinished)
  | .waitForBlock, _ => pure (.waitForBlock, pool, some errInvalidEvent)
  | .finished, _ => pure (.finished, pool, none)

/-- `Handle`: the handler, then the move to the next state; entering `finished` cleans the pool
up. -/
def Handle (fsm : BcReactorFSM) (ev : bReactorEvent) : Go (BcReactorFSM × Option String) := do
  let (next, pool, err) ← fsm.handle ev
  if next ≠ fsm.state ∧ next = .finished then pure (⟨next, pool.Cleanup⟩, err)
  else pure (⟨next, pool⟩, err)

/-- `FirstTwoBlocks`. -/
def FirstTwoBlocks (fsm : BcReactorFSM) : Option (Block × Block) :=
  match fsm.pool.FirstTwoBlocksAndPeers with
  | (some first, some second, none) => some (first.block, second.block)
  | _ => none

end BcReactorFSM

/-- Where `processBlocksRoutine` is: between rounds, or verifying the two blocks it read. -/
inductive procPhase where
  | idle
  | verifying (first second : Block)

/-- The FSM and `processBlocksRoutine`. -/
structure world where
  fsm : BcReactorFSM
  proc : procPhase

/-- A `Handle` of `poolRoutine`, or a part of a round of `processBlocksRoutine`. -/
inductive Event where
  | handle (ev : bReactorEvent)
  /-- `processBlock` reads the first two blocks -/
  | fetch
  /-- the first block verified against the second's commit, or not; the result goes to the FSM -/
  | report (verified : Bool)

/-- One step; `none` when it cannot be taken, or panics. -/
def step (w : world) : Event → Option world
  | .handle ev =>
    match w.fsm.Handle ev with
    | .ok (fsm, _) => some { w with fsm }
    | .error _ => none
  | .fetch =>
    match w.proc, w.fsm.FirstTwoBlocks with
    | .idle, some (first, second) => some { w with proc := .verifying first second }
    | _, _ => none
  | .report verified =>
    match w.proc with
    | .verifying _ _ =>
      let err := if verified then none else some errBlockVerificationFailure
      match w.fsm.Handle (.processedBlockEv err) with
      | .ok (fsm, _) => some ⟨fsm, .idle⟩
      | .error _ => none
    | .idle => none

def run (w : world) : List Event → Option world
  | [] => some w
  | ev :: evs => (step w ev).bind fun w => run w evs

/-! ## A peer removed while its blocks are verified -/

namespace BcReactorFSM

lemma FirstTwoBlocks_some {fsm : BcReactorFSM} {first second : Block}
    (h : fsm.FirstTwoBlocks = some (first, second)) :
    ∃ d, fsm.pool.FirstTwoBlocksAndPeers.1 = some d ∧ d.block = first := by
  unfold FirstTwoBlocks at h
  split at h
  · rename_i d₁ d₂ heq
    cases h
    exact ⟨d₁, by rw [heq], rfl⟩
  · cases h

/-- A removal in `waitForBlock` that leaves a peer, and the top not reached, stays there. -/
lemma Handle_peerRemoveEv {fsm : BcReactorFSM} {peerID : PeerID} {err : Option String}
    {pool' : BlockPool} (hs : fsm.state = .waitForBlock)
    (hr : fsm.pool.RemovePeer peerID = .ok pool') (hn : pool'.NumPeers ≠ 0)
    (hm : pool'.ReachedMaxHeight = false) :
    fsm.Handle (.peerRemoveEv peerID err) = .ok (⟨.waitForBlock, pool'⟩, none) := by
  simp [Handle, handle, hs, hr, afterPool, hn, hm]
  rfl

/-- A failed verification reported with the first block missing reads it through `nil`. -/
lemma Handle_processedBlockEv_panics {fsm : BcReactorFSM} (hs : fsm.state = .waitForBlock)
    (hf : fsm.pool.FirstTwoBlocksAndPeers.1 = none) (e : String) :
    Panics (fsm.Handle (.processedBlockEv (some e))) := by
  refine ⟨nilDereference, ?_⟩
  unfold Handle handle
  rw [hs]
  dsimp only
  generalize fsm.pool.FirstTwoBlocksAndPeers = r at hf ⊢
  obtain ⟨r₁, r₂, r₃⟩ := r
  dsimp only at hf
  subst hf
  rfl

end BcReactorFSM

open BlockPool BcReactorFSM in
/-- From a state where `processBlocksRoutine` can fetch the two blocks, the first delivered by
`p`, and a peer `q` taller than the pool stays when `p` goes: `poolRoutine` removes `p` while
the blocks are verified, and a failed verification then panics. -/
theorem Handle_panics_after_peer_removal (w : world) (p q : PeerID) (first second : Block)
    (err : Option String) (hstate : w.fsm.state = .waitForBlock) (hidle : w.proc = .idle)
    (hfetch : w.fsm.FirstTwoBlocks = some (first, second))
    (hp : w.fsm.pool.blocks.lookup w.fsm.pool.Height = some p)
    (hpID : (w.fsm.pool.peers.lookup p).map BpPeer.ID = some p) (hpq : p ≠ q)
    (hq : ∃ pq, w.fsm.pool.peers.lookup q = some pq ∧
      w.fsm.pool.Height < pq.Height ∧ pq.Height ≤ w.fsm.pool.MaxPeerHeight)
    (hempty : w.fsm.pool.peers.lookup "" = none) :
    ∃ w', run w [.fetch, .handle (.peerRemoveEv p err)] = some w' ∧
      w'.proc = .verifying first second ∧ w'.fsm.state = .waitForBlock ∧
      w'.fsm.pool.blocks.lookup w'.fsm.pool.Height = none ∧
      Panics (w'.fsm.Handle (.processedBlockEv (some errBlockVerificationFailure))) ∧
      step w' (.report false) = none := by
  -- the peer that delivered the first block holds it under its own ID
  obtain ⟨d, hd, rfl⟩ := FirstTwoBlocks_some hfetch
  obtain ⟨hdpeer, hdblock⟩ := FirstTwoBlocksAndPeers_first_some hd
  rw [hp, Option.getD_some] at hdpeer
  have hid : d.peer.ID = p := by simpa [hdpeer] using hpID
  -- `poolRoutine` removes it while the blocks are verified
  obtain ⟨pool', hr, hrem⟩ := RemovePeer_ok hdpeer hid
  obtain ⟨pq, hqlook, hHq, hqmax⟩ := hq
  have hq' : pool'.peers.lookup q = some pq := (hrem.others q (Ne.symm hpq)).trans hqlook
  have hnum : pool'.NumPeers ≠ 0 :=
    (List.length_pos_of_mem (AList.mem_lookup_iff.mp hq')).ne'
  have hmax : pool'.ReachedMaxHeight = false := by
    have hle := hrem.underMax q pq (Ne.symm hpq) hqlook hqmax
    simp only [ReachedMaxHeight, hrem.height, decide_eq_false_iff_not]
    omega
  -- the first block has no peer any more, and no peer has the empty ID
  have hnone : pool'.blocks.lookup pool'.Height = none := by
    rw [hrem.height]
    exact hrem.unasked _ (AList.lookup_isSome.mp (by rw [hdblock]; rfl))
  have hpe : p ≠ "" := by
    rintro rfl
    rw [hempty] at hdpeer
    cases hdpeer
  have hempty' : pool'.peers.lookup "" = none := (hrem.others "" (Ne.symm hpe)).trans hempty
  have hpanic : Panics (BcReactorFSM.Handle ⟨.waitForBlock, pool'⟩
      (.processedBlockEv (some errBlockVerificationFailure))) :=
    Handle_processedBlockEv_panics rfl (FirstTwoBlocksAndPeers_first_none hnone hempty') _
  refine ⟨⟨⟨.waitForBlock, pool'⟩, .verifying d.block second⟩, ?_, rfl, rfl, hnone, hpanic, ?_⟩
  · simp [run, step, hidle, hfetch, Handle_peerRemoveEv hstate hr hnum hmax]
  · obtain ⟨msg, hmsg⟩ := hpanic
    simp [step, hmsg]

/-- Peer `p` delivers the blocks at heights 1 and 2, and `q`, taller, stays when `p` goes. -/
theorem Handle_panics_after_peer_removal_fastSync :
    ∃ w, run ⟨NewFSM 1, .idle⟩ [.handle .startFSMEv, .handle (.statusResponseEv "p" 1 2),
        .handle (.makeRequestsEv maxNumRequests (fun _ _ => none) (fun _ => false)),
        .handle (.blockResponseEv "p" ⟨1⟩ 10), .handle (.blockResponseEv "p" ⟨2⟩ 10),
        .handle (.statusResponseEv "q" 1 3)] = some w ∧
      ∃ w', run w [.fetch, .handle (.peerRemoveEv "p" (some errSwitchRemovesPeer))] = some w' ∧
        w'.proc = .verifying ⟨1⟩ ⟨2⟩ ∧ w'.fsm.state = .waitForBlock ∧
        w'.fsm.pool.blocks.lookup w'.fsm.pool.Height = none ∧
        Panics (w'.fsm.Handle (.processedBlockEv (some errBlockVerificationFailure))) ∧
        step w' (.report false) = none :=
  ⟨_, rfl, Handle_panics_after_peer_removal _ "p" "q" ⟨1⟩ ⟨2⟩ _ rfl rfl (by decide) (by decide)
    (by decide) (by decide) ⟨_, rfl, by decide, by decide⟩ (by decide)⟩

end Tendermint.V1
