import Tendermint.Lib.GoMap
import Tendermint.Types.Block

/-!
# The fast-sync scheduler (blockchain/v2)

`scheduler` decides which block to request from which peer while a node catches up.  Its state
is four maps kept in step: `blockStates` (the window of heights being fetched), `pendingBlocks`
and `pendingTime` (the request for each pending height: to whom, and when) and `receivedBlocks`
(who delivered each received height), beside the peers with their ranges.  `handle` takes one
input event and returns one output event; the reactor feeds it events one at a time, so a run
is the fold of `handle` over a list of events (`run`).

Go maps are association lists with unique keys (`GoMap.Map`); each loop over a map in the
source is a fold over its entries, and the model's results do not depend on the order (every
loop either sorts its result, takes a minimum or maximum, or updates each entry on its own).
`time.Now()` is the argument `now` of the handlers that read it.

`SchedulerInvariant` proves the bookkeeping these maps keep: it holds after `newScheduler` and
after a first `bcResetState`, every handler except `bcResetState` keeps it, so it holds along
every run that resets only at its start, and height never decreases along such a run.  It bounds
requests by the peer's reported `height` but not by its `base`: a later status response may raise
the base over a pending height, and a later reset moves the window anywhere.
-/

namespace Tendermint.V2

/-- `p2p.ID`. -/
abbrev PeerID := String

/-- `[]byte(id)`, which `PeerByID` compares. -/
def peerIDBytes (id : PeerID) : Bytes := id.toUTF8.toList

/-- `time.Duration`, in nanoseconds. -/
abbrev Duration := Int

/-- `time.Second`. -/
def Second : Duration := 1000000000

inductive blockState where
  | blockStateUnknown
  | blockStateNew
  | blockStatePending
  | blockStateReceived
  | blockStateProcessed
  deriving DecidableEq, Repr

/-- `blockState.String`. -/
def blockState.String : blockState → String
  | .blockStateUnknown => "Unknown"
  | .blockStateNew => "New"
  | .blockStatePending => "Pending"
  | .blockStateReceived => "Received"
  | .blockStateProcessed => "Processed"

inductive peerState where
  | peerStateNew
  | peerStateReady
  | peerStateRemoved
  deriving DecidableEq, Repr

/-- `peerState.String`. -/
def peerState.String : peerState → String
  | .peerStateNew => "New"
  | .peerStateReady => "Ready"
  | .peerStateRemoved => "Removed"

structure scPeer where
  peerID : PeerID
  state : peerState
  base : Int
  height : Int
  lastTouched : Time
  lastRate : Int
  deriving DecidableEq, Repr

def newScPeer (peerID : PeerID) : scPeer :=
  { peerID := peerID, state := .peerStateNew, base := -1, height := -1, lastTouched := 0,
    lastRate := 0 }

structure scheduler where
  initHeight : Int
  height : Int
  lastAdvance : Time
  syncTimeout : Duration
  peers : GoMap.Map PeerID scPeer
  peerTimeout : Duration
  minRecvRate : Int
  targetPending : Int
  blockStates : GoMap.Map Int blockState
  pendingBlocks : GoMap.Map Int PeerID
  pendingTime : GoMap.Map Int Time
  receivedBlocks : GoMap.Map Int PeerID
  deriving DecidableEq, Repr

def newScheduler (initHeight : Int) (startTime : Time) : scheduler :=
  { initHeight := initHeight, lastAdvance := startTime, syncTimeout := 60 * Second,
    height := initHeight + 1, blockStates := ∅, peers := ∅, pendingBlocks := ∅,
    pendingTime := ∅, receivedBlocks := ∅, targetPending := 10, peerTimeout := 15 * Second,
    minRecvRate := 0 }

/-- The events the scheduler is sent (the `case`s of `handle`); `bcResetState` carries the one
field of `state.State` the scheduler reads, and `unknown` is any other event. -/
inductive Event where
  | bcResetState (lastBlockHeight : Int)
  | bcStatusResponse (time : Time) (peerID : PeerID) (base height : Int)
  | bcBlockResponse (time : Time) (peerID : PeerID) (size : Int) (block : Block)
  | bcNoBlockResponse (time : Time) (peerID : PeerID) (height : Int)
  | rTrySchedule (time : Time)
  | bcAddNewPeer (peerID : PeerID)
  | bcRemovePeer (peerID : PeerID)
  | rTryPrunePeer (time : Time)
  | pcBlockProcessed (height : Int) (peerID : PeerID)
  | pcBlockVerificationFailure (height : Int) (firstPeerID secondPeerID : PeerID)
  | unknown (description : String)

/-- The events the scheduler emits. -/
inductive OutEvent where
  | noOp
  | scFinishedEv (reason : String)
  | scBlockRequest (peerID : PeerID) (height : Int)
  | scBlockReceived (peerID : PeerID) (block : Block)
  | scPeerError (peerID : PeerID) (reason : String)
  | scPeersPruned (peers : List PeerID)
  | scSchedulerFail (reason : String)

namespace scheduler

/-! ## Peers and block states -/

def ensurePeer (sc : scheduler) (peerID : PeerID) : scheduler × scPeer :=
  match sc.peers.lookup peerID with
  | some peer => (sc, peer)
  | none => ({ sc with peers := sc.peers.insert peerID (newScPeer peerID) }, newScPeer peerID)

def touchPeer (sc : scheduler) (peerID : PeerID) (time : Time) : Except String scheduler :=
  match sc.peers.lookup peerID with
  | none => throw ("couldn't find peer " ++ peerID)
  | some peer =>
    if peer.state ≠ .peerStateReady then
      throw ("tried to touch peer in state " ++ peer.state.String ++ ", must be Ready")
    else pure { sc with peers := sc.peers.insert peerID { peer with lastTouched := time } }

def setStateAtHeight (sc : scheduler) (height : Int) (state : blockState) : scheduler :=
  { sc with blockStates := sc.blockStates.insert height state }

def getStateAtHeight (sc : scheduler) (height : Int) : blockState :=
  if height < sc.height then .blockStateProcessed
  else match sc.blockStates.lookup height with
    | some state => state
    | none => .blockStateUnknown

/-- The highest `height` of a Ready peer, or the last processed height. -/
def maxHeight (sc : scheduler) : Int :=
  sc.peers.entries.foldl (fun max e =>
    if e.2.state ≠ .peerStateReady then max
    else if max < e.2.height then e.2.height else max) (sc.height - 1)

/-- The loop of `addNewBlocks` at `i`, with `n` heights left before `targetPending + height`. -/
def addNewBlocksFrom : Nat → Int → scheduler → scheduler
  | 0, _, sc => sc
  | n + 1, i, sc =>
    if i > sc.maxHeight then sc
    else addNewBlocksFrom n (i + 1)
      (if sc.getStateAtHeight i = .blockStateUnknown then sc.setStateAtHeight i .blockStateNew
       else sc)

def addNewBlocks (sc : scheduler) : scheduler :=
  if (sc.blockStates.entries.length : Int) ≥ sc.targetPending then sc
  else addNewBlocksFrom sc.targetPending.toNat sc.height sc

/-- The body of the first loop of `removePeer`, at the entry `e` of `pendingBlocks`. -/
def removePendingAt (peerID : PeerID) (sc : scheduler) (e : Σ _ : Int, PeerID) : scheduler :=
  if e.2 = peerID then
    let sc := sc.setStateAtHeight e.1 .blockStateNew
    { sc with pendingTime := sc.pendingTime.erase e.1,
              pendingBlocks := sc.pendingBlocks.erase e.1 }
  else sc

/-- The first loop of `removePeer`: every height pending from `peerID` is New again. -/
def removePending (peerID : PeerID) (sc : scheduler) : scheduler :=
  sc.pendingBlocks.entries.foldl (removePendingAt peerID) sc

/-- The body of the second loop of `removePeer`, at the entry `e` of `receivedBlocks`. -/
def removeReceivedAt (peerID : PeerID) (sc : scheduler) (e : Σ _ : Int, PeerID) : scheduler :=
  if e.2 = peerID then
    let sc := sc.setStateAtHeight e.1 .blockStateNew
    { sc with receivedBlocks := sc.receivedBlocks.erase e.1 }
  else sc

/-- The second loop of `removePeer`: every height received from `peerID` is New again. -/
def removeReceived (peerID : PeerID) (sc : scheduler) : scheduler :=
  sc.receivedBlocks.entries.foldl (removeReceivedAt peerID) sc

/-- The highest `height` of a Ready peer other than `peerID`, and at least `0`. -/
def maxPeerHeight (peers : GoMap.Map PeerID scPeer) (peerID : PeerID) : Int :=
  peers.entries.foldl (fun max e =>
    if e.2.state ≠ .peerStateReady then max
    else if e.2.peerID ≠ peerID ∧ e.2.height > max then e.2.height else max) 0

def removePeer (sc : scheduler) (peerID : PeerID) : Except String scheduler :=
  match sc.peers.lookup peerID with
  | none => pure sc
  | some peer =>
    if peer.state = .peerStateRemoved then
      throw ("tried to remove peer " ++ peerID ++ " in peerStateRemoved")
    else
      let sc := removeReceived peerID (removePending peerID sc)
      -- the removed peer's requests are gone; drop the heights no other peer can serve
      let removed := { peer with state := .peerStateRemoved }
      let sc := { sc with peers := sc.peers.insert peerID removed }
      let max := maxPeerHeight sc.peers peer.peerID
      pure { sc with blockStates := GoMap.filterKeys sc.blockStates fun h => !(h > max) }

/-- `_ = sc.removePeer(peerID)`: the error is dropped, the state kept. -/
def removePeerIgnoringError (sc : scheduler) (peerID : PeerID) : scheduler :=
  match sc.removePeer peerID with
  | .ok sc' => sc'
  | .error _ => sc

def setPeerRange (sc : scheduler) (peerID : PeerID) (base height : Int) :
    scheduler × Option String :=
  let (sc, peer) := sc.ensurePeer peerID
  if peer.state = .peerStateRemoved then
    (sc, some "cannot set peer height for a peer in peerStateRemoved")
  else if height < peer.height then
    (sc.removePeerIgnoringError peerID, some ("cannot move peer height lower. from " ++
      toString peer.height ++ " to " ++ toString height))
  else if base > height then
    (sc, some "cannot set peer base higher than its height")
  else
    let peer := { peer with base := base, height := height, state := .peerStateReady }
    let sc := { sc with peers := sc.peers.insert peerID peer }
    (sc.addNewBlocks, none)

def getPeersWithHeight (sc : scheduler) (height : Int) : List PeerID :=
  sc.peers.entries.filterMap fun e =>
    if e.2.state ≠ .peerStateReady then none
    else if e.2.base ≤ height ∧ e.2.height ≥ height then some e.2.peerID else none

/-- `PeerByID.Less` (or equal): `bytes.Compare` of the IDs' bytes. -/
def PeerByIDLe (a b : PeerID) : Prop := bytesCompare (peerIDBytes a) (peerIDBytes b) ≠ .gt

instance : DecidableRel PeerByIDLe := fun _ _ => inferInstanceAs (Decidable (_ ≠ _))

/-- `sort.Sort(PeerByID(peers))`; the IDs are distinct, so any sort gives this order. -/
def sortPeerByID (peers : List PeerID) : List PeerID := peers.insertionSort PeerByIDLe

def prunablePeers (sc : scheduler) (peerTimout : Duration) (minRecvRate : Int) (now : Time) :
    List PeerID :=
  sortPeerByID <| sc.peers.entries.filterMap fun e =>
    if e.2.state ≠ .peerStateReady then none
    else if now - e.2.lastTouched > peerTimout ∨ e.2.lastRate < minRecvRate then some e.1
    else none

def markReceived (sc : scheduler) (peerID : PeerID) (height size : Int) (now : Time) :
    Except String scheduler :=
  match sc.peers.lookup peerID with
  | none => throw ("received block from unknown peer " ++ peerID)
  | some peer =>
    if peer.state ≠ .peerStateReady then
      throw ("cannot receive blocks from not ready peer " ++ peerID)
    else if sc.getStateAtHeight height ≠ .blockStatePending ∨
        (sc.pendingBlocks.lookup height).getD "" ≠ peerID then
      throw ("received block " ++ toString height ++ " from peer " ++ peerID ++
        " without being requested")
    else
      let pendingTime := sc.pendingTime.lookup height
      if pendingTime.isNone ∨ now - pendingTime.getD 0 ≤ 0 then
        throw ("clock error: block " ++ toString height ++ " received at " ++
          toString (pendingTime.getD 0) ++ " but requested at " ++ toString now)
      else
        let peer := { peer with lastRate := size.tdiv (now - pendingTime.getD 0) }
        let sc := { sc with peers := sc.peers.insert peerID peer }
        let sc := sc.setStateAtHeight height .blockStateReceived
        pure { sc with pendingBlocks := sc.pendingBlocks.erase height,
                       pendingTime := sc.pendingTime.erase height,
                       receivedBlocks := sc.receivedBlocks.insert height peerID }

def markPending (sc : scheduler) (peerID : PeerID) (height : Int) (time : Time) :
    Except String scheduler :=
  let state := sc.getStateAtHeight height
  if state ≠ .blockStateNew then
    throw ("block " ++ toString height ++ " should be in blockStateNew but is " ++ state.String)
  else match sc.peers.lookup peerID with
    | none => throw ("cannot find peer " ++ peerID)
    | some peer =>
      if peer.state ≠ .peerStateReady then
        throw ("cannot schedule " ++ toString height ++ " from " ++ peerID ++ " in " ++
          peer.state.String)
      else if height > peer.height then
        throw ("cannot request height " ++ toString height ++ " from peer " ++ peerID ++
          " that is at height " ++ toString peer.height)
      else if height < peer.base then
        throw ("cannot request height " ++ toString height ++ " for peer " ++ peerID ++
          " with base " ++ toString peer.base)
      else
        let sc := sc.setStateAtHeight height .blockStatePending
        pure { sc with pendingBlocks := sc.pendingBlocks.insert height peerID,
                       pendingTime := sc.pendingTime.insert height time }

/-- `markProcessed`; `now` is `time.Now()`, recorded before the check. -/
def markProcessed (sc : scheduler) (height : Int) (now : Time) : scheduler × Option String :=
  let sc := { sc with lastAdvance := now }
  let state := sc.getStateAtHeight height
  if state ≠ .blockStateReceived then
    (sc, some ("cannot mark height " ++ toString height ++ " received from block state " ++
      state.String))
  else
    let sc := { sc with height := sc.height + 1,
                        receivedBlocks := sc.receivedBlocks.erase height,
                        blockStates := sc.blockStates.erase height }
    (sc.addNewBlocks, none)

def allBlocksProcessed (sc : scheduler) : Bool :=
  if sc.peers.entries.length = 0 then false else sc.height ≥ sc.maxHeight

/-- The lowest New height, or `-1`. -/
def nextHeightToSchedule (sc : scheduler) : Int :=
  let min := sc.blockStates.entries.foldl (fun min e =>
    if e.2 = .blockStateNew ∧ e.1 < min then e.1 else min) MaxInt64
  if min = MaxInt64 then -1 else min

def pendingFrom (sc : scheduler) (peerID : PeerID) : List Int :=
  sc.pendingBlocks.entries.filterMap fun e => if e.2 = peerID then some e.1 else none

/-- The peers holding `height`, grouped by their number of pending requests. -/
def pendingFromMap (sc : scheduler) (peers : List PeerID) : GoMap.Map Nat (List PeerID) :=
  peers.foldl (fun m peerID =>
    let numPending := (sc.pendingFrom peerID).length
    m.insert numPending ((m.lookup numPending).getD [] ++ [peerID])) ∅

/-- Of the peers holding `height`, the one with the fewest pending requests, ties going to
the least ID. -/
def selectPeer (sc : scheduler) (height : Int) : Go PeerID :=
  let peers := sc.getPeersWithHeight height
  if peers.length = 0 then throw (.err ("cannot find peer for height " ++ toString height))
  else
    let pendingFrom := sc.pendingFromMap peers
    let minPending := pendingFrom.entries.foldl (fun min e =>
      if (e.1 : Int) < min then (e.1 : Int) else min) MaxInt64
    match sortPeerByID ((pendingFrom.lookup minPending.toNat).getD []) with
    | best :: _ => pure best
    | [] => throw (.panic "runtime error: index out of range [0] with length 0")

/-! ## Handlers -/

def handleBlockResponse (sc : scheduler) (time : Time) (peerID : PeerID) (size : Int)
    (block : Block) : OutEvent × scheduler :=
  match sc.touchPeer peerID time with
  | .error err => (.scPeerError peerID err, sc)
  | .ok sc =>
    match sc.markReceived peerID block.header.height size time with
    | .error err => (.scPeerError peerID err, sc.removePeerIgnoringError peerID)
    | .ok sc => (.scBlockReceived peerID block, sc)

def handleNoBlockResponse (sc : scheduler) (peerID : PeerID) (height : Int) :
    OutEvent × scheduler :=
  if sc.peers.entries.length = 0 then (.noOp, sc)
  else match sc.peers.lookup peerID with
    | none => (.noOp, sc)
    | some peer =>
      if peer.state = .peerStateRemoved then (.noOp, sc)
      else (.scPeerError peerID ("peer " ++ peerID ++ " with base " ++ toString peer.base ++
          " height " ++ toString peer.height ++ " claims no block for " ++ toString height),
        sc.removePeerIgnoringError peerID)

def handleBlockProcessed (sc : scheduler) (height : Int) (now : Time) :
    Go (OutEvent × scheduler) :=
  if height ≠ sc.height then
    throw (.panic ("processed height " ++ toString height ++ " but expected height " ++
      toString sc.height))
  else
    match sc.markProcessed height now with
    | (sc, some err) => pure (.scSchedulerFail err, sc)
    | (sc, none) =>
      if sc.allBlocksProcessed then pure (.scFinishedEv "processed all blocks", sc)
      else pure (.noOp, sc)

def handleBlockProcessError (sc : scheduler) (firstPeerID secondPeerID : PeerID) :
    OutEvent × scheduler :=
  if sc.peers.entries.length = 0 then (.noOp, sc)
  else
    let sc := sc.removePeerIgnoringError firstPeerID
    let sc := if firstPeerID ≠ secondPeerID then sc.removePeerIgnoringError secondPeerID
      else sc
    if sc.allBlocksProcessed then (.scFinishedEv "error on last block", sc) else (.noOp, sc)

def handleAddNewPeer (sc : scheduler) (peerID : PeerID) : OutEvent × scheduler :=
  (.noOp, (sc.ensurePeer peerID).1)

def handleRemovePeer (sc : scheduler) (peerID : PeerID) : OutEvent × scheduler :=
  match sc.removePeer peerID with
  | .error err => (.scSchedulerFail err, sc)
  | .ok sc =>
    if sc.allBlocksProcessed then (.scFinishedEv "removed peer", sc) else (.noOp, sc)

/-- The removals of `handleTryPrunePeer`; each peer was Ready when listed. -/
def removePrunable (sc : scheduler) (peers : List PeerID) : Go scheduler :=
  peers.foldlM (fun sc peerID =>
    match sc.removePeer peerID with
    | .error _ => throw (.panic "scheduler data corruption")
    | .ok sc => pure sc) sc

/-- The first step of `handleTryPrunePeer`: the peer asked for the block at `height` and silent
past `peerTimeout` is removed. -/
def pruneSilentPeer (sc : scheduler) (now : Time) : scheduler :=
  match sc.pendingTime.lookup sc.height with
  | some timeHeightAsked =>
    if now - timeHeightAsked > sc.peerTimeout then
      sc.removePeerIgnoringError ((sc.pendingBlocks.lookup sc.height).getD "")
    else sc
  | none => sc

/-- `handleTryPrunePeer`; `now` is `time.Now()`, which `time.Since` reads. -/
def handleTryPrunePeer (sc : scheduler) (time now : Time) : Go (OutEvent × scheduler) :=
  let sc := sc.pruneSilentPeer now
  let prunablePeers := sc.prunablePeers sc.peerTimeout sc.minRecvRate time
  if prunablePeers.length = 0 then pure (.noOp, sc)
  else do
    let sc ← sc.removePrunable prunablePeers
    if sc.allBlocksProcessed then pure (.scFinishedEv "after try prune", sc)
    else pure (.scPeersPruned prunablePeers, sc)

def handleResetState (sc : scheduler) (lastBlockHeight : Int) (now : Time) :
    OutEvent × scheduler :=
  let sc := { sc with initHeight := lastBlockHeight + 1, height := lastBlockHeight + 1,
                      lastAdvance := now }
  (.noOp, sc.addNewBlocks)

def handleTrySchedule (sc : scheduler) (time now : Time) : Go (OutEvent × scheduler) :=
  if now - sc.lastAdvance > sc.syncTimeout then pure (.scFinishedEv "timeout, no advance", sc)
  else
    let nextHeight := sc.nextHeightToSchedule
    if nextHeight = -1 then pure (.noOp, sc)
    else match sc.selectPeer nextHeight with
      | .error (.err err) => pure (.scSchedulerFail err, sc)
      | .error (.panic p) => throw (.panic p)
      | .ok bestPeerID =>
        match sc.markPending bestPeerID nextHeight time with
        | .error err => pure (.scSchedulerFail err, sc)
        | .ok sc => pure (.scBlockRequest bestPeerID nextHeight, sc)

def handleStatusResponse (sc : scheduler) (peerID : PeerID) (base height : Int) :
    OutEvent × scheduler :=
  match sc.setPeerRange peerID base height with
  | (sc, some err) => (.scPeerError peerID err, sc)
  | (sc, none) => (.noOp, sc)

/-- `handle`, with `now` the clock at the call. -/
def handle (sc : scheduler) (now : Time) : Event → Go (OutEvent × scheduler)
  | .bcResetState lastBlockHeight => pure (sc.handleResetState lastBlockHeight now)
  | .bcStatusResponse _ peerID base height => pure (sc.handleStatusResponse peerID base height)
  | .bcBlockResponse time peerID size block =>
    pure (sc.handleBlockResponse time peerID size block)
  | .bcNoBlockResponse _ peerID height => pure (sc.handleNoBlockResponse peerID height)
  | .rTrySchedule time => sc.handleTrySchedule time now
  | .bcAddNewPeer peerID => pure (sc.handleAddNewPeer peerID)
  | .bcRemovePeer peerID => pure (sc.handleRemovePeer peerID)
  | .rTryPrunePeer time => sc.handleTryPrunePeer time now
  | .pcBlockProcessed height _ => sc.handleBlockProcessed height now
  | .pcBlockVerificationFailure _ firstPeerID secondPeerID =>
    pure (sc.handleBlockProcessError firstPeerID secondPeerID)
  | .unknown description => pure (.scSchedulerFail ("unknown event " ++ description), sc)

end scheduler

/-- The events handled one after another, each with the clock at its handling; a panic ends
the run. -/
def run (sc : scheduler) : List (Time × Event) → Go (List OutEvent × scheduler)
  | [] => pure ([], sc)
  | (now, ev) :: evs => do
    let (out, sc) ← sc.handle now ev
    let (outs, sc) ← run sc evs
    pure (out :: outs, sc)

end Tendermint.V2
