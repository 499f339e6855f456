import Tendermint.Lib.GoMap
import Tendermint.Types.Basic

/-!
# The fast-sync block pool (blockchain/v0)

`BlockPool` keeps one requester per height from `height` on, each fetching its block from a
peer, and the peers with the ranges they reported.  Two kinds of actor change it: the reactor
and the pool's own routines, through the methods that take `pool.mtx` (`SetPeerRange`,
`AddBlock`, `RemovePeer`, `PopRequest`, `RedoRequest`, `makeNextRequester`, the timeout
handlers), and each requester's goroutine, `requestRoutine`, which picks a peer, records it,
and waits for a block or for a redo.  A run interleaves these arbitrarily, so the model's
`Event` has one constructor per locked method and one per step of a requester's loop, and a
run is the fold of `step` over a list of events.

A requester's goroutine is its `phase`: looking for a peer (`pickPeer`), holding the peer that
`pickIncrAvailablePeer` returned but not yet recorded (`picked`), or in `WAIT_LOOP`.  Its
`redoCh` is the buffered channel of capacity one that `redo` sends on without blocking.
Peer identities are `p2p.ID`s of connected peers, which `validateID` requires to be non-empty,
so a requester with no peer holds `none` where the source holds `""`.  Blocks carry their
height and, as `Data`, everything else, which the pool only passes on.  The flow-rate
monitors and timers are left out: a timeout is the event that sets `didTimeout`, and the
monitor's verdict in `removeTimedoutPeers` is the list of peers found too slow.

`PoolInvariant` proves what the pool keeps along every run.
-/

namespace Tendermint.V0

/-- `p2p.ID` of a connected peer: never empty, as `validateID` checks. -/
abbrev PeerID := {id : String // id ≠ ""}

structure Block where
  Height : Int
  Data : Bytes
  deriving DecidableEq, Repr

/-- `maxPendingRequestsPerPeer`. -/
def maxPendingRequestsPerPeer : Int := 20

structure bpPeer where
  didTimeout : Bool
  numPending : Int
  height : Int
  base : Int
  id : PeerID
  deriving DecidableEq

def newBPPeer (peerID : PeerID) (base height : Int) : bpPeer :=
  { didTimeout := false, numPending := 0, height, base, id := peerID }

/-- `incrPending`, without the monitor and timer it restarts. -/
def bpPeer.incrPending (peer : bpPeer) : bpPeer := { peer with numPending := peer.numPending + 1 }

/-- `decrPending`, without the monitor and timer it updates. -/
def bpPeer.decrPending (peer : bpPeer) : bpPeer := { peer with numPending := peer.numPending - 1 }

/-- Where a requester's goroutine is in `requestRoutine`. -/
inductive requestPhase where
  /-- In `PICK_PEER_LOOP`. -/
  | pickPeer
  /-- `pickIncrAvailablePeer` returned this peer; `bpr.peerID` is not yet set. -/
  | picked (peer : PeerID)
  /-- In `WAIT_LOOP`. -/
  | waitLoop
  deriving DecidableEq

structure bpRequester where
  height : Int
  peerID : Option PeerID
  block : Option Block
  redoCh : Option PeerID
  phase : requestPhase
  deriving DecidableEq

def newBPRequester (height : Int) : bpRequester :=
  { height, peerID := none, block := none, redoCh := none, phase := .pickPeer }

/-- `setBlock`: accepted only from the assigned peer, and only once. -/
def bpRequester.setBlock (bpr : bpRequester) (block : Block) (peerID : PeerID) :
    Option bpRequester :=
  if bpr.block.isSome || bpr.peerID != some peerID then none
  else some { bpr with block := some block }

/-- `redo`: a send that does nothing when a redo is already waiting. -/
def bpRequester.redo (bpr : bpRequester) (peerID : PeerID) : bpRequester :=
  match bpr.redoCh with
  | none => { bpr with redoCh := some peerID }
  | some _ => bpr

/-- `reset`, with what it adds to the pool's `numPending`. -/
def bpRequester.reset (bpr : bpRequester) : bpRequester × Int :=
  ({ bpr with peerID := none, block := none }, if bpr.block.isSome then 1 else 0)

structure BlockPool where
  requesters : GoMap.Map Int bpRequester
  height : Int
  peers : GoMap.Map PeerID bpPeer
  maxPeerHeight : Int
  numPending : Int

def NewBlockPool (start : Int) : BlockPool :=
  { requesters := ∅, height := start, peers := ∅, maxPeerHeight := 0, numPending := 0 }

namespace BlockPool

/-- `updateMaxPeerHeight`: the greatest peer height, and `0` without peers. -/
def updateMaxPeerHeight (pool : BlockPool) : BlockPool :=
  let max := pool.peers.entries.foldl (fun max e => if e.2.height > max then e.2.height else max) 0
  { pool with maxPeerHeight := max }

/-- The requesters after `removePeer` told those waiting on `peerID` to redo. -/
def redoFor (peerID : PeerID) (bpr : bpRequester) : bpRequester :=
  if bpr.peerID = some peerID then bpr.redo peerID else bpr

def removePeer (pool : BlockPool) (peerID : PeerID) : BlockPool :=
  let pool := { pool with requesters := GoMap.mapValues (redoFor peerID) pool.requesters }
  match pool.peers.lookup peerID with
  | none => pool
  | some peer =>
    let pool := { pool with peers := pool.peers.erase peerID }
    -- the maximum is recomputed only when the removed peer held it
    if peer.height = pool.maxPeerHeight then pool.updateMaxPeerHeight else pool

def RemovePeer (pool : BlockPool) (peerID : PeerID) : BlockPool := pool.removePeer peerID

def SetPeerRange (pool : BlockPool) (peerID : PeerID) (base height : Int) : BlockPool :=
  let peer := match pool.peers.lookup peerID with
    | some peer => { peer with base, height }
    | none => newBPPeer peerID base height
  let pool := { pool with peers := pool.peers.insert peerID peer }
  if height > pool.maxPeerHeight then { pool with maxPeerHeight := height } else pool

def AddBlock (pool : BlockPool) (peerID : PeerID) (block : Block) : BlockPool :=
  match pool.requesters.lookup block.Height with
  -- "peer sent us a block we didn't expect": an error for the peer, nothing here
  | none => pool
  | some requester =>
    match requester.setBlock block peerID with
    -- "invalid peer"
    | none => pool
    | some requester =>
      let pool := { pool with requesters := pool.requesters.insert block.Height requester,
                              numPending := pool.numPending - 1 }
      match pool.peers.lookup peerID with
      | none => pool
      | some peer => { pool with peers := pool.peers.insert peerID peer.decrPending }

/-- `PeekTwoBlocks`: the blocks at `height` and `height + 1`. -/
def PeekTwoBlocks (pool : BlockPool) : Option Block × Option Block :=
  ((pool.requesters.lookup pool.height).bind (·.block),
    (pool.requesters.lookup (pool.height + 1)).bind (·.block))

def PopRequest (pool : BlockPool) : Go BlockPool :=
  match pool.requesters.lookup pool.height with
  | some _ => pure { pool with requesters := pool.requesters.erase pool.height,
                               height := pool.height + 1 }
  | none => throw (.panic ("Expected requester to pop, got nothing at height " ++
      toString pool.height))

/-- `RedoRequest`: the peer of the requester at `height`, removed; no requester there is a
nil dereference. -/
def RedoRequest (pool : BlockPool) (height : Int) : Go (Option PeerID × BlockPool) :=
  match pool.requesters.lookup height with
  | none => throw (.panic nilDereference)
  | some request =>
    match request.peerID with
    | some peerID => pure (some peerID, pool.removePeer peerID)
    | none => pure (none, pool)

def makeNextRequester (pool : BlockPool) : BlockPool :=
  let nextHeight := pool.height + pool.requesters.entries.length
  if nextHeight > pool.maxPeerHeight then pool
  else { pool with requesters := pool.requesters.insert nextHeight (newBPRequester nextHeight),
                   numPending := pool.numPending + 1 }

/-- The loop of `pickIncrAvailablePeer` over the peers, in one iteration order. -/
def pickLoop (height : Int) : List PeerID → BlockPool → BlockPool × Option PeerID
  | [], pool => (pool, none)
  | id :: ids, pool =>
    match pool.peers.lookup id with
    -- deleted earlier in the loop: a Go range does not visit it
    | none => pickLoop height ids pool
    | some peer =>
      if peer.didTimeout then pickLoop height ids (pool.removePeer peer.id)
      else if peer.numPending ≥ maxPendingRequestsPerPeer then pickLoop height ids pool
      else if height < peer.base ∨ height > peer.height then pickLoop height ids pool
      else ({ pool with peers := pool.peers.insert id peer.incrPending }, some id)

def pickIncrAvailablePeer (pool : BlockPool) (height : Int) : BlockPool × Option PeerID :=
  pickLoop height pool.peers.keys pool

/-- `onTimeout`: the peer is marked, and removed by the next scan. -/
def onTimeout (pool : BlockPool) (peerID : PeerID) : BlockPool :=
  match pool.peers.lookup peerID with
  | none => pool
  | some peer => { pool with peers := pool.peers.insert peerID { peer with didTimeout := true } }

/-- The check of `removeTimedoutPeers` on one peer, `slow` being the peers whose receive rate
the monitor finds below `minRecvRate`: a slow peer with requests out is marked. -/
def markSlow (slow : List PeerID) (id : PeerID) (peer : bpPeer) : bpPeer :=
  if !peer.didTimeout && peer.numPending > 0 && id ∈ slow then { peer with didTimeout := true }
  else peer

/-- The loop of `removeTimedoutPeers`. -/
def removeTimedoutLoop (slow : List PeerID) : List PeerID → BlockPool → BlockPool
  | [], pool => pool
  | id :: ids, pool =>
    match pool.peers.lookup id with
    | none => removeTimedoutLoop slow ids pool
    | some peer =>
      let peer := markSlow slow id peer
      let pool := { pool with peers := pool.peers.insert id peer }
      removeTimedoutLoop slow ids (if peer.didTimeout then pool.removePeer peer.id else pool)

def removeTimedoutPeers (pool : BlockPool) (slow : List PeerID) : BlockPool :=
  removeTimedoutLoop slow pool.peers.keys pool

/-- The requester at `height`, changed by `f` if there is one. -/
def updateRequester (pool : BlockPool) (height : Int) (f : bpRequester → bpRequester) :
    BlockPool :=
  match pool.requesters.lookup height with
  | none => pool
  | some bpr => { pool with requesters := pool.requesters.insert height (f bpr) }

/-- The goroutine of the requester at `height`, in `PICK_PEER_LOOP`, asks for a peer; without
one it sleeps and asks again. -/
def pickPeerStep (pool : BlockPool) (height : Int) : BlockPool :=
  match pool.requesters.lookup height with
  | some { phase := .pickPeer, .. } =>
    match pool.pickIncrAvailablePeer height with
    | (pool, some peer) => pool.updateRequester height fun bpr => { bpr with phase := .picked peer }
    | (pool, none) => pool
  | _ => pool

/-- It records the peer it picked and sends the request. -/
def assignPeerStep (pool : BlockPool) (height : Int) : BlockPool :=
  match pool.requesters.lookup height with
  | some { phase := .picked peer, .. } =>
    pool.updateRequester height fun bpr => { bpr with peerID := some peer, phase := .waitLoop }
  | _ => pool

/-- In `WAIT_LOOP` it takes a redo: for its own peer it resets and looks for another. -/
def receiveRedoStep (pool : BlockPool) (height : Int) : BlockPool :=
  match pool.requesters.lookup height with
  | some bpr =>
    match bpr.phase, bpr.redoCh with
    | .waitLoop, some peerID =>
      let bpr := { bpr with redoCh := none }
      if some peerID = bpr.peerID then
        let (bpr, incr) := bpr.reset
        { pool with requesters := pool.requesters.insert height { bpr with phase := .pickPeer },
                    numPending := pool.numPending + incr }
      else { pool with requesters := pool.requesters.insert height bpr }
    | _, _ => pool
  | none => pool

end BlockPool

inductive Event where
  | setPeerRange (peerID : PeerID) (base height : Int)
  | addBlock (peerID : PeerID) (block : Block)
  | removePeer (peerID : PeerID)
  | popRequest
  | redoRequest (height : Int)
  | makeNextRequester
  | peerTimeout (peerID : PeerID)
  | removeTimedoutPeers (slow : List PeerID)
  | pickPeer (height : Int)
  | assignPeer (height : Int)
  | receiveRedo (height : Int)
  deriving DecidableEq

open BlockPool in
def step (pool : BlockPool) : Event → Go BlockPool
  | .setPeerRange peerID base height => pure (pool.SetPeerRange peerID base height)
  | .addBlock peerID block => pure (pool.AddBlock peerID block)
  | .removePeer peerID => pure (pool.RemovePeer peerID)
  | .popRequest => pool.PopRequest
  | .redoRequest height => do
    let (_, pool) ← pool.RedoRequest height
    pure pool
  | .makeNextRequester => pure pool.makeNextRequester
  | .peerTimeout peerID => pure (pool.onTimeout peerID)
  | .removeTimedoutPeers slow => pure (pool.removeTimedoutPeers slow)
  | .pickPeer height => pure (pool.pickPeerStep height)
  | .assignPeer height => pure (pool.assignPeerStep height)
  | .receiveRedo height => pure (pool.receiveRedoStep height)

def run (pool : BlockPool) : List Event → Go BlockPool
  | [] => pure pool
  | ev :: evs => do
    let pool ← step pool ev
    run pool evs

end Tendermint.V0
