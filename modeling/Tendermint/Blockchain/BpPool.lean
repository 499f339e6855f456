import Tendermint.Lib.Except
import Tendermint.Lib.GoMap
import Tendermint.Types.Basic

/-!
# The block pool of fast sync v1

`BlockPool` (blockchain/v1/pool.go) keeps the peers that reported a height, each a `BpPeer`
(blockchain/v1/peer.go) with the heights it was asked for (`nil` until the block comes), the
heights planned for a request, and for each height requested the peer asked.  The reactor's
state machine (`ReactorFSM`) calls it under its mutex.

Go maps are `AList`s here, and a loop over a map goes over its entries in list order, which
stands for one of the orders Go may take.  A loop that deletes the entry it is at, as
`RemovePeer` does to the peer's blocks and `removeShortPeers` to the peers, goes over the
entries as they were when it began, which is what Go does for the entries it has not reached.
What the switch answers to a block request, and whether a peer's receive rate is too low, are
arguments: the model says nothing of the network, so every answer is allowed.
-/

namespace Tendermint.V1

open GoMap ExceptRun

/-- `p2p.ID`. -/
abbrev PeerID := String

/-- A block as the pool sees it: its height. -/
structure Block where
  Height : Int
  deriving DecidableEq, Repr

def errMissingBlock : String := "missing blocks"

def errDuplicateBlock : String := "fast sync received duplicate block from peer"

def errBadDataFromPeer : String := "fast sync received block from wrong peer or block is bad"

def errPeerTooShort : String := "peer height too low, old peer removed/ new peer not added"

def errPeerLowersItsHeight : String := "fast sync peer reports a height lower than previous"

def errNilPeerForBlockRequest : String := "peer for block request does not exist in the switch"

def errSendQueueFull : String := "block request not made, send-queue is full"

def errSlowPeer : String := "fast sync peer is not sending us data fast enough"

def maxRequestsPerPeer : Int := 20

def maxNumRequests : Int := 64

/-- `BpPeer`; `monitored` is `recvMonitor != nil`. -/
structure BpPeer where
  ID : PeerID
  Base : Int
  Height : Int
  NumPendingBlockRequests : Int
  blocks : Map Int (Option Block)
  monitored : Bool

def NewBpPeer (peerID : PeerID) (base height : Int) : BpPeer := ⟨peerID, base, height, 0, ∅, false⟩

namespace BpPeer

def Cleanup (peer : BpPeer) : BpPeer :=
  { peer with blocks := ∅, NumPendingBlockRequests := 0, monitored := false }

def BlockAtHeight (peer : BpPeer) (height : Int) : Except String Block :=
  match peer.blocks.lookup height with
  | some (some block) => .ok block
  | _ => .error errMissingBlock

/-- `AddBlock`: the block of a height the peer was asked for.  The last pending request stops
the monitor; any other updates it, through a `nil` pointer if it is not running. -/
def AddBlock (peer : BpPeer) (block : Block) (recvSize : Int) : Go BpPeer :=
  if recvSize < 0 then throw (.panic "bad parameters")
  else
    match peer.blocks.lookup block.Height with
    | none => throw (.err errMissingBlock)
    | some (some _) => throw (.err errDuplicateBlock)
    | some none =>
      if peer.NumPendingBlockRequests = 0 then throw (.panic "peer does not have pending requests")
      else if !peer.monitored then throw (.panic nilDereference)
      else
        let n := peer.NumPendingBlockRequests - 1
        pure { peer with blocks := peer.blocks.insert block.Height (some block),
                         NumPendingBlockRequests := n, monitored := n ≠ 0 }

def RemoveBlock (peer : BpPeer) (height : Int) : BpPeer :=
  { peer with blocks := peer.blocks.erase height }

/-- `RequestSent`: the first pending request starts the monitor. -/
def RequestSent (peer : BpPeer) (height : Int) : BpPeer :=
  { peer with blocks := peer.blocks.insert height none,
              monitored := peer.monitored || peer.NumPendingBlockRequests = 0,
              NumPendingBlockRequests := peer.NumPendingBlockRequests + 1 }

/-- `CheckRate`, with the monitor's verdict `slow`. -/
def CheckRate (peer : BpPeer) (slow : Bool) : Go (Option String) :=
  if peer.NumPendingBlockRequests = 0 then pure none
  else if !peer.monitored then throw (.panic nilDereference)
  else pure (if slow then some errSlowPeer else none)

end BpPeer

/-- `BlockPool`. -/
structure BlockPool where
  peers : Map PeerID BpPeer
  blocks : Map Int PeerID
  plannedRequests : Map Int Unit
  nextRequestHeight : Int
  Height : Int
  MaxPeerHeight : Int

def NewBlockPool (height : Int) : BlockPool := ⟨∅, ∅, ∅, height, height, 0⟩

/-- `BlockData`: a block with the peer that delivered it. -/
structure BlockData where
  block : Block
  peer : BpPeer

namespace BlockPool

def ReachedMaxHeight (pool : BlockPool) : Bool := pool.Height ≥ pool.MaxPeerHeight

def NumPeers (pool : BlockPool) : Nat := pool.peers.entries.length

def NeedsBlocks (pool : BlockPool) : Bool := (pool.blocks.entries.length : Int) < maxNumRequests

def rescheduleRequest (pool : BlockPool) (peerID : PeerID) (height : Int) : Go BlockPool :=
  match pool.peers.lookup peerID with
  | none => throw (.panic nilDereference)
  | some peer =>
    pure { pool with plannedRequests := pool.plannedRequests.insert height (),
                     blocks := pool.blocks.erase height,
                     peers := pool.peers.insert peerID (peer.RemoveBlock height) }

/-- `updateMaxPeerHeight`: the largest height of a peer, 0 without peers. -/
def updateMaxPeerHeight (pool : BlockPool) : BlockPool :=
  { pool with MaxPeerHeight := pool.peers.entries.foldl (fun m e => max m e.2.Height) 0 }

def deletePeer (pool : BlockPool) (peer : BpPeer) : BlockPool :=
  let pool := { pool with peers := pool.peers.erase peer.ID }
  if peer.Height = pool.MaxPeerHeight then pool.updateMaxPeerHeight else pool

/-- `RemovePeer`: the peer's heights go back to the plan, and the plan is cut to the new
maximum height if it went down. -/
def RemovePeer (pool : BlockPool) (peerID : PeerID) : Go BlockPool :=
  match pool.peers.lookup peerID with
  | none => pure pool
  | some peer => do
    let pool ← peer.blocks.entries.foldlM (fun pool e => pool.rescheduleRequest peerID e.1) pool
    let oldMaxPeerHeight := pool.MaxPeerHeight
    let pool := pool.deletePeer peer
    if oldMaxPeerHeight > pool.MaxPeerHeight then
      pure { pool with
        plannedRequests := filterKeys pool.plannedRequests fun h => decide (h ≤ pool.MaxPeerHeight)
        nextRequestHeight :=
          if pool.nextRequestHeight > pool.MaxPeerHeight then pool.MaxPeerHeight + 1
          else pool.nextRequestHeight }
    else pure pool

/-- `UpdatePeer`: a new peer no shorter than the pool, or a new range for a known one, which
may not go down. -/
def UpdatePeer (pool : BlockPool) (peerID : PeerID) (base height : Int) :
    Go (BlockPool × Option String) :=
  match pool.peers.lookup peerID with
  | none =>
    if height < pool.Height then pure (pool, some errPeerTooShort)
    else
      pure ({ pool with peers := pool.peers.insert peerID (NewBpPeer peerID base height) }
        |>.updateMaxPeerHeight, none)
  | some peer =>
    if height < peer.Height then do
      let pool ← pool.RemovePeer peerID
      pure (pool, some errPeerLowersItsHeight)
    else
      pure ({ pool with peers := pool.peers.insert peerID { peer with Base := base, Height := height } }
        |>.updateMaxPeerHeight, none)

def removeShortPeers (pool : BlockPool) : Go BlockPool :=
  pool.peers.entries.foldlM (fun pool e =>
    if e.2.Height < pool.Height then pool.RemovePeer e.2.ID else pure pool) pool

/-- `removeBadPeers`, with the peers whose rate is too low. -/
def removeBadPeers (pool : BlockPool) (slow : PeerID → Bool) : Go BlockPool := do
  let pool ← pool.removeShortPeers
  pool.peers.entries.foldlM (fun pool e => do
    match ← e.2.CheckRate (slow e.2.ID) with
    | some _ => pool.RemovePeer e.2.ID
    | none => pure pool) pool

/-- The loop of `makeRequestBatch` that plans heights from `nextRequestHeight` on; `fuel` is the
number of heights left up to `MaxPeerHeight`, where the loop stops at the latest. -/
def planRequests (numNeeded : Int) : Nat → BlockPool → BlockPool
  | 0, pool => pool
  | fuel + 1, pool =>
    if (pool.plannedRequests.entries.length : Int) < numNeeded ∧
        pool.nextRequestHeight ≤ pool.MaxPeerHeight then
      planRequests numNeeded fuel
        { pool with plannedRequests := pool.plannedRequests.insert pool.nextRequestHeight (),
                    nextRequestHeight := pool.nextRequestHeight + 1 }
    else pool

/-- `makeRequestBatch`: the planned heights, in order (`sort.Ints`). -/
def makeRequestBatch (pool : BlockPool) (slow : PeerID → Bool) (maxNumRequests : Int) :
    Go (BlockPool × List Int) := do
  let pool ← pool.removeBadPeers slow
  let numNeeded := maxNumRequests - pool.blocks.entries.length
  let pool := planRequests numNeeded (pool.MaxPeerHeight + 1 - pool.nextRequestHeight).toNat pool
  pure (pool, pool.plannedRequests.keys.insertionSort (· ≤ ·))

/-- `sendRequest`: the first peer in reach with room for a request that the switch takes. -/
def sendRequest (sendBlockRequest : PeerID → Int → Option String) (height : Int) :
    List BpPeer → BlockPool → Go (BlockPool × Bool)
  | [], pool => pure (pool, false)
  | peer :: rest, pool =>
    if peer.NumPendingBlockRequests ≥ maxRequestsPerPeer then
      sendRequest sendBlockRequest height rest pool
    else if peer.Base > height ∨ peer.Height < height then
      sendRequest sendBlockRequest height rest pool
    else
      match sendBlockRequest peer.ID height with
      | some err =>
        if err = errNilPeerForBlockRequest then do
          let pool ← pool.RemovePeer peer.ID
          sendRequest sendBlockRequest height rest pool
        else if err = errSendQueueFull then sendRequest sendBlockRequest height rest pool
        else
          pure ({ pool with blocks := pool.blocks.insert height peer.ID,
                            peers := pool.peers.insert peer.ID (peer.RequestSent height) }, true)
      | none =>
        pure ({ pool with blocks := pool.blocks.insert height peer.ID,
                          peers := pool.peers.insert peer.ID (peer.RequestSent height) }, true)

/-- The loop of `MakeNextRequests` over the heights: it stops at the first one no peer takes. -/
def sendRequests (sendBlockRequest : PeerID → Int → Option String) :
    List Int → BlockPool → Go BlockPool
  | [], pool => pure pool
  | h :: rest, pool => do
    let (pool, sent) ← sendRequest sendBlockRequest h (pool.peers.entries.map (·.2)) pool
    if sent then
      sendRequests sendBlockRequest rest
        { pool with plannedRequests := pool.plannedRequests.erase h }
    else pure pool

def MakeNextRequests (pool : BlockPool) (sendBlockRequest : PeerID → Int → Option String)
    (slow : PeerID → Bool) (maxNumRequests : Int) : Go BlockPool := do
  let (pool, heights) ← pool.makeRequestBatch slow maxNumRequests
  sendRequests sendBlockRequest heights pool

/-- `AddBlock`: the block must come from the peer asked for its height. -/
def AddBlock (pool : BlockPool) (peerID : PeerID) (block : Block) (blockSize : Int) :
    Go (BlockPool × Option String) :=
  match pool.peers.lookup peerID with
  | none => pure (pool, some errBadDataFromPeer)
  | some peer =>
    match pool.blocks.lookup block.Height with
    | some wantPeerID =>
      if wantPeerID ≠ peerID then pure (pool, some errBadDataFromPeer)
      else addToPeer pool peer
    | none => addToPeer pool peer
where
  addToPeer (pool : BlockPool) (peer : BpPeer) : Go (BlockPool × Option String) :=
    match peer.AddBlock block blockSize with
    | .ok peer' => pure ({ pool with peers := pool.peers.insert peerID peer' }, none)
    | .error (.err e) => pure (pool, some e)
    | .error (.panic p) => throw (.panic p)

/-- `BlockAndPeerAtHeight`; a height not requested reads the peer `""`. -/
def BlockAndPeerAtHeight (pool : BlockPool) (height : Int) : Except String BlockData :=
  match pool.peers.lookup ((pool.blocks.lookup height).getD "") with
  | none => .error errMissingBlock
  | some peer => do
    let block ← peer.BlockAtHeight height
    pure ⟨block, peer⟩

/-- `FirstTwoBlocksAndPeers`: `nil` for a block missing, and the first error. -/
def FirstTwoBlocksAndPeers (pool : BlockPool) :
    Option BlockData × Option BlockData × Option String :=
  let r₁ := pool.BlockAndPeerAtHeight pool.Height
  let r₂ := pool.BlockAndPeerAtHeight (pool.Height + 1)
  let err := match r₁, r₂ with
    | .error e, _ => some e
    | .ok _, .error e => some e
    | .ok _, .ok _ => none
  (r₁.toOption, r₂.toOption, err)

def InvalidateFirstTwoBlocks (pool : BlockPool) : Go BlockPool := do
  let r₁ := pool.BlockAndPeerAtHeight pool.Height
  let r₂ := pool.BlockAndPeerAtHeight (pool.Height + 1)
  let pool ← match r₁ with
    | .ok first => pool.RemovePeer first.peer.ID
    | .error _ => pure pool
  match r₂ with
  | .ok second => pool.RemovePeer second.peer.ID
  | .error _ => pure pool

def ProcessedCurrentHeightBlock (pool : BlockPool) : Go BlockPool := do
  let pool ← match pool.blocks.lookup pool.Height with
    | some peerID =>
      match pool.peers.lookup peerID with
      | some peer => pure { pool with peers := pool.peers.insert peerID (peer.RemoveBlock pool.Height) }
      | none => throw (.panic nilDereference)
    | none => pure pool
  let pool := { pool with blocks := pool.blocks.erase pool.Height, Height := pool.Height + 1 }
  pool.removeShortPeers

/-- `RemovePeerAtCurrentHeights`: the peer asked for `Height`, if it has not delivered, else the
one asked for `Height + 1`, if it has not. -/
def RemovePeerAtCurrentHeights (pool : BlockPool) : Go BlockPool :=
  let atHeight (h : Int) : Option PeerID :=
    match pool.peers.lookup ((pool.blocks.lookup h).getD "") with
    | some peer => if (peer.BlockAtHeight h).toOption.isNone then some peer.ID else none
    | none => none
  match atHeight pool.Height with
  | some peerID => pool.RemovePeer peerID
  | none =>
    match atHeight (pool.Height + 1) with
    | some peerID => pool.RemovePeer peerID
    | none => pure pool

def Cleanup (pool : BlockPool) : BlockPool :=
  { pool with peers := ∅, plannedRequests := ∅, blocks := ∅, nextRequestHeight := 0, Height := 0,
              MaxPeerHeight := 0 }

/-! ## Removing a peer

Each round of the loop of `RemovePeer` finds the peer, which stays in the map until
`deletePeer`, so the removal of a known peer succeeds (`RemovePeer_ok`); what it does to the
rest of the pool is `PeerRemoved`. -/

/-- What `RemovePeer` leaves of a pool: the peer is gone, no peer is asked for the heights it
was asked for, the other peers and the height stay, and a peer under the maximum height stays
under it. -/
structure PeerRemoved (peerID : PeerID) (peer : BpPeer) (pool pool' : BlockPool) : Prop where
  gone : pool'.peers.lookup peerID = none
  others : ∀ q, q ≠ peerID → pool'.peers.lookup q = pool.peers.lookup q
  height : pool'.Height = pool.Height
  unasked : ∀ h, h ∈ peer.blocks → pool'.blocks.lookup h = none
  underMax : ∀ q pq, q ≠ peerID → pool.peers.lookup q = some pq →
    pq.Height ≤ pool.MaxPeerHeight → pq.Height ≤ pool'.MaxPeerHeight

/-- What the loop of `RemovePeer` keeps: the peer is there, and so is everything else
`deletePeer` reads. -/
structure Rescheduling (peerID : PeerID) (pool pool' : BlockPool) : Prop where
  present : (pool'.peers.lookup peerID).isSome
  others : ∀ q, q ≠ peerID → pool'.peers.lookup q = pool.peers.lookup q
  height : pool'.Height = pool.Height
  maxPeerHeight : pool'.MaxPeerHeight = pool.MaxPeerHeight

lemma rescheduleRequest_eq {pool : BlockPool} {peerID : PeerID} {peer : BpPeer}
    (hp : pool.peers.lookup peerID = some peer) (height : Int) :
    pool.rescheduleRequest peerID height =
      .ok { pool with plannedRequests := pool.plannedRequests.insert height (),
                      blocks := pool.blocks.erase height,
                      peers := pool.peers.insert peerID (peer.RemoveBlock height) } := by
  rw [rescheduleRequest, hp]
  rfl

lemma rescheduleRequest_blocks {pool pool' : BlockPool} {peerID : PeerID} {height : Int}
    (h : pool.rescheduleRequest peerID height = .ok pool') :
    pool'.blocks = pool.blocks.erase height := by
  unfold rescheduleRequest at h
  split at h
  · cases h
  · cases h
    rfl

lemma Rescheduling.refl {pool : BlockPool} {peerID : PeerID} {peer : BpPeer}
    (hp : pool.peers.lookup peerID = some peer) : Rescheduling peerID pool pool :=
  ⟨by rw [hp]; rfl, fun _ _ => rfl, rfl, rfl⟩

lemma Rescheduling.rescheduleRequest {pool pool₁ : BlockPool} {peerID : PeerID}
    (h : Rescheduling peerID pool pool₁) (height : Int) :
    ∃ pool₂, pool₁.rescheduleRequest peerID height = .ok pool₂ ∧
      Rescheduling peerID pool pool₂ := by
  obtain ⟨peer, hpeer⟩ := Option.isSome_iff_exists.mp h.present
  refine ⟨_, rescheduleRequest_eq hpeer height, ?_, ?_, h.height, h.maxPeerHeight⟩
  · simp only [AList.lookup_insert, Option.isSome_some]
  · intro q hq
    rw [AList.lookup_insert_ne hq]
    exact h.others q hq

/-- The running maximum of `updateMaxPeerHeight` passes every peer's height. -/
lemma le_updateMaxPeerHeight {pool : BlockPool} {q : PeerID} {pq : BpPeer}
    (hq : pool.peers.lookup q = some pq) : pq.Height ≤ pool.updateMaxPeerHeight.MaxPeerHeight := by
  obtain ⟨-, hall⟩ := le_foldl (fun m (e : Σ _ : PeerID, BpPeer) => max m e.2.Height)
    (fun _ _ => le_max_left _ _) (fun _ => True) (fun e => e.2.Height)
    (fun _ _ _ => le_max_right _ _) pool.peers.entries 0
  exact hall ⟨q, pq⟩ (AList.mem_lookup_iff.mp hq) trivial

lemma deletePeer_peers (pool : BlockPool) (peer : BpPeer) :
    (pool.deletePeer peer).peers = pool.peers.erase peer.ID := by
  dsimp only [deletePeer]
  split_ifs <;> rfl

lemma deletePeer_blocks (pool : BlockPool) (peer : BpPeer) :
    (pool.deletePeer peer).blocks = pool.blocks := by
  dsimp only [deletePeer]
  split_ifs <;> rfl

lemma deletePeer_Height (pool : BlockPool) (peer : BpPeer) :
    (pool.deletePeer peer).Height = pool.Height := by
  dsimp only [deletePeer]
  split_ifs <;> rfl

lemma le_deletePeer_MaxPeerHeight {pool : BlockPool} {peer : BpPeer} {q : PeerID} {pq : BpPeer}
    (hne : q ≠ peer.ID) (hq : pool.peers.lookup q = some pq) (hle : pq.Height ≤ pool.MaxPeerHeight) :
    pq.Height ≤ (pool.deletePeer peer).MaxPeerHeight := by
  dsimp only [deletePeer]
  split_ifs
  · -- the maximum is taken again, over the peers left
    exact le_updateMaxPeerHeight ((AList.lookup_erase_ne hne).trans hq)
  · exact hle

/-- Cutting the plan to the new maximum height touches nothing `PeerRemoved` speaks of. -/
lemma PeerRemoved.replan {peerID : PeerID} {peer : BpPeer} {pool pool' : BlockPool}
    (h : PeerRemoved peerID peer pool pool') (planned : Map Int Unit) (next : Int) :
    PeerRemoved peerID peer pool { pool' with plannedRequests := planned, nextRequestHeight := next } :=
  ⟨h.gone, h.others, h.height, h.unasked, h.underMax⟩

/-- The removal of a known peer, stored under its own ID, succeeds. -/
lemma RemovePeer_ok {pool : BlockPool} {peerID : PeerID} {peer : BpPeer}
    (hp : pool.peers.lookup peerID = some peer) (hid : peer.ID = peerID) :
    ∃ pool', pool.RemovePeer peerID = .ok pool' ∧ PeerRemoved peerID peer pool pool' := by
  have hloop : ∃ pool₁, peer.blocks.entries.foldlM
      (fun pool e => pool.rescheduleRequest peerID e.1) pool = .ok pool₁ ∧
        Rescheduling peerID pool pool₁ :=
    foldlM_ok_of_inv (fun b e hb => hb.rescheduleRequest e.1) _ (Rescheduling.refl hp)
  obtain ⟨pool₁, hfold, hres⟩ := hloop
  -- the round at `h` takes `h` out of `blocks`, and no later round puts it back
  have hunasked : ∀ h, h ∈ peer.blocks → pool₁.blocks.lookup h = none := by
    intro h hh
    obtain ⟨v, hv⟩ := List.mem_keys.mp (AList.mem_keys.mpr hh)
    have hQ : ∀ (e : Σ _ : Int, Option Block) (b b' : BlockPool), b.rescheduleRequest peerID e.1 = .ok b' →
        b'.blocks.lookup e.1 = none := by
      intro e b b' hr
      rw [rescheduleRequest_blocks hr, AList.lookup_erase]
    refine foldlM_of_mem (Q := fun (e : Σ _ : Int, Option Block) (b : BlockPool) => b.blocks.lookup e.1 = none)
      (fun b e b' hr => hQ e b b' hr) ?_ _ hv hfold
    intro e b e' b' hb hr
    rw [rescheduleRequest_blocks hr, lookup_erase_ite]
    split_ifs <;> simp [hb]
  have hdel : PeerRemoved peerID peer pool (pool₁.deletePeer peer) := by
    refine ⟨?_, ?_, ?_, ?_, ?_⟩
    · rw [deletePeer_peers, hid, AList.lookup_erase]
    · intro q hq
      rw [deletePeer_peers, hid, AList.lookup_erase_ne hq]
      exact hres.others q hq
    · rw [deletePeer_Height, hres.height]
    · intro h hh
      rw [deletePeer_blocks]
      exact hunasked h hh
    · intro q pq hq hpq hle
      refine le_deletePeer_MaxPeerHeight (hid ▸ hq) ((hres.others q hq).trans hpq) ?_
      rw [hres.maxPeerHeight]
      exact hle
  rw [RemovePeer, hp]
  simp only [hfold, ok_bind]
  split
  · exact ⟨_, rfl, hdel.replan _ _⟩
  · exact ⟨_, rfl, hdel⟩

/-- A block `BlockAndPeerAtHeight` returns is one its peer holds, at the height asked. -/
lemma BlockAndPeerAtHeight_ok {pool : BlockPool} {height : Int} {d : BlockData}
    (h : pool.BlockAndPeerAtHeight height = .ok d) :
    pool.peers.lookup ((pool.blocks.lookup height).getD "") = some d.peer ∧
      d.peer.blocks.lookup height = some (some d.block) := by
  unfold BlockAndPeerAtHeight at h
  split at h
  · cases h
  · rename_i peer hpeer
    unfold BpPeer.BlockAtHeight at h
    split at h
    · cases h
      exact ⟨hpeer, ‹_›⟩
    · cases h

/-- With no peer asked for the pool's height, `FirstTwoBlocksAndPeers` has no first block (no
peer has the empty ID). -/
lemma FirstTwoBlocksAndPeers_first_none {pool : BlockPool}
    (hh : pool.blocks.lookup pool.Height = none) (hempty : pool.peers.lookup "" = none) :
    pool.FirstTwoBlocksAndPeers.1 = none := by
  unfold FirstTwoBlocksAndPeers BlockAndPeerAtHeight
  dsimp only
  rw [hh, Option.getD_none, hempty]
  rfl

/-- The first block `FirstTwoBlocksAndPeers` returns is held by the peer asked for it. -/
lemma FirstTwoBlocksAndPeers_first_some {pool : BlockPool} {d : BlockData}
    (h : pool.FirstTwoBlocksAndPeers.1 = some d) :
    pool.peers.lookup ((pool.blocks.lookup pool.Height).getD "") = some d.peer ∧
      d.peer.blocks.lookup pool.Height = some (some d.block) := by
  refine BlockAndPeerAtHeight_ok ?_
  unfold FirstTwoBlocksAndPeers at h
  dsimp only at h
  revert h
  cases pool.BlockAndPeerAtHeight pool.Height <;> simp [Except.toOption]

end BlockPool

end Tendermint.V1
