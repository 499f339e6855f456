import Tendermint.Blockchain.Pool
import Tendermint.Lib.Except

/-!
# What the block pool keeps along every run

Over every interleaving of the reactor's calls with the requesters' goroutines (`run`):

* the requesters sit at the heights `[height, height + len(requesters))`, with no gap;
* a requester holds a block only if its current peer sent that block (`AddBlock`);
* `numPending` is at least the number of requesters without a block;
* `maxPeerHeight` is at least every current peer's height, and at least `0`.

The last two are all that holds.  `numPending` also counts a requester that `PopRequest` removed
after a redo had taken its block (`run_poolBookkeeping_fails`), against the field's comment
("number of requests pending assignment or block response").  And `maxPeerHeight` is the
biggest height ever reported, as its own comment says, so it stays where it was when a peer
reports a lower one.

The operations on the peers (removal, timeouts, picking a peer) change a requester at most in
its redo channel; `PeerSide` says so once, and the invariant passes along it.  The other
operations change one requester, or add or pop one, and each has its own lemma.
-/

namespace Tendermint.V0

open GoMap

/-- A requester without its redo channel: what the pool's bookkeeping reads. -/
def bpRequester.view (bpr : bpRequester) : Option PeerID × Option Block × requestPhase :=
  (bpr.peerID, bpr.block, bpr.phase)

/-- The requesters sit at the heights from `height` on, without a gap. -/
def Contiguous (pool : BlockPool) : Prop :=
  ∃ n : Nat, ∀ k, k ∈ pool.requesters ↔ pool.height ≤ k ∧ k < pool.height + n

/-- The requesters' own bookkeeping; `added p b` says that peer `p` delivered `b`. -/
structure ReqInv (added : PeerID → Block → Prop) (pool : BlockPool) : Prop where
  /-- Before `WAIT_LOOP` a requester has neither a peer nor a block. -/
  idle : ∀ k bpr, pool.requesters.lookup k = some bpr → bpr.phase ≠ .waitLoop →
    bpr.peerID = none ∧ bpr.block = none
  blockFrom : ∀ k bpr b, pool.requesters.lookup k = some bpr → bpr.block = some b →
    ∃ p, bpr.peerID = some p ∧ added p b
  pending : (countValues (fun bpr => bpr.block.isNone) pool.requesters : Int) ≤ pool.numPending

structure MaxBound (pool : BlockPool) : Prop where
  nonneg : 0 ≤ pool.maxPeerHeight
  bound : ∀ p peer, pool.peers.lookup p = some peer → peer.height ≤ pool.maxPeerHeight

structure Inv (added : PeerID → Block → Prop) (pool : BlockPool) : Prop where
  contiguous : Contiguous pool
  req : ReqInv added pool
  maxBound : MaxBound pool

variable {added : PeerID → Block → Prop}

/-! ## The peer side -/

/-- What removals, timeouts and picks leave: each requester the same but for its redo
channel, the same heights and counter, and the bound on the peers' heights. -/
structure PeerSide (pool pool' : BlockPool) : Prop where
  requesters : ∃ f : bpRequester → bpRequester, (∀ bpr, (f bpr).view = bpr.view) ∧
    pool'.requesters = mapValues f pool.requesters
  height : pool'.height = pool.height
  numPending : pool'.numPending = pool.numPending
  maxBound : MaxBound pool → MaxBound pool'

lemma PeerSide.refl (pool : BlockPool) : PeerSide pool pool :=
  ⟨⟨id, fun _ => rfl, (AList.ext (by simp)).symm⟩, rfl, rfl, id⟩

lemma PeerSide.trans {pool₁ pool₂ pool₃ : BlockPool} (h₁ : PeerSide pool₁ pool₂)
    (h₂ : PeerSide pool₂ pool₃) : PeerSide pool₁ pool₃ := by
  obtain ⟨f, hf, hr₁⟩ := h₁.requesters
  obtain ⟨g, hg, hr₂⟩ := h₂.requesters
  refine ⟨⟨g ∘ f, fun bpr => (hg (f bpr)).trans (hf bpr), ?_⟩, h₂.height.trans h₁.height,
    h₂.numPending.trans h₁.numPending, h₂.maxBound ∘ h₁.maxBound⟩
  rw [hr₂, hr₁, mapValues_mapValues]

/-- A requester after a peer-side change is one from before, with the same view. -/
lemma PeerSide.lookup {pool pool' : BlockPool} (h : PeerSide pool pool') {k : Int}
    {bpr' : bpRequester} (hk : pool'.requesters.lookup k = some bpr') :
    ∃ bpr, pool.requesters.lookup k = some bpr ∧ bpr'.view = bpr.view := by
  obtain ⟨f, hf, hr⟩ := h.requesters
  rw [hr, lookup_mapValues, Option.map_eq_some_iff] at hk
  obtain ⟨bpr, hbpr, rfl⟩ := hk
  exact ⟨bpr, hbpr, hf bpr⟩

/-- A peer-side change keeps the invariant. -/
lemma Inv.peerSide {pool pool' : BlockPool} (hi : Inv added pool) (h : PeerSide pool pool') :
    Inv added pool' := by
  obtain ⟨f, hf, hr⟩ := h.requesters
  have hlookup := @PeerSide.lookup pool pool' h
  refine ⟨?_, ⟨?_, ?_, ?_⟩, h.maxBound hi.maxBound⟩
  · obtain ⟨n, hn⟩ := hi.contiguous
    exact ⟨n, fun k => by rw [hr, mem_mapValues, h.height, hn]⟩
  · intro k bpr' hk hphase
    obtain ⟨bpr, hbpr, hview⟩ := hlookup hk
    simp only [bpRequester.view, Prod.mk.injEq] at hview
    rw [hview.1, hview.2.1]
    exact hi.req.idle k bpr hbpr (hview.2.2 ▸ hphase)
  · intro k bpr' b hk hb
    obtain ⟨bpr, hbpr, hview⟩ := hlookup hk
    simp only [bpRequester.view, Prod.mk.injEq] at hview
    rw [hview.1]
    exact hi.req.blockFrom k bpr b hbpr (hview.2.1 ▸ hb)
  · have hcount : countValues (fun bpr => bpr.block.isNone) pool'.requesters =
        countValues (fun bpr => bpr.block.isNone) pool.requesters := by
      rw [hr, countValues_mapValues]
      congr 1
      funext bpr
      have hview := hf bpr
      simp only [bpRequester.view, Prod.mk.injEq] at hview
      simp [hview.2.1]
    rw [hcount, h.numPending]
    exact hi.req.pending

/-- Changing one peer without changing its height keeps the bound. -/
lemma MaxBound.insert_of_lookup {pool : BlockPool} (hb : MaxBound pool) {p : PeerID}
    {peer peer' : bpPeer} (hp : pool.peers.lookup p = some peer) (hh : peer'.height = peer.height) :
    MaxBound { pool with peers := pool.peers.insert p peer' } := by
  refine ⟨hb.nonneg, fun q peer'' hq => ?_⟩
  rw [lookup_insert_ite] at hq
  split at hq
  · cases hq
    rw [hh]
    exact hb.bound p peer hp
  · exact hb.bound q peer'' hq

/-- A peer changed in place, the requesters untouched. -/
lemma PeerSide.insert_of_lookup {pool : BlockPool} {p : PeerID} {peer peer' : bpPeer}
    (hp : pool.peers.lookup p = some peer) (hh : peer'.height = peer.height) :
    PeerSide pool { pool with peers := pool.peers.insert p peer' } :=
  ⟨(PeerSide.refl pool).requesters, rfl, rfl, fun hb => hb.insert_of_lookup hp hh⟩

lemma redoFor_view (peerID : PeerID) (bpr : bpRequester) :
    (BlockPool.redoFor peerID bpr).view = bpr.view := by
  unfold BlockPool.redoFor bpRequester.redo
  split
  · split <;> rfl
  · rfl

lemma MaxBound.updateMaxPeerHeight (pool : BlockPool) : MaxBound pool.updateMaxPeerHeight := by
  -- the running maximum starts at `0` and passes every peer's height
  obtain ⟨hnonneg, hall⟩ := le_foldl (fun max (e : Σ _ : PeerID, bpPeer) =>
      if e.2.height > max then e.2.height else max)
    (fun b e => by split <;> omega) (fun _ => True) (fun e => e.2.height)
    (fun b e _ => by split <;> omega) pool.peers.entries 0
  refine ⟨hnonneg, fun p peer hp => hall ⟨p, peer⟩ ?_ trivial⟩
  exact AList.mem_lookup_iff.mp hp

lemma PeerSide.removePeer (pool : BlockPool) (peerID : PeerID) :
    PeerSide pool (pool.removePeer peerID) := by
  have hreq : PeerSide pool
      { pool with requesters := mapValues (BlockPool.redoFor peerID) pool.requesters } :=
    ⟨⟨_, redoFor_view peerID, rfl⟩, rfl, rfl, fun hb => ⟨hb.nonneg, hb.bound⟩⟩
  unfold BlockPool.removePeer
  dsimp only
  split
  · exact hreq
  · rename_i peer hpeer
    refine hreq.trans ?_
    split
    · exact ⟨(PeerSide.refl _).requesters, rfl, rfl, fun _ => MaxBound.updateMaxPeerHeight _⟩
    -- the removed peer did not hold the maximum: the others stay below it
    · refine ⟨(PeerSide.refl _).requesters, rfl, rfl, fun hb => ⟨hb.nonneg, fun q peer' hq => ?_⟩⟩
      simp only [lookup_erase_ite] at hq
      split at hq
      · cases hq
      · exact hb.bound q peer' hq

lemma PeerSide.pickLoop (height : Int) : ∀ (ids : List PeerID) (pool : BlockPool),
    PeerSide pool (BlockPool.pickLoop height ids pool).1
  | [], pool => PeerSide.refl pool
  | id :: ids, pool => by
    unfold BlockPool.pickLoop
    split
    · exact PeerSide.pickLoop height ids pool
    · rename_i peer hpeer
      split
      · exact (PeerSide.removePeer pool _).trans (PeerSide.pickLoop height ids _)
      split
      · exact PeerSide.pickLoop height ids pool
      split
      · exact PeerSide.pickLoop height ids pool
      · exact PeerSide.insert_of_lookup hpeer rfl

lemma PeerSide.removeTimedoutLoop (slow : List PeerID) : ∀ (ids : List PeerID) (pool : BlockPool),
    PeerSide pool (BlockPool.removeTimedoutLoop slow ids pool)
  | [], pool => PeerSide.refl pool
  | id :: ids, pool => by
    unfold BlockPool.removeTimedoutLoop
    split
    · exact PeerSide.removeTimedoutLoop slow ids pool
    · rename_i peer hpeer
      have hmark : (BlockPool.markSlow slow id peer).height = peer.height := by
        unfold BlockPool.markSlow
        split <;> rfl
      refine (PeerSide.insert_of_lookup hpeer hmark).trans ?_
      dsimp only
      split
      · exact (PeerSide.removePeer _ _).trans (PeerSide.removeTimedoutLoop slow ids _)
      · exact PeerSide.removeTimedoutLoop slow ids _

lemma PeerSide.onTimeout (pool : BlockPool) (peerID : PeerID) :
    PeerSide pool (pool.onTimeout peerID) := by
  unfold BlockPool.onTimeout
  split
  · exact PeerSide.refl pool
  · rename_i peer hpeer
    exact PeerSide.insert_of_lookup hpeer rfl

lemma PeerSide.setPeerRange (pool : BlockPool) (peerID : PeerID) (base height : Int) :
    PeerSide pool (pool.SetPeerRange peerID base height) := by
  -- the reported height is the peer's now; the maximum rises to it if it is above
  have hbound : ∀ (max : Int) (peer : bpPeer), MaxBound pool → pool.maxPeerHeight ≤ max →
      peer.height = height → height ≤ max →
      ∀ q (peer' : bpPeer), (pool.peers.insert peerID peer).lookup q = some peer' →
        peer'.height ≤ max := by
    intro max peer hb hle hpeer hh q peer' hq
    rw [lookup_insert_ite] at hq
    split at hq
    · cases hq
      rw [hpeer]
      exact hh
    · exact (hb.bound q peer' hq).trans hle
  have hwrite : ∀ peer : bpPeer, peer.height = height →
      PeerSide pool (if height > pool.maxPeerHeight then
        { pool with peers := pool.peers.insert peerID peer, maxPeerHeight := height }
        else { pool with peers := pool.peers.insert peerID peer }) := by
    intro peer hheight
    split
    · refine ⟨(PeerSide.refl _).requesters, rfl, rfl, fun hb => ⟨?_, ?_⟩⟩
      · show 0 ≤ height
        have := hb.nonneg
        omega
      · exact hbound height _ hb (by omega) hheight le_rfl
    · exact ⟨(PeerSide.refl _).requesters, rfl, rfl, fun hb =>
        ⟨hb.nonneg, hbound pool.maxPeerHeight _ hb le_rfl hheight (by omega)⟩⟩
  unfold BlockPool.SetPeerRange
  dsimp only
  -- a known peer and a new one are both written with the reported height
  cases pool.peers.lookup peerID with
  | none => exact hwrite _ rfl
  | some peer => exact hwrite _ rfl

/-! ## The requester side -/

/-- One requester replaced, and the counter moved by at least what the pool gains in
requesters without a block. -/
lemma Inv.replace {pool pool' : BlockPool} (hi : Inv added pool) {k : Int}
    {bpr bpr' : bpRequester} (hk : pool.requesters.lookup k = some bpr) (incr : Int)
    (hreq : pool'.requesters = pool.requesters.insert k bpr')
    (hpending : pool'.numPending = pool.numPending + incr) (hheight : pool'.height = pool.height)
    (hpeers : pool'.peers = pool.peers) (hmax : pool'.maxPeerHeight = pool.maxPeerHeight)
    (hidle : bpr'.phase ≠ .waitLoop → bpr'.peerID = none ∧ bpr'.block = none)
    (hfrom : ∀ b, bpr'.block = some b → ∃ p, bpr'.peerID = some p ∧ added p b)
    (hcount : ((if bpr'.block.isNone then 1 else 0 : Nat) : Int) -
      ((if bpr.block.isNone then 1 else 0 : Nat) : Int) ≤ incr) :
    Inv added pool' := by
  have hmem : k ∈ pool.requesters := AList.lookup_isSome.mp (by rw [hk]; rfl)
  refine ⟨?_, ⟨?_, ?_, ?_⟩, ?_⟩
  · obtain ⟨n, hn⟩ := hi.contiguous
    refine ⟨n, fun k' => ?_⟩
    rw [hreq, hheight, AList.mem_insert, ← hn]
    exact ⟨fun h => h.elim (· ▸ hmem) id, Or.inr⟩
  · intro k' bpr'' hk' hphase
    rw [hreq, lookup_insert_ite] at hk'
    split at hk'
    · cases hk'
      exact hidle hphase
    · exact hi.req.idle k' bpr'' hk' hphase
  · intro k' bpr'' b hk' hb
    rw [hreq, lookup_insert_ite] at hk'
    split at hk'
    · cases hk'
      exact hfrom b hb
    · exact hi.req.blockFrom k' bpr'' b hk' hb
  · have hc := countValues_insert_of_lookup (fun bpr => bpr.block.isNone) bpr' hk
    have hp := hi.req.pending
    rw [hreq, hpending]
    omega
  · exact ⟨hmax ▸ hi.maxBound.nonneg, fun p peer hp => hmax ▸ hi.maxBound.bound p peer (hpeers ▸ hp)⟩

lemma setBlock_eq_some {bpr bpr' : bpRequester} {block : Block} {peerID : PeerID}
    (h : bpr.setBlock block peerID = some bpr') :
    bpr.block = none ∧ bpr.peerID = some peerID ∧ bpr' = { bpr with block := some block } := by
  unfold bpRequester.setBlock at h
  split at h
  · cases h
  · rename_i hcond
    cases h
    simp only [Bool.or_eq_true, bne_iff_ne, ne_eq, not_or, Option.isSome_iff_ne_none,
      not_not] at hcond
    exact ⟨hcond.1, hcond.2, rfl⟩

/-- A requester in `WAIT_LOOP` is the only kind with a peer. -/
lemma ReqInv.waitLoop_of_peer {pool : BlockPool} (hr : ReqInv added pool) {k : Int}
    {bpr : bpRequester} (hk : pool.requesters.lookup k = some bpr) {p : PeerID}
    (hp : bpr.peerID = some p) : bpr.phase = .waitLoop := by
  by_contra hphase
  rw [(hr.idle k bpr hk hphase).1] at hp
  cases hp

lemma Inv.AddBlock {pool : BlockPool} (hi : Inv added pool) {peerID : PeerID} {block : Block}
    (hadded : added peerID block) : Inv added (pool.AddBlock peerID block) := by
  unfold BlockPool.AddBlock
  split
  · exact hi
  · rename_i bpr hbpr
    split
    · exact hi
    · rename_i bpr' hset
      obtain ⟨hnone, hpeer, hbpr'⟩ := setBlock_eq_some hset
      -- the block is taken from the requester's own peer, and one fewer is pending
      have hi' : Inv added
          { pool with requesters := pool.requesters.insert block.Height bpr',
                      numPending := pool.numPending - 1 } := by
        refine hi.replace hbpr (-1) rfl (by simp only; omega) rfl rfl rfl ?_ ?_ ?_
        · intro hphase
          rw [hbpr'] at hphase
          exact absurd (hi.req.waitLoop_of_peer hbpr hpeer) hphase
        · intro b hb
          rw [hbpr'] at hb ⊢
          cases hb
          exact ⟨peerID, hpeer, hadded⟩
        · simp [hbpr', hnone]
      dsimp only
      split
      · exact hi'
      · rename_i peer hpeer'
        exact hi'.peerSide (PeerSide.insert_of_lookup hpeer' rfl)

/-- Requesters at the heights `[height, height + n)` number `n`. -/
lemma length_of_window {pool : BlockPool} {n : Nat}
    (hn : ∀ k, k ∈ pool.requesters ↔ pool.height ≤ k ∧ k < pool.height + n) :
    pool.requesters.entries.length = n := by
  have hcard : (Finset.Ico pool.height (pool.height + n)).card = n := by
    rw [Int.card_Ico]
    omega
  rw [← hcard]
  exact length_eq_card _ fun k => by rw [hn, Finset.mem_Ico]

lemma Inv.PopRequest {pool pool' : BlockPool} (hi : Inv added pool)
    (h : pool.PopRequest = .ok pool') : Inv added pool' := by
  unfold BlockPool.PopRequest at h
  split at h
  · rename_i bpr hbpr
    cases h
    have hmem : pool.height ∈ pool.requesters := AList.lookup_isSome.mp (by rw [hbpr]; rfl)
    refine ⟨?_, ⟨?_, ?_, ?_⟩, ⟨hi.maxBound.nonneg, hi.maxBound.bound⟩⟩
    -- the window loses its lowest height
    · obtain ⟨n, hn⟩ := hi.contiguous
      have hpos := ((hn _).mp hmem).2
      refine ⟨n - 1, fun k => ?_⟩
      simp only [AList.mem_erase, hn]
      omega
    · intro k bpr' hk hphase
      rw [lookup_erase_ite] at hk
      split at hk
      · cases hk
      · exact hi.req.idle k bpr' hk hphase
    · intro k bpr' b hk hb
      rw [lookup_erase_ite] at hk
      split at hk
      · cases hk
      · exact hi.req.blockFrom k bpr' b hk hb
    -- the popped requester may have had no block: the counter then counts one too many
    · have hc := countValues_erase_of_lookup (fun bpr => bpr.block.isNone) hbpr
      have hp := hi.req.pending
      simp only
      omega
  · cases h

lemma Inv.makeNextRequester {pool : BlockPool} (hi : Inv added pool) :
    Inv added pool.makeNextRequester := by
  unfold BlockPool.makeNextRequester
  dsimp only
  split
  · exact hi
  · obtain ⟨n, hn⟩ := hi.contiguous
    rw [length_of_window hn]
    have hfresh : pool.height + n ∉ pool.requesters := by
      rw [hn]
      omega
    refine ⟨⟨n + 1, fun k => ?_⟩, ⟨?_, ?_, ?_⟩, ⟨hi.maxBound.nonneg, hi.maxBound.bound⟩⟩
    · simp only [AList.mem_insert, hn]
      omega
    · intro k bpr hk hphase
      rw [lookup_insert_ite] at hk
      split at hk
      · cases hk
        exact ⟨rfl, rfl⟩
      · exact hi.req.idle k bpr hk hphase
    · intro k bpr b hk hb
      rw [lookup_insert_ite] at hk
      split at hk
      · cases hk
        cases hb
      · exact hi.req.blockFrom k bpr b hk hb
    · have hc := countValues_insert_of_notMem (fun bpr => bpr.block.isNone)
        (newBPRequester (pool.height + n)) hfresh
      have hp := hi.req.pending
      simp only [newBPRequester, Option.isNone_none, if_true] at hc ⊢
      omega

lemma Inv.RedoRequest {pool pool' : BlockPool} (hi : Inv added pool) {height : Int}
    {peerID : Option PeerID} (h : pool.RedoRequest height = .ok (peerID, pool')) :
    Inv added pool' := by
  unfold BlockPool.RedoRequest at h
  split at h
  · cases h
  · split at h
    · cases h
      exact hi.peerSide (PeerSide.removePeer _ _)
    · cases h
      exact hi

/-- A requester outside `WAIT_LOOP`, which has neither peer nor block, moved to another
phase. -/
lemma Inv.setPhase {pool : BlockPool} (hi : Inv added pool) {k : Int} {bpr : bpRequester}
    (hk : pool.requesters.lookup k = some bpr) (hphase : bpr.phase ≠ .waitLoop)
    (phase : requestPhase) :
    Inv added { pool with requesters := pool.requesters.insert k { bpr with phase } } := by
  obtain ⟨hpeer, hblock⟩ := hi.req.idle k bpr hk hphase
  refine hi.replace hk 0 rfl (by simp) rfl rfl rfl (fun _ => ⟨hpeer, hblock⟩) ?_ (by simp)
  intro b hb
  rw [hblock] at hb
  cases hb

lemma Inv.pickPeerStep {pool : BlockPool} (hi : Inv added pool) (height : Int) :
    Inv added (pool.pickPeerStep height) := by
  unfold BlockPool.pickPeerStep
  split
  · rename_i bpr hbpr
    have hside := PeerSide.pickLoop height pool.peers.keys pool
    split
    · rename_i pool₁ peer hpick
      rw [BlockPool.pickIncrAvailablePeer] at hpick
      rw [hpick] at hside
      have hi₁ := hi.peerSide hside
      -- the requester is still looking for a peer after the loop's removals
      unfold BlockPool.updateRequester
      split
      · exact hi₁
      · rename_i bpr₁ hbpr₁
        obtain ⟨bpr₀, hbpr₀, hview⟩ := hside.lookup hbpr₁
        rw [hbpr] at hbpr₀
        cases hbpr₀
        simp only [bpRequester.view, Prod.mk.injEq] at hview
        exact hi₁.setPhase hbpr₁ (by rw [hview.2.2]; simp) _
    · rename_i pool₁ hpick
      rw [BlockPool.pickIncrAvailablePeer] at hpick
      rw [hpick] at hside
      exact hi.peerSide hside
  · exact hi

lemma Inv.assignPeerStep {pool : BlockPool} (hi : Inv added pool) (height : Int) :
    Inv added (pool.assignPeerStep height) := by
  unfold BlockPool.assignPeerStep
  split
  · rename_i bpr peer hbpr
    unfold BlockPool.updateRequester
    rw [hbpr]
    dsimp only
    obtain ⟨-, hblock⟩ := hi.req.idle height _ hbpr (by simp)
    -- the peer is recorded before any block can come
    refine hi.replace hbpr 0 rfl (by simp) rfl rfl rfl (fun h => absurd rfl h) ?_ (by simp)
    intro b hb
    simp only at hb hblock
    rw [hblock] at hb
    cases hb
  · exact hi

lemma Inv.receiveRedoStep {pool : BlockPool} (hi : Inv added pool) (height : Int) :
    Inv added (pool.receiveRedoStep height) := by
  unfold BlockPool.receiveRedoStep
  split
  · rename_i bpr hbpr
    split
    · rename_i peerID hphase hredo
      dsimp only
      split
      -- a redo for its own peer: the requester resets and counts as pending again
      · refine hi.replace hbpr _ rfl rfl rfl rfl rfl (fun _ => ⟨rfl, rfl⟩) ?_ ?_
        · intro b hb
          cases hb
        · cases bpr.block <;> simp [bpRequester.reset]
      -- a stale redo is dropped
      · refine hi.replace hbpr 0 rfl (by simp) rfl rfl rfl (fun h => absurd hphase h) ?_ (by simp)
        exact fun b hb => hi.req.blockFrom height bpr b hbpr hb
    · exact hi
  · exact hi

/-! ## Runs -/

lemma Inv.step {pool pool' : BlockPool} {ev : Event} (hi : Inv added pool)
    (hadded : ∀ p b, ev = .addBlock p b → added p b) (h : step pool ev = .ok pool') :
    Inv added pool' := by
  cases ev with
  | setPeerRange peerID base height =>
    cases h
    exact hi.peerSide (PeerSide.setPeerRange _ _ _ _)
  | addBlock peerID block =>
    cases h
    exact hi.AddBlock (hadded _ _ rfl)
  | removePeer peerID =>
    cases h
    exact hi.peerSide (PeerSide.removePeer _ _)
  | popRequest => exact hi.PopRequest h
  | redoRequest height =>
    obtain ⟨⟨peerID, pool₁⟩, hredo, hpure⟩ := ExceptRun.bind_eq_ok h
    cases hpure
    exact hi.RedoRequest hredo
  | makeNextRequester =>
    cases h
    exact hi.makeNextRequester
  | peerTimeout peerID =>
    cases h
    exact hi.peerSide (PeerSide.onTimeout _ _)
  | removeTimedoutPeers slow =>
    cases h
    exact hi.peerSide (PeerSide.removeTimedoutLoop _ _ _)
  | pickPeer height =>
    cases h
    exact hi.pickPeerStep height
  | assignPeer height =>
    cases h
    exact hi.assignPeerStep height
  | receiveRedo height =>
    cases h
    exact hi.receiveRedoStep height

/-- Along a run, with `added` holding of every block the run delivers. -/
lemma Inv.run : ∀ {evs : List Event} {pool pool' : BlockPool}, Inv added pool →
    (∀ p b, Event.addBlock p b ∈ evs → added p b) → run pool evs = .ok pool' → Inv added pool'
  | [], _, _, hi, _, h => by
    cases h
    exact hi
  | ev :: evs, _, _, hi, hadded, h => by
    obtain ⟨pool₁, h₁, h₂⟩ := ExceptRun.bind_eq_ok h
    have hi₁ := hi.step (fun p b he => hadded p b (he ▸ List.mem_cons_self)) h₁
    exact Inv.run hi₁ (fun p b hm => hadded p b (List.mem_cons_of_mem _ hm)) h₂

lemma Inv.init (start : Int) : Inv added (NewBlockPool start) := by
  refine ⟨⟨0, fun k => ?_⟩, ⟨?_, ?_, ?_⟩, ⟨le_rfl, ?_⟩⟩
  · show k ∈ (∅ : Map Int bpRequester) ↔ start ≤ k ∧ k < start + 0
    simp [AList.notMem_empty]
  · intro k bpr hk
    cases hk
  · intro k bpr b hk
    cases hk
  · rfl
  · intro p peer hp
    cases hp

theorem run_poolBookkeeping (start : Int) (evs : List Event) {pool : BlockPool}
    (hrun : run (NewBlockPool start) evs = .ok pool) :
    (∀ k, k ∈ pool.requesters ↔
      pool.height ≤ k ∧ k < pool.height + pool.requesters.entries.length) ∧
    (countValues (fun bpr => bpr.block.isNone) pool.requesters : Int) ≤ pool.numPending ∧
    0 ≤ pool.maxPeerHeight ∧
    (∀ p peer, pool.peers.lookup p = some peer → peer.height ≤ pool.maxPeerHeight) ∧
    (∀ k bpr b, pool.requesters.lookup k = some bpr → bpr.block = some b →
      ∃ p, bpr.peerID = some p ∧ Event.addBlock p b ∈ evs) := by
  have hi : Inv (fun p b => Event.addBlock p b ∈ evs) pool :=
    (Inv.init start).run (fun _ _ h => h) hrun
  obtain ⟨n, hn⟩ := hi.contiguous
  refine ⟨?_, hi.req.pending, hi.maxBound.nonneg, hi.maxBound.bound, hi.req.blockFrom⟩
  rw [length_of_window hn]
  exact hn

/-- A peer for the runs below. -/
def peerP : PeerID := ⟨"p", by decide⟩

/-- One peer serves heights `1` and `2` to two requesters. -/
def twoBlocksEvents : List Event :=
  [.setPeerRange peerP 1 2, .makeNextRequester, .makeNextRequester, .pickPeer 1, .assignPeer 1,
    .pickPeer 2, .assignPeer 2, .addBlock peerP ⟨1, []⟩, .addBlock peerP ⟨2, []⟩]

theorem run_poolBookkeeping_twoBlocks :
    ∃ pool, run (NewBlockPool 1) twoBlocksEvents = .ok pool ∧
      ((∀ k, k ∈ pool.requesters ↔
        pool.height ≤ k ∧ k < pool.height + pool.requesters.entries.length) ∧
      (countValues (fun bpr => bpr.block.isNone) pool.requesters : Int) ≤ pool.numPending ∧
      0 ≤ pool.maxPeerHeight ∧
      (∀ p peer, pool.peers.lookup p = some peer → peer.height ≤ pool.maxPeerHeight) ∧
      (∀ k bpr b, pool.requesters.lookup k = some bpr → bpr.block = some b →
        ∃ p, bpr.peerID = some p ∧ Event.addBlock p b ∈ twoBlocksEvents)) :=
  ⟨_, rfl, run_poolBookkeeping 1 twoBlocksEvents rfl⟩

/-- `numPending` drifts above the requests still pending.  After the reactor peeked both
blocks, the peer is removed and the first requester takes its redo before `PopRequest`: the
reset counts the requester as pending again, and `PopRequest` deletes it without taking it off
the counter, which then counts one request that no requester holds. -/
theorem run_poolBookkeeping_fails :
    ∃ pool₁ pool₂, run (NewBlockPool 1) twoBlocksEvents = .ok pool₁ ∧
      pool₁.PeekTwoBlocks = (some ⟨1, []⟩, some ⟨2, []⟩) ∧
      run pool₁ [.removePeer peerP, .receiveRedo 1, .popRequest] = .ok pool₂ ∧
      countValues (fun bpr => bpr.block.isNone) pool₂.requesters = 0 ∧ pool₂.numPending = 1 :=
  ⟨_, _, rfl, rfl, rfl, rfl, rfl⟩

end Tendermint.V0
