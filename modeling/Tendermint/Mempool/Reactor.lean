import Tendermint.Lib.GoMap
import Tendermint.Types.Basic

/-!
# The mempool reactor's peer numbers

`mempoolIDs` (mempool/reactor.go) gives each peer a number of 16 bits, under which the mempool
records who sent it a transaction.  `ReserveForPeer`, run by the reactor's `InitPeer`, takes the
next number not in use, from `nextID` on and wrapping around, and panics once `maxActiveIDs`
numbers are in use; `Reclaim`, run by `RemovePeer`, frees the number of a peer.  Number 0 stays
in use for the node's own transactions.

The search loop of `nextPeerID` ends because some number is free while fewer than 2^16 are in
use.  The model runs it for at most 2^16 rounds, which is enough: it returns a free number
(`nextFree_not_mem`).  So `ReserveForPeer` succeeds below the bound, and adds one number to
those in use (`ReserveForPeer_ok`, `ReserveForPeer_card`); at the bound it panics
(`ReserveForPeer_panics`).
-/

namespace Tendermint.Mempool

open GoMap

/-- A node ID of the p2p layer. -/
abbrev ID := String

/-- `maxActiveIDs = math.MaxUint16`. -/
def maxActiveIDs : Nat := 65535

/-- `mempoolIDs`; the set `activeIDs` is a map to empty structs in the source. -/
structure mempoolIDs where
  peerMap : Map ID UInt16
  nextID : UInt16
  activeIDs : Finset UInt16

/-- `newMempoolIDs`: number 0 is reserved for `BroadcastTx`. -/
def newMempoolIDs : mempoolIDs := ⟨∅, 1, {0}⟩

namespace mempoolIDs

/-- The loop of `nextPeerID`: from `id` on, the first number not in use, in at most `fuel`
rounds. -/
def nextFree (activeIDs : Finset UInt16) : Nat → UInt16 → UInt16
  | 0, id => id
  | fuel + 1, id => if id ∈ activeIDs then nextFree activeIDs fuel (id + 1) else id

/-- `nextPeerID`: the number taken, with `nextID` moved past it. -/
def nextPeerID (ids : mempoolIDs) : Go (UInt16 × mempoolIDs) :=
  if ids.activeIDs.card = maxActiveIDs then
    throw (.panic ("node has maximum " ++ toString maxActiveIDs ++
      " active IDs and wanted to get one more"))
  else
    let curID := nextFree ids.activeIDs (2 ^ 16) ids.nextID
    pure (curID, { ids with nextID := curID + 1 })

/-- `ReserveForPeer`: a number of the peer's own, over any it had. -/
def ReserveForPeer (ids : mempoolIDs) (peer : ID) : Go mempoolIDs := do
  let (curID, ids) ← nextPeerID ids
  pure { ids with peerMap := ids.peerMap.insert peer curID,
                  activeIDs := insert curID ids.activeIDs }

/-- `Reclaim`: the number the map holds for the peer is freed. -/
def Reclaim (ids : mempoolIDs) (peer : ID) : mempoolIDs :=
  match ids.peerMap.lookup peer with
  | some removedID =>
    { ids with activeIDs := ids.activeIDs.erase removedID, peerMap := ids.peerMap.erase peer }
  | none => ids

/-- `GetForPeer`; an unknown peer reads as 0. -/
def GetForPeer (ids : mempoolIDs) (peer : ID) : UInt16 := (ids.peerMap.lookup peer).getD 0

/-! ## The search ends on a free number -/

/-- How many rounds of the loop lead from `id` to `v`, wrapping around. -/
def dist (id v : UInt16) : Nat := (v.toNat + 2 ^ 16 - id.toNat) % 2 ^ 16

lemma dist_succ {id v : UInt16} (h : v ≠ id) : dist (id + 1) v + 1 = dist id v := by
  have hv := UInt16.toNat_lt v
  have hid := UInt16.toNat_lt id
  have hne : v.toNat ≠ id.toNat := fun h' => h (UInt16.toNat_inj.mp h')
  unfold dist
  rw [UInt16.toNat_add, UInt16.toNat_one]
  omega

lemma dist_lt (id v : UInt16) : dist id v < 2 ^ 16 := Nat.mod_lt _ (by norm_num)

/-- The loop returns a free number when it has the rounds to reach one. -/
lemma nextFree_not_mem {activeIDs : Finset UInt16} {v : UInt16} (hv : v ∉ activeIDs) :
    ∀ (fuel : Nat) (id : UInt16), dist id v < fuel → nextFree activeIDs fuel id ∉ activeIDs
  | 0, _, h => absurd h (Nat.not_lt_zero _)
  | fuel + 1, id, h => by
    unfold nextFree
    split_ifs with hid
    · -- `id` is taken, so `v` is one round nearer from `id + 1`
      have hne : v ≠ id := fun h' => hv (h' ▸ hid)
      have hd := dist_succ hne
      exact nextFree_not_mem hv fuel (id + 1) (by omega)
    · exact hid

lemma exists_not_mem_of_card_lt {activeIDs : Finset UInt16} (h : activeIDs.card < 2 ^ 16) :
    ∃ v, v ∉ activeIDs := by
  have huniv : Fintype.card UInt16 = 2 ^ 16 := by
    rw [← FinEnum.card_eq_fintypeCard, FinEnum.card_UInt16]
  have h' : activeIDs.card < (Finset.univ : Finset UInt16).card := by
    rw [Finset.card_univ, huniv]
    exact h
  obtain ⟨v, -, hv⟩ := Finset.exists_mem_notMem_of_card_lt_card h'
  exact ⟨v, hv⟩

/-- Below the bound `ReserveForPeer` takes a free number, and maps the peer to it. -/
lemma ReserveForPeer_ok (ids : mempoolIDs) (peer : ID) (h : ids.activeIDs.card < maxActiveIDs) :
    ∃ c, c ∉ ids.activeIDs ∧ ids.ReserveForPeer peer =
      .ok ⟨ids.peerMap.insert peer c, c + 1, insert c ids.activeIDs⟩ := by
  have hlt : ids.activeIDs.card < 2 ^ 16 := by unfold maxActiveIDs at h; omega
  obtain ⟨v, hv⟩ := exists_not_mem_of_card_lt hlt
  refine ⟨nextFree ids.activeIDs (2 ^ 16) ids.nextID,
    nextFree_not_mem hv _ _ (dist_lt _ _), ?_⟩
  have hne : ids.activeIDs.card ≠ maxActiveIDs := Nat.ne_of_lt h
  simp [ReserveForPeer, nextPeerID, hne]
  rfl

/-- Each number `ReserveForPeer` takes is one more in use. -/
theorem ReserveForPeer_card {ids ids' : mempoolIDs} {peer : ID}
    (h : ids.activeIDs.card < maxActiveIDs) (hr : ids.ReserveForPeer peer = .ok ids') :
    ids'.activeIDs.card = ids.activeIDs.card + 1 := by
  obtain ⟨c, hc, hres⟩ := ReserveForPeer_ok ids peer h
  rw [hres] at hr
  cases hr
  exact Finset.card_insert_of_notMem hc

/-- The first peer of a new reactor gets number 1, next to the node's own 0. -/
theorem ReserveForPeer_card_new :
    newMempoolIDs.activeIDs.card < maxActiveIDs ∧
      ∃ ids', newMempoolIDs.ReserveForPeer "peer" = .ok ids' ∧ ids'.activeIDs.card = 2 ∧
        ids'.GetForPeer "peer" = 1 := by
  have hlt : newMempoolIDs.activeIDs.card < maxActiveIDs := by decide
  obtain ⟨ids', hres⟩ : ∃ ids', newMempoolIDs.ReserveForPeer "peer" = .ok ids' := ⟨_, rfl⟩
  refine ⟨hlt, ids', hres, ReserveForPeer_card hlt hres, ?_⟩
  cases hres
  decide

/-- At the bound it panics. -/
lemma ReserveForPeer_panics (ids : mempoolIDs) (peer : ID)
    (h : ids.activeIDs.card = maxActiveIDs) : Panics (ids.ReserveForPeer peer) :=
  ⟨_, by simp [ReserveForPeer, nextPeerID, h]; rfl⟩

end mempoolIDs

end Tendermint.Mempool
