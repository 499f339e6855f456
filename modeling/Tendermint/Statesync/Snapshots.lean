import Tendermint.Lib.GoMap
import Tendermint.Types.Basic

/-!
# The state-sync snapshot pool (statesync/snapshots)

`snapshotPool` gathers the snapshots peers advertise, one entry per `snapshot.Key()`, with the
peers that have each, three indexes (by format, by height, by peer) and three blacklists.
`Add` files a snapshot under its key; `Reject`, `RejectFormat`, `RejectPeer` and `RemovePeer`
take entries out again; `Ranked` and `Best` order the entries for the syncer.

Go maps are `GoMap.Map`; a `map[T]bool` holds only `true`, read with `false` as the default, and
a set of peers is a map to `Unit`.  `sha256` and the light client's `AppHash` are parameters.

`Key_collides` shows that the key does not tell snapshots apart: it hashes the decimal fields and
then the raw `Hash` and `Metadata` bytes with no framing between them, so the snapshots
that split one byte string differently between `Hash` and `Metadata` share a key whatever the
hash function.  `Add_collision` follows it through the pool: a second peer's different snapshot
joins the first one's entry, and rejecting it blacklists the first.
-/

namespace Tendermint.Statesync

open GoMap

/-- `p2p.ID`. -/
abbrev PeerID := String

structure snapshot where
  Height : Nat
  Format : Nat
  Chunks : Nat
  Hash : Bytes
  Metadata : Bytes
  trustedAppHash : Bytes
  deriving DecidableEq, Repr

/-- `snapshotKey`: the SHA-256 sum, as bytes. -/
abbrev snapshotKey := Bytes

/-- `recentSnapshots`: how many snapshots a peer may advertise. -/
def recentSnapshots : Nat := 10

/-- `fmt.Sprintf("%v:%v:%v", s.Height, s.Format, s.Chunks)`, as bytes. -/
def keyPrefix (s : snapshot) : Bytes :=
  (toString s.Height ++ ":" ++ toString s.Format ++ ":" ++ toString s.Chunks).toUTF8.toList

/-- `snapshot.Key`: the hash of the prefix, the hash and the metadata, one after another. -/
def snapshot.Key (sha256 : Bytes → Bytes) (s : snapshot) : snapshotKey :=
  sha256 (keyPrefix s ++ s.Hash ++ s.Metadata)

structure snapshotPool where
  snapshots : Map snapshotKey snapshot
  snapshotPeers : Map snapshotKey (Map PeerID Unit)
  formatIndex : Map Nat (Map snapshotKey Bool)
  heightIndex : Map Nat (Map snapshotKey Bool)
  peerIndex : Map PeerID (Map snapshotKey Bool)
  formatBlacklist : Map Nat Bool
  peerBlacklist : Map PeerID Bool
  snapshotBlacklist : Map snapshotKey Bool

def newSnapshotPool : snapshotPool :=
  { snapshots := ∅, snapshotPeers := ∅, formatIndex := ∅, heightIndex := ∅, peerIndex := ∅,
    formatBlacklist := ∅, peerBlacklist := ∅, snapshotBlacklist := ∅ }

namespace snapshotPool

variable (sha256 : Bytes → Bytes)

/-- `Add`: the light client's app hash is set on the snapshot, then it is filed under its key
unless a blacklist or the peer's quota refuses it; `true` when the key is new. -/
def Add (AppHash : Nat → Except String Bytes) (p : snapshotPool) (peerID : PeerID)
    (snapshot : snapshot) : Except String (snapshotPool × Bool) := do
  let appHash ← AppHash snapshot.Height
  let snapshot := { snapshot with trustedAppHash := appHash }
  let key := snapshot.Key sha256
  if (p.formatBlacklist.lookup snapshot.Format).getD false then pure (p, false)
  else if (p.peerBlacklist.lookup peerID).getD false then pure (p, false)
  else if (p.snapshotBlacklist.lookup key).getD false then pure (p, false)
  else if ((p.peerIndex.lookup peerID).getD ∅).entries.length ≥ recentSnapshots then
    pure (p, false)
  else
    -- the peer is recorded for the key before the pool looks whether the key is known
    let p := { p with snapshotPeers := setIn p.snapshotPeers key peerID (),
                      peerIndex := setIn p.peerIndex peerID key true }
    if (p.snapshots.lookup key).isSome then pure (p, false)
    else pure ({ p with snapshots := p.snapshots.insert key snapshot,
                        formatIndex := setIn p.formatIndex snapshot.Format key true,
                        heightIndex := setIn p.heightIndex snapshot.Height key true }, true)

/-- `GetPeers`: the peers of the snapshot's key, sorted by ID. -/
def GetPeers (p : snapshotPool) (snapshot : snapshot) : List PeerID :=
  (((p.snapshotPeers.lookup (snapshot.Key sha256)).getD ∅).keys).insertionSort
    fun a b => decide (a < b)

/-- The order of `Ranked`: greater height, then greater format, then more peers. -/
def rankedBefore (p : snapshotPool) (a b : snapshot) : Bool :=
  if a.Height > b.Height then true
  else if a.Height < b.Height then false
  else if a.Format > b.Format then true
  else if a.Format < b.Format then false
  else ((p.snapshotPeers.lookup (a.Key sha256)).getD ∅).entries.length >
    ((p.snapshotPeers.lookup (b.Key sha256)).getD ∅).entries.length

def Ranked (p : snapshotPool) : List snapshot :=
  (p.snapshots.entries.map (·.2)).insertionSort fun a b => rankedBefore sha256 p a b

def Best (p : snapshotPool) : Option snapshot := (Ranked sha256 p).head?

/-- `removeSnapshot`: the entry, its index entries and its peers' index entries. -/
def removeSnapshot (p : snapshotPool) (key : snapshotKey) : snapshotPool :=
  match p.snapshots.lookup key with
  | none => p
  | some snapshot =>
    let p := { p with snapshots := p.snapshots.erase key,
                      formatIndex := deleteIn p.formatIndex snapshot.Format key,
                      heightIndex := deleteIn p.heightIndex snapshot.Height key }
    let peerIDs := ((p.snapshotPeers.lookup key).getD ∅).keys
    let p := { p with peerIndex := peerIDs.foldl (fun idx peerID => deleteIn idx peerID key)
                                     p.peerIndex }
    { p with snapshotPeers := p.snapshotPeers.erase key }

/-- `removePeer`: the peer leaves each of its snapshots, and a snapshot left without peers
goes. -/
def removePeer (p : snapshotPool) (peerID : PeerID) : snapshotPool :=
  let keys := ((p.peerIndex.lookup peerID).getD ∅).keys
  let p := keys.foldl (fun p key =>
    let p := { p with snapshotPeers := deleteIn p.snapshotPeers key peerID }
    if ((p.snapshotPeers.lookup key).getD ∅).entries.length = 0 then p.removeSnapshot key
    else p) p
  { p with peerIndex := p.peerIndex.erase peerID }

def Reject (p : snapshotPool) (snapshot : snapshot) : snapshotPool :=
  let key := snapshot.Key sha256
  let p := { p with snapshotBlacklist := p.snapshotBlacklist.insert key true }
  p.removeSnapshot key

def RejectFormat (p : snapshotPool) (format : Nat) : snapshotPool :=
  let p := { p with formatBlacklist := p.formatBlacklist.insert format true }
  ((p.formatIndex.lookup format).getD ∅).keys.foldl removeSnapshot p

def RejectPeer (p : snapshotPool) (peerID : PeerID) : snapshotPool :=
  if peerID = "" then p
  else
    let p := p.removePeer peerID
    { p with peerBlacklist := p.peerBlacklist.insert peerID true }

def RemovePeer (p : snapshotPool) (peerID : PeerID) : snapshotPool := p.removePeer peerID

end snapshotPool

open snapshotPool

/-! ## Keys that do not tell snapshots apart -/

/-- The key hashes the hash and the metadata with nothing between them: moving a byte from the
end of one to the start of the other keeps the key, for every hash function. -/
theorem Key_collides (sha256 : Bytes → Bytes) (s : snapshot) (x : UInt8) :
    snapshot.Key sha256 { s with Hash := s.Hash ++ [x] } =
      snapshot.Key sha256 { s with Metadata := x :: s.Metadata } := by
  simp [snapshot.Key, keyPrefix, List.append_assoc]

lemma Key_trustedAppHash (sha256 : Bytes → Bytes) (s : snapshot) (h : Bytes) :
    snapshot.Key sha256 { s with trustedAppHash := h } = snapshot.Key sha256 s := rfl

section Add

variable (sha256 : Bytes → Bytes) (AppHash : Nat → Except String Bytes) {p : snapshotPool}
  {peerID : PeerID} {s : snapshot} {appHash : Bytes}

/-- What `Add` does past its refusals: the peer is filed under the key. -/
def withPeer (p : snapshotPool) (key : snapshotKey) (peerID : PeerID) : snapshotPool :=
  { p with snapshotPeers := setIn p.snapshotPeers key peerID (),
           peerIndex := setIn p.peerIndex peerID key true }

/-- And, for a new key, the snapshot with its index entries. -/
def withSnapshot (p : snapshotPool) (key : snapshotKey) (s : snapshot) : snapshotPool :=
  { p with snapshots := p.snapshots.insert key s,
           formatIndex := setIn p.formatIndex s.Format key true,
           heightIndex := setIn p.heightIndex s.Height key true }

lemma Add_eq_accepted (happ : AppHash s.Height = .ok appHash)
    (hformat : (p.formatBlacklist.lookup s.Format).getD false = false)
    (hpeer : (p.peerBlacklist.lookup peerID).getD false = false)
    (hsnap : (p.snapshotBlacklist.lookup (s.Key sha256)).getD false = false)
    (hquota : ((p.peerIndex.lookup peerID).getD ∅).entries.length < recentSnapshots) :
    snapshotPool.Add sha256 AppHash p peerID s =
      if (p.snapshots.lookup (s.Key sha256)).isSome then
        .ok (withPeer p (s.Key sha256) peerID, false)
      else .ok (withSnapshot (withPeer p (s.Key sha256) peerID) (s.Key sha256)
        { s with trustedAppHash := appHash }, true) := by
  simp only [snapshotPool.Add, happ, Key_trustedAppHash, hformat, hpeer, hsnap, Bool.false_eq_true,
    if_false, not_le.mpr hquota]
  rfl
end Add

/-- A peer advertising a different snapshot with the same key joins the entry of the snapshot
already filed, is listed among its peers, and a rejection of its snapshot removes the first. -/
theorem Add_collision (sha256 : Bytes → Bytes) (AppHash : Nat → Except String Bytes)
    (s : snapshot) (x : UInt8) (p₁ p₂ : PeerID) (appHash : Bytes)
    (happ : AppHash s.Height = .ok appHash) :
    { s with Hash := s.Hash ++ [x] } ≠ { s with Metadata := x :: s.Metadata } ∧
    ∃ pool₁ pool₂,
      snapshotPool.Add sha256 AppHash newSnapshotPool p₁ { s with Hash := s.Hash ++ [x] } =
        .ok (pool₁, true) ∧
      snapshotPool.Add sha256 AppHash pool₁ p₂ { s with Metadata := x :: s.Metadata } =
        .ok (pool₂, false) ∧
      pool₂.snapshots.lookup (snapshot.Key sha256 { s with Metadata := x :: s.Metadata }) =
        some { s with Hash := s.Hash ++ [x], trustedAppHash := appHash } ∧
      p₂ ∈ GetPeers sha256 pool₂ { s with Metadata := x :: s.Metadata } ∧
      (Reject sha256 pool₂ { s with Metadata := x :: s.Metadata }).snapshots.lookup
        (snapshot.Key sha256 { s with Hash := s.Hash ++ [x] }) = none := by
  have hne : { s with Hash := s.Hash ++ [x] } ≠ { s with Metadata := x :: s.Metadata } := by
    intro h
    have hlen := congrArg (fun t : snapshot => t.Hash.length) h
    simp at hlen
  -- both snapshots go under one key
  have hkey := Key_collides sha256 s x
  have h₁ := @Add_eq_accepted sha256 AppHash newSnapshotPool p₁ { s with Hash := s.Hash ++ [x] }
    appHash happ rfl rfl rfl (by simp [newSnapshotPool, recentSnapshots])
  rw [if_neg (by simp [newSnapshotPool])] at h₁
  set pool₁ := withSnapshot (withPeer newSnapshotPool
    (snapshot.Key sha256 { s with Hash := s.Hash ++ [x] }) p₁)
    (snapshot.Key sha256 { s with Hash := s.Hash ++ [x] })
    { s with Hash := s.Hash ++ [x], trustedAppHash := appHash } with hpool₁
  -- the second snapshot finds the first one's entry and only joins its peers
  have h₂ := @Add_eq_accepted sha256 AppHash pool₁ p₂ { s with Metadata := x :: s.Metadata }
    appHash happ rfl rfl rfl (by
      simp only [hpool₁, withSnapshot, withPeer, newSnapshotPool, lookup_setIn, recentSnapshots]
      split <;> simp)
  have hlookup : pool₁.snapshots.lookup (snapshot.Key sha256 { s with Metadata := x :: s.Metadata }) =
      some { s with Hash := s.Hash ++ [x], trustedAppHash := appHash } := by
    rw [← hkey, hpool₁]
    exact AList.lookup_insert _
  rw [if_pos (by rw [hlookup]; rfl)] at h₂
  refine ⟨hne, _, _, h₁, h₂, hlookup, ?_, ?_⟩
  · -- the second peer is listed among the first snapshot's peers
    simp only [GetPeers, withPeer, lookup_setIn, if_true]
    rw [(List.perm_insertionSort _ _).mem_iff, Option.getD_some, ← AList.mem_keys]
    exact (AList.mem_insert _).mpr (Or.inl rfl)
  · simp only [Reject, removeSnapshot, withPeer]
    rw [hkey, hlookup]
    exact AList.lookup_erase _ _

theorem Add_collision_one :
    (fun _ => .ok [] : Nat → Except String Bytes) 1 = .ok [] ∧
    ({ (⟨1, 1, 1, [], [], []⟩ : snapshot) with Hash := [] ++ [0] } ≠
      { (⟨1, 1, 1, [], [], []⟩ : snapshot) with Metadata := [0] } ∧
    ∃ pool₁ pool₂,
      snapshotPool.Add id (fun _ => .ok []) newSnapshotPool "a" ⟨1, 1, 1, [] ++ [0], [], []⟩ =
        .ok (pool₁, true) ∧
      snapshotPool.Add id (fun _ => .ok []) pool₁ "b" ⟨1, 1, 1, [], [0], []⟩ = .ok (pool₂, false) ∧
      pool₂.snapshots.lookup (snapshot.Key id ⟨1, 1, 1, [], [0], []⟩) =
        some ⟨1, 1, 1, [] ++ [0], [], []⟩ ∧
      "b" ∈ GetPeers id pool₂ ⟨1, 1, 1, [], [0], []⟩ ∧
      (Reject id pool₂ ⟨1, 1, 1, [], [0], []⟩).snapshots.lookup
        (snapshot.Key id ⟨1, 1, 1, [] ++ [0], [], []⟩) = none) :=
  ⟨rfl, Add_collision id (fun _ => .ok []) ⟨1, 1, 1, [], [], []⟩ 0 "a" "b" [] rfl⟩

end Tendermint.Statesync
