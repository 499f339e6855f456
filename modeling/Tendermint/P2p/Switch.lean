import Tendermint.Mempool.Reactor

/-!
# Peers joining and leaving the switch

`Switch.addPeer` (p2p/switch.go) runs for each connection that `acceptRoutine` accepts or
`addOutboundPeerWithConfig` dials, each on its own goroutine.  `filterPeer` turns away a node ID
already in `sw.peers` and asks the peer filters; then `InitPeer` runs on every reactor, the peer
is started, and `sw.peers.Add` adds it, which fails for a node ID already there.  When `addPeer`
fails, its caller cleans the transport up and stops the peer; no reactor hears of it.
`stopAndRemovePeer` runs `RemovePeer` on every reactor and removes the peer's node ID from
`sw.peers`.

Of the reactors the model keeps the mempool's, whose `InitPeer` reserves a peer number and whose
`RemovePeer` frees it.  Each part of `addPeer` is a step of its own, so the parts of two
connections interleave.

What the model shows: two connections of one node that both pass `filterPeer` before either
joins `sw.peers` both reserve a number; `sw.peers.Add` turns the second away with its number
still reserved, and the mempool's map gives the node that second number.  Once the first is
removed, one number stays in use with no peer connected, and the second connection had
`InitPeer` but never `RemovePeer`.  Each such round leaks one more number, and after 65533
rounds `InitPeer` panics with no peer connected (`duplicate_connections_exhaust_ids`).
-/

namespace Tendermint.P2p

open GoMap Mempool

/-- How far a connection got through `addPeer`, or what ended it. -/
inductive peerPhase where
  | connected
  | filtered
  | inited
  | started
  | added
  /-- `addPeer` failed: the transport was cleaned up and the peer stopped -/
  | dropped
  /-- `stopAndRemovePeer` ran -/
  | stopped
  deriving DecidableEq, Repr

/-- A connection: its node ID, its phase, and whether `InitPeer` and `RemovePeer` ran on it. -/
structure peer where
  ID : ID
  phase : peerPhase
  inited : Bool
  removed : Bool
  deriving DecidableEq, Repr

/-- The switch: `sw.peers` from node ID to connection, the connections by number, and the
mempool reactor's peer numbers. -/
structure Switch where
  peers : Map ID Nat
  conns : Map Nat peer
  ids : mempoolIDs

def NewSwitch : Switch := ⟨∅, ∅, newMempoolIDs⟩

namespace Switch

def setConn (sw : Switch) (n : Nat) (p : peer) : Switch := { sw with conns := sw.conns.insert n p }

/-- The connection `n`, if it is in phase `ph`. -/
def connIn (sw : Switch) (n : Nat) (ph : peerPhase) : Option peer :=
  match sw.conns.lookup n with
  | some p => if p.phase = ph then some p else none
  | none => none

end Switch

/-- A connection made, a part of `addPeer` for it, or `stopAndRemovePeer`. -/
inductive Event where
  | connect (n : Nat) (id : ID)
  /-- `filterPeer`, with the filters' verdict: `false` for a rejection or a timeout -/
  | filter (n : Nat) (pass : Bool)
  | initPeer (n : Nat)
  | start (n : Nat) (ok : Bool)
  | add (n : Nat)
  | stopAndRemovePeer (n : Nat)

/-- One step; `none` when it cannot be taken, or panics. -/
def step (sw : Switch) : Event → Option Switch
  | .connect n id =>
    match sw.conns.lookup n with
    | none => some (sw.setConn n ⟨id, .connected, false, false⟩)
    | some _ => none
  | .filter n pass =>
    (sw.connIn n .connected).map fun p =>
      if (sw.peers.lookup p.ID).isSome || !pass then sw.setConn n { p with phase := .dropped }
      else sw.setConn n { p with phase := .filtered }
  | .initPeer n =>
    (sw.connIn n .filtered).bind fun p =>
      match sw.ids.ReserveForPeer p.ID with
      | .ok ids => some { sw.setConn n { p with phase := .inited, inited := true } with ids := ids }
      | .error _ => none
  | .start n ok =>
    (sw.connIn n .inited).map fun p =>
      if ok then sw.setConn n { p with phase := .started }
      else sw.setConn n { p with phase := .dropped }
  | .add n =>
    (sw.connIn n .started).map fun p =>
      if (sw.peers.lookup p.ID).isSome then sw.setConn n { p with phase := .dropped }
      else { sw.setConn n { p with phase := .added } with peers := sw.peers.insert p.ID n }
  | .stopAndRemovePeer n =>
    (sw.connIn n .added).map fun p =>
      -- `RemovePeer` on every reactor, then `sw.peers.Remove`, which goes by the node ID
      { sw.setConn n { p with phase := .stopped, removed := true } with
        ids := sw.ids.Reclaim p.ID, peers := sw.peers.erase p.ID }

def run (sw : Switch) : List Event → Option Switch
  | [] => some sw
  | ev :: evs => (step sw ev).bind fun sw => run sw evs

lemma run_append (sw : Switch) (l₁ l₂ : List Event) :
    run sw (l₁ ++ l₂) = (run sw l₁).bind fun sw => run sw l₂ := by
  induction l₁ generalizing sw with
  | nil => rfl
  | cons ev l₁ ih =>
    simp only [List.cons_append, run]
    cases step sw ev with
    | none => rfl
    | some sw₁ => exact ih sw₁

/-! ## Two connections of one node -/

/-- Two connections of node `x`, numbered `n` and `n + 1`, one accepted and one dialed: both pass
`filterPeer` before either joins `sw.peers`; the first joins and the second is turned away as a
duplicate; then the first is stopped and removed. -/
def duplicateRound (x : ID) (n : Nat) : List Event :=
  [.connect n x, .connect (n + 1) x, .filter n true, .filter (n + 1) true, .initPeer n,
   .initPeer (n + 1), .start n true, .start (n + 1) true, .add n, .add (n + 1),
   .stopAndRemovePeer n]

def duplicateRounds (x : ID) : Nat → List Event
  | 0 => []
  | r + 1 => duplicateRounds x r ++ duplicateRound x (2 * r)

/-- Where `r` rounds leave the switch: no peer, node `x` unmapped, `r + 1` numbers in use, the
second connection of each round turned away after `InitPeer` and never removed, and the
connection numbers of later rounds unused. -/
structure Quiet (x : ID) (r : Nat) (sw : Switch) : Prop where
  noPeers : ∀ id, sw.peers.lookup id = none
  unmapped : sw.ids.peerMap.lookup x = none
  card : sw.ids.activeIDs.card = r + 1
  leaked : ∀ k < r, sw.conns.lookup (2 * k + 1) = some ⟨x, .dropped, true, false⟩
  fresh : ∀ n, 2 * r ≤ n → sw.conns.lookup n = none

lemma Quiet.init (x : ID) : Quiet x 0 NewSwitch :=
  ⟨fun _ => rfl, rfl, rfl, fun _ h => absurd h (Nat.not_lt_zero _), fun _ _ => rfl⟩

/-- One round from a quiet switch leaks one number. -/
lemma Quiet.duplicateRound {x : ID} {r : Nat} {sw : Switch} (hq : Quiet x r sw)
    (hr : r + 2 < maxActiveIDs) :
    ∃ sw', run sw (duplicateRound x (2 * r)) = some sw' ∧ Quiet x (r + 1) sw' := by
  -- the two reservations succeed, with two numbers not in use
  obtain ⟨c₁, hc₁, h₁⟩ := sw.ids.ReserveForPeer_ok x (by rw [hq.card]; omega)
  have hcard₁ : (insert c₁ sw.ids.activeIDs).card = r + 2 := by
    rw [Finset.card_insert_of_notMem hc₁, hq.card]
  obtain ⟨c₂, hc₂, h₂⟩ := mempoolIDs.ReserveForPeer_ok
    ⟨sw.ids.peerMap.insert x c₁, c₁ + 1, insert c₁ sw.ids.activeIDs⟩ x
    (by rw [hcard₁]; omega)
  have hn : sw.conns.lookup (2 * r) = none := hq.fresh _ le_rfl
  have hn₁ : sw.conns.lookup (2 * r + 1) = none := hq.fresh _ (Nat.le_succ _)
  simp [Tendermint.P2p.duplicateRound, run, step, Switch.connIn, Switch.setConn,
    lookup_insert_ite, hn, hn₁, hq.noPeers x, h₁, h₂]
  -- the first connection came and went; the second stays turned away with its number
  refine ⟨fun id => ?_, ?_, ?_, fun k hk => ?_, fun n hn' => ?_⟩
  · rw [lookup_erase_ite, lookup_insert_ite]
    split_ifs <;> simp [hq.noPeers]
  · simp [mempoolIDs.Reclaim]
  · simp only [mempoolIDs.Reclaim, AList.lookup_insert, Finset.erase_insert hc₂]
    exact hcard₁
  · rcases Nat.lt_succ_iff_lt_or_eq.mp hk with hk | rfl
    · have hne : 2 * k + 1 ≠ 2 * r := by omega
      simp [hne, hk.ne, hq.leaked k hk]
    · simp
  · have hne : n ≠ 2 * r := by omega
    have hne₁ : n ≠ 2 * r + 1 := by omega
    simp [hne, hne₁, hq.fresh n (by omega)]

/-- So do `r` rounds from a new switch, while the numbers last. -/
lemma Quiet.duplicateRounds (x : ID) :
    ∀ r, r + 1 < maxActiveIDs → ∃ sw, run NewSwitch (duplicateRounds x r) = some sw ∧ Quiet x r sw
  | 0, _ => ⟨NewSwitch, rfl, Quiet.init x⟩
  | r + 1, h => by
    obtain ⟨sw, hrun, hq⟩ := Quiet.duplicateRounds x r (by omega)
    obtain ⟨sw', hrun', hq'⟩ := hq.duplicateRound (by omega)
    refine ⟨sw', ?_, hq'⟩
    rw [Tendermint.P2p.duplicateRounds, run_append, hrun, Option.bind_some, hrun']

/-- Rounds of two connections of one node leak the mempool's peer numbers.  After `r` rounds, as
far as the numbers last, no peer is connected, yet `r + 1` numbers are in use where only number 0
should be; the second connection of each round had `InitPeer` and never `RemovePeer`.  After
65533 rounds two more connections of the node pass `filterPeer`, the first takes the last
number, and `InitPeer` of the second panics, with no peer connected. -/
theorem duplicate_connections_exhaust_ids (x : ID) :
    (∀ r ≤ 65533, ∃ sw, run NewSwitch (duplicateRounds x r) = some sw ∧
      (∀ id, sw.peers.lookup id = none) ∧ sw.ids.activeIDs.card = r + 1 ∧
      ∀ k < r, sw.conns.lookup (2 * k + 1) = some ⟨x, .dropped, true, false⟩) ∧
    ∃ sw, run NewSwitch (duplicateRounds x 65533 ++
        [.connect 131066 x, .connect 131067 x, .filter 131066 true, .filter 131067 true,
         .initPeer 131066]) = some sw ∧
      (∀ id, sw.peers.lookup id = none) ∧
      sw.connIn 131067 .filtered = some ⟨x, .filtered, false, false⟩ ∧
      Panics (sw.ids.ReserveForPeer x) ∧ step sw (.initPeer 131067) = none := by
  refine ⟨fun r hr => ?_, ?_⟩
  · obtain ⟨sw, hrun, hq⟩ := Quiet.duplicateRounds x r (by unfold maxActiveIDs; omega)
    exact ⟨sw, hrun, hq.noPeers, hq.card, hq.leaked⟩
  · obtain ⟨sw, hrun, hq⟩ := Quiet.duplicateRounds x 65533 (by unfold maxActiveIDs; omega)
    -- the first of the two takes the last number below the bound
    obtain ⟨c, hc, hres⟩ := sw.ids.ReserveForPeer_ok x (by rw [hq.card]; decide)
    have hcard : (insert c sw.ids.activeIDs).card = maxActiveIDs := by
      rw [Finset.card_insert_of_notMem hc, hq.card]
      rfl
    obtain ⟨msg, hmsg⟩ := mempoolIDs.ReserveForPeer_panics
      ⟨sw.ids.peerMap.insert x c, c + 1, insert c sw.ids.activeIDs⟩ x hcard
    have hn : sw.conns.lookup 131066 = none := hq.fresh _ (by norm_num)
    have hn₁ : sw.conns.lookup 131067 = none := hq.fresh _ (by norm_num)
    simp [run_append, hrun, run, step, Switch.connIn, Switch.setConn, hn, hn₁, hq.noPeers, hres]
    exact ⟨⟨msg, hmsg⟩, by simp [hmsg]⟩

end Tendermint.P2p
