import Tendermint.Blockchain.Scheduler

/-!
# The scheduler's bookkeeping invariant

`Inv` ties the four maps of `scheduler` together: the block states form a window
`[height, height + targetPending)`; a height is Pending exactly when `pendingBlocks` and
`pendingTime` have it, and Received exactly when `receivedBlocks` has it; and the peer named for
a pending or received height is Ready and reports a height that reaches it.  Each map's keys are
unique by construction (`GoMap.Map`).

`Keeps sc sc'` says that `sc'` follows `sc` in the bookkeeping: the invariant carries over and
height does not go down.  It is transitive, so each handler's lemma is the chain of the
mutators it calls, each with its own lemma: `Inv.setPeer` for any write to a peer,
`Inv.setNew` for a height added to the window, and `removePeer_keeps`, `markPending_keeps`,
`markReceived_keeps`, `markProcessed_keeps`, `addNewBlocks_keeps`.
-/

namespace Tendermint.V2

open GoMap

namespace scheduler

/-! ## Field lemmas -/

@[simp] lemma setStateAtHeight_blockStates (sc : scheduler) (h : Int) (s : blockState) :
    (sc.setStateAtHeight h s).blockStates = sc.blockStates.insert h s := rfl

@[simp] lemma setStateAtHeight_peers (sc : scheduler) (h : Int) (s : blockState) :
    (sc.setStateAtHeight h s).peers = sc.peers := rfl

@[simp] lemma setStateAtHeight_height (sc : scheduler) (h : Int) (s : blockState) :
    (sc.setStateAtHeight h s).height = sc.height := rfl

@[simp] lemma setStateAtHeight_targetPending (sc : scheduler) (h : Int) (s : blockState) :
    (sc.setStateAtHeight h s).targetPending = sc.targetPending := rfl

@[simp] lemma setStateAtHeight_pendingBlocks (sc : scheduler) (h : Int) (s : blockState) :
    (sc.setStateAtHeight h s).pendingBlocks = sc.pendingBlocks := rfl

@[simp] lemma setStateAtHeight_pendingTime (sc : scheduler) (h : Int) (s : blockState) :
    (sc.setStateAtHeight h s).pendingTime = sc.pendingTime := rfl

@[simp] lemma setStateAtHeight_receivedBlocks (sc : scheduler) (h : Int) (s : blockState) :
    (sc.setStateAtHeight h s).receivedBlocks = sc.receivedBlocks := rfl

/-- Below `height` every block is Processed; from `height` on the map says, Unknown if absent. -/
lemma getStateAtHeight_of_le {sc : scheduler} {h : Int} (hh : sc.height ≤ h) :
    sc.getStateAtHeight h = (sc.blockStates.lookup h).getD .blockStateUnknown := by
  unfold getStateAtHeight
  rw [if_neg (not_lt.mpr hh)]
  cases sc.blockStates.lookup h <;> rfl

/-- A state other than Processed and Unknown is read from the map at a height not below
`height`. -/
lemma getStateAtHeight_eq {sc : scheduler} {h : Int} {s : blockState}
    (hp : s ≠ .blockStateProcessed) (hu : s ≠ .blockStateUnknown) :
    sc.getStateAtHeight h = s ↔ sc.height ≤ h ∧ sc.blockStates.lookup h = some s := by
  by_cases hh : sc.height ≤ h
  · rw [getStateAtHeight_of_le hh]
    cases hl : sc.blockStates.lookup h with
    | none => exact ⟨fun e => absurd e.symm hu, fun e => nomatch e.2⟩
    | some s' => exact ⟨fun e => ⟨hh, congrArg some e⟩, fun e => Option.some.inj e.2⟩
  · have hlt : h < sc.height := lt_of_not_ge hh
    simp only [getStateAtHeight, if_pos hlt]
    exact ⟨fun e => absurd e.symm hp, fun e => absurd e.1 hh⟩

/-- Unknown is read at a height not below `height` with no state, or the state Unknown. -/
lemma getStateAtHeight_eq_unknown {sc : scheduler} {h : Int} :
    sc.getStateAtHeight h = .blockStateUnknown ↔
      sc.height ≤ h ∧ (sc.blockStates.lookup h).getD .blockStateUnknown = .blockStateUnknown := by
  by_cases hh : sc.height ≤ h
  · rw [getStateAtHeight_of_le hh]
    exact ⟨fun e => ⟨hh, e⟩, fun e => e.2⟩
  · have hlt : h < sc.height := lt_of_not_ge hh
    simp only [getStateAtHeight, if_pos hlt]
    exact ⟨(fun e => nomatch e), fun e => absurd e.1 hh⟩

/-! ## The invariant -/

/-- `peerID` is a Ready peer whose reported height reaches `h`. -/
def ReadyAt (sc : scheduler) (peerID : PeerID) (h : Int) : Prop :=
  ∃ peer, sc.peers.lookup peerID = some peer ∧ peer.state = .peerStateReady ∧ h ≤ peer.height

structure Inv (sc : scheduler) : Prop where
  /-- Every peer is stored under its own ID. -/
  peerID_key : ∀ k peer, sc.peers.lookup k = some peer → peer.peerID = k
  /-- The block states are a window of `targetPending` heights from `height`. -/
  window : ∀ h ∈ sc.blockStates, sc.height ≤ h ∧ h < sc.height + sc.targetPending
  pending_iff : ∀ h, sc.blockStates.lookup h = some .blockStatePending ↔ h ∈ sc.pendingBlocks
  pendingTime_iff : ∀ h, h ∈ sc.pendingTime ↔ h ∈ sc.pendingBlocks
  received_iff : ∀ h, sc.blockStates.lookup h = some .blockStateReceived ↔ h ∈ sc.receivedBlocks
  pending_ready : ∀ h p, sc.pendingBlocks.lookup h = some p → sc.ReadyAt p h
  received_ready : ∀ h p, sc.receivedBlocks.lookup h = some p → sc.ReadyAt p h

/-- `sc'` follows `sc` in the bookkeeping: from the invariant, the invariant again, and a height
that has not gone down. -/
def Keeps (sc sc' : scheduler) : Prop := Inv sc → Inv sc' ∧ sc.height ≤ sc'.height

lemma Keeps.refl (sc : scheduler) : Keeps sc sc := fun hi => ⟨hi, le_refl _⟩

lemma Keeps.trans {sc₁ sc₂ sc₃ : scheduler} (h₁ : Keeps sc₁ sc₂) (h₂ : Keeps sc₂ sc₃) :
    Keeps sc₁ sc₃ := by
  intro hi
  obtain ⟨hi₂, hle₂⟩ := h₁ hi
  obtain ⟨hi₃, hle₃⟩ := h₂ hi₂
  exact ⟨hi₃, hle₂.trans hle₃⟩

/-- A change that keeps the height and turns the invariant into itself. -/
lemma Keeps.of_inv {sc sc' : scheduler} (h : Inv sc → Inv sc') (hh : sc.height = sc'.height) :
    Keeps sc sc' :=
  fun hi => ⟨h hi, hh.le⟩

/-- A pending height of the map is a block state. -/
lemma Inv.mem_of_pending {sc : scheduler} (hi : Inv sc) {h : Int} (hp : h ∈ sc.pendingBlocks) :
    h ∈ sc.blockStates :=
  AList.lookup_isSome.mp (by rw [(hi.pending_iff h).mpr hp]; rfl)

/-- A received height of the map is a block state. -/
lemma Inv.mem_of_received {sc : scheduler} (hi : Inv sc) {h : Int}
    (hr : h ∈ sc.receivedBlocks) : h ∈ sc.blockStates :=
  AList.lookup_isSome.mp (by rw [(hi.received_iff h).mpr hr]; rfl)

/-- No height is both pending and received. -/
lemma Inv.not_received_of_pending {sc : scheduler} (hi : Inv sc) {h : Int}
    (hp : h ∈ sc.pendingBlocks) : h ∉ sc.receivedBlocks := by
  intro hr
  have h1 := (hi.pending_iff h).mpr hp
  rw [(hi.received_iff h).mpr hr] at h1
  exact nomatch h1

/-! ## Writes to one entry -/

/-- Writing a peer keeps the invariant when the new entry is stored under its ID and, if some
height is pending from or received from it, is Ready with a height that reaches that one. -/
lemma Inv.setPeer {sc : scheduler} (hi : Inv sc) {k : PeerID} {peer : scPeer}
    (hid : peer.peerID = k)
    (hkeep : ∀ h, sc.pendingBlocks.lookup h = some k ∨ sc.receivedBlocks.lookup h = some k →
      peer.state = .peerStateReady ∧ h ≤ peer.height) :
    Inv { sc with peers := sc.peers.insert k peer } := by
  have hready : ∀ h p, sc.pendingBlocks.lookup h = some p ∨ sc.receivedBlocks.lookup h = some p →
      ReadyAt { sc with peers := sc.peers.insert k peer } p h := by
    intro h p hp
    by_cases hpk : p = k
    · subst hpk
      exact ⟨peer, AList.lookup_insert _, hkeep h hp⟩
    · obtain ⟨old, hold, hr, hle⟩ := hp.elim (hi.pending_ready h p) (hi.received_ready h p)
      exact ⟨old, by rw [AList.lookup_insert_ne hpk]; exact hold, hr, hle⟩
  refine ⟨?_, hi.window, hi.pending_iff, hi.pendingTime_iff, hi.received_iff,
    fun h p hp => hready h p (.inl hp), fun h p hp => hready h p (.inr hp)⟩
  intro k' p hp
  by_cases hk : k' = k
  · subst hk
    rw [AList.lookup_insert] at hp
    cases hp
    exact hid
  · rw [AList.lookup_insert_ne hk] at hp
    exact hi.peerID_key k' p hp

/-- Marking a height of the window New keeps the invariant, when it was Unknown. -/
lemma Inv.setNew {sc : scheduler} (hi : Inv sc) {i : Int}
    (hhi : i < sc.height + sc.targetPending)
    (hunk : sc.getStateAtHeight i = .blockStateUnknown) :
    Inv (sc.setStateAtHeight i .blockStateNew) := by
  obtain ⟨hlo, hval⟩ := getStateAtHeight_eq_unknown.mp hunk
  -- `i` holds neither a pending nor a received block
  have hnp : i ∉ sc.pendingBlocks := fun hp => by
    rw [(hi.pending_iff i).mpr hp] at hval
    exact nomatch hval
  have hnr : i ∉ sc.receivedBlocks := fun hr => by
    rw [(hi.received_iff i).mpr hr] at hval
    exact nomatch hval
  refine ⟨hi.peerID_key, ?_, ?_, hi.pendingTime_iff, ?_, hi.pending_ready, hi.received_ready⟩
  · intro h hh
    rcases (AList.mem_insert _).mp hh with rfl | hh
    · exact ⟨hlo, hhi⟩
    · exact hi.window h hh
  · intro h
    simp only [setStateAtHeight_blockStates, setStateAtHeight_pendingBlocks, lookup_insert_ite]
    split
    · subst h
      exact ⟨(fun e => nomatch e), fun e => absurd e hnp⟩
    · exact hi.pending_iff h
  · intro h
    simp only [setStateAtHeight_blockStates, setStateAtHeight_receivedBlocks, lookup_insert_ite]
    split
    · subst h
      exact ⟨(fun e => nomatch e), fun e => absurd e hnr⟩
    · exact hi.received_iff h

/-! ## `addNewBlocks` -/

lemma addNewBlocksFrom_keeps : ∀ (n : Nat) (i : Int) (sc : scheduler), sc.height ≤ i →
    i + n ≤ sc.height + sc.targetPending → Keeps sc (addNewBlocksFrom n i sc)
  | 0, _, sc, _, _ => Keeps.refl sc
  | n + 1, i, sc, hlo, hhi => by
    unfold addNewBlocksFrom
    split
    · exact Keeps.refl sc
    · -- `i` is marked New if Unknown, then the loop goes on from `i + 1`
      split
      · rename_i hunk
        refine (Keeps.of_inv (fun hi => hi.setNew (by omega) hunk) rfl).trans
          (addNewBlocksFrom_keeps n (i + 1) _ ?_ ?_)
        · simp only [setStateAtHeight_height]
          omega
        · simp only [setStateAtHeight_height, setStateAtHeight_targetPending]
          omega
      · exact addNewBlocksFrom_keeps n (i + 1) sc (by omega) (by omega)

lemma addNewBlocks_keeps (sc : scheduler) : Keeps sc sc.addNewBlocks := by
  unfold addNewBlocks
  split
  · exact Keeps.refl sc
  · rename_i hlen
    -- below `targetPending` entries, `targetPending` is positive
    exact addNewBlocksFrom_keeps _ _ sc le_rfl (by omega)

/-- The clock of the last advance is no part of the bookkeeping. -/
lemma Inv.setLastAdvance {sc : scheduler} (hi : Inv sc) (t : Time) :
    Inv { sc with lastAdvance := t } :=
  ⟨hi.peerID_key, hi.window, hi.pending_iff, hi.pendingTime_iff, hi.received_iff,
    hi.pending_ready, hi.received_ready⟩

/-- Rewriting a stored peer keeps the invariant when its ID stays and a Ready peer stays Ready
with a height at least as high. -/
lemma Inv.updatePeer {sc : scheduler} (hi : Inv sc) {k : PeerID} {peer : scPeer}
    (hp : sc.peers.lookup k = some peer) (peer' : scPeer) (hid : peer'.peerID = peer.peerID)
    (hready : peer.state = .peerStateReady →
      peer'.state = .peerStateReady ∧ peer.height ≤ peer'.height) :
    Inv { sc with peers := sc.peers.insert k peer' } := by
  refine hi.setPeer (hid.trans (hi.peerID_key k peer hp)) fun h hh => ?_
  obtain ⟨old, hold, hr, hle⟩ := hh.elim (hi.pending_ready h k) (hi.received_ready h k)
  rw [hp] at hold
  cases hold
  obtain ⟨hr', hle'⟩ := hready hr
  exact ⟨hr', hle.trans hle'⟩

/-! ## The mutators -/

lemma touchPeer_eq_ok {sc sc' : scheduler} {p : PeerID} {t : Time}
    (hok : sc.touchPeer p t = .ok sc') :
    ∃ peer, sc.peers.lookup p = some peer ∧
      sc' = { sc with peers := sc.peers.insert p { peer with lastTouched := t } } := by
  unfold touchPeer at hok
  split at hok
  · exact nomatch hok
  · rename_i peer hpeer
    split at hok
    · exact nomatch hok
    · cases hok
      exact ⟨peer, hpeer, rfl⟩

lemma touchPeer_keeps {sc sc' : scheduler} {p : PeerID} {t : Time}
    (hok : sc.touchPeer p t = .ok sc') : Keeps sc sc' := by
  obtain ⟨peer, hpeer, rfl⟩ := touchPeer_eq_ok hok
  exact Keeps.of_inv (fun hi => hi.updatePeer hpeer _ rfl fun hr => ⟨hr, le_rfl⟩) rfl

lemma markPending_eq_ok {sc sc' : scheduler} {p : PeerID} {height : Int} {time : Time}
    (hok : sc.markPending p height time = .ok sc') :
    sc.getStateAtHeight height = .blockStateNew ∧ sc.ReadyAt p height ∧
      sc' = { sc.setStateAtHeight height .blockStatePending with
        pendingBlocks := sc.pendingBlocks.insert height p,
        pendingTime := sc.pendingTime.insert height time } := by
  unfold markPending at hok
  dsimp only at hok
  split at hok
  · exact nomatch hok
  rename_i hnew
  split at hok
  · exact nomatch hok
  rename_i peer hpeer
  split at hok
  · exact nomatch hok
  rename_i hready
  split at hok
  · exact nomatch hok
  rename_i hle
  split at hok
  · exact nomatch hok
  cases hok
  exact ⟨not_not.mp hnew, ⟨peer, hpeer, not_not.mp hready, not_lt.mp hle⟩, rfl⟩

lemma markPending_keeps {sc sc' : scheduler} {p : PeerID} {height : Int} {time : Time}
    (hok : sc.markPending p height time = .ok sc') : Keeps sc sc' := by
  obtain ⟨hnew, hready, rfl⟩ := markPending_eq_ok hok
  refine Keeps.of_inv (fun hi => ?_) rfl
  obtain ⟨-, hval⟩ := (getStateAtHeight_eq (by decide) (by decide)).mp hnew
  -- `height` is New: a block state, neither pending nor received
  have hmem : height ∈ sc.blockStates := AList.lookup_isSome.mp (by rw [hval]; rfl)
  have hnp : height ∉ sc.pendingBlocks := fun hp => by
    rw [(hi.pending_iff height).mpr hp] at hval
    exact nomatch hval
  have hnr : height ∉ sc.receivedBlocks := fun hr => by
    rw [(hi.received_iff height).mpr hr] at hval
    exact nomatch hval
  refine ⟨hi.peerID_key, ?_, ?_, ?_, ?_, ?_, hi.received_ready⟩
  · intro h hh
    rcases (AList.mem_insert _).mp hh with rfl | hh
    · exact hi.window _ hmem
    · exact hi.window h hh
  · intro h
    simp only [setStateAtHeight_blockStates, lookup_insert_ite, AList.mem_insert]
    by_cases hh : h = height
    · simp [hh]
    · simp only [hh, if_false, false_or]
      exact hi.pending_iff h
  · intro h
    simp only [AList.mem_insert]
    exact or_congr Iff.rfl (hi.pendingTime_iff h)
  · intro h
    simp only [setStateAtHeight_blockStates, setStateAtHeight_receivedBlocks, lookup_insert_ite]
    by_cases hh : h = height
    · rw [if_pos hh]
      subst hh
      exact ⟨(fun e => nomatch e), fun e => absurd e hnr⟩
    · rw [if_neg hh]
      exact hi.received_iff h
  · intro h q hq
    simp only [lookup_insert_ite] at hq
    by_cases hh : h = height
    · rw [if_pos hh] at hq
      cases hq
      subst hh
      exact hready
    · rw [if_neg hh] at hq
      exact hi.pending_ready h q hq

lemma markReceived_eq_ok {sc sc' : scheduler} {p : PeerID} {height size : Int} {now : Time}
    (hok : sc.markReceived p height size now = .ok sc') :
    ∃ peer t, sc.peers.lookup p = some peer ∧ peer.state = .peerStateReady ∧
      sc.getStateAtHeight height = .blockStatePending ∧
      (sc.pendingBlocks.lookup height).getD "" = p ∧ sc.pendingTime.lookup height = some t ∧
      sc' = { ({ sc with peers := sc.peers.insert p { peer with lastRate := size.tdiv (now - t) } }
                ).setStateAtHeight height .blockStateReceived with
              pendingBlocks := sc.pendingBlocks.erase height,
              pendingTime := sc.pendingTime.erase height,
              receivedBlocks := sc.receivedBlocks.insert height p } := by
  unfold markReceived at hok
  split at hok
  · exact nomatch hok
  rename_i peer hpeer
  split at hok
  · exact nomatch hok
  rename_i hready
  split at hok
  · exact nomatch hok
  rename_i hreq
  dsimp only at hok
  split at hok
  · exact nomatch hok
  rename_i hclock
  obtain ⟨hpend, hfrom⟩ := not_or.mp hreq
  cases ht : sc.pendingTime.lookup height with
  | none => simp [ht] at hclock
  | some t =>
    rw [ht] at hok
    cases hok
    exact ⟨peer, t, hpeer, not_not.mp hready, not_not.mp hpend, not_not.mp hfrom, rfl, rfl⟩

lemma markReceived_keeps {sc sc' : scheduler} {p : PeerID} {height size : Int} {now : Time}
    (hok : sc.markReceived p height size now = .ok sc') : Keeps sc sc' := by
  obtain ⟨peer, t, hpeer, -, hpend, hfrom, -, rfl⟩ := markReceived_eq_ok hok
  refine Keeps.of_inv (fun hi => ?_) rfl
  obtain ⟨-, hval⟩ := (getStateAtHeight_eq (by decide) (by decide)).mp hpend
  -- `height` is pending, and from `p`
  have hp : height ∈ sc.pendingBlocks := (hi.pending_iff height).mp hval
  have hpb : sc.pendingBlocks.lookup height = some p := by
    obtain ⟨q, hq⟩ := Option.isSome_iff_exists.mp (AList.lookup_isSome.mpr hp)
    rw [hq] at hfrom ⊢
    exact congrArg some hfrom
  have hmem : height ∈ sc.blockStates := hi.mem_of_pending hp
  have hnr : height ∉ sc.receivedBlocks := hi.not_received_of_pending hp
  obtain ⟨_, hpeer', _, hle⟩ := hi.pending_ready height p hpb
  rw [hpeer] at hpeer'
  cases hpeer'
  -- the peer's new rate keeps it Ready at its height
  have hi₁ := hi.updatePeer hpeer { peer with lastRate := size.tdiv (now - t) } rfl
    fun hr => ⟨hr, le_rfl⟩
  refine ⟨hi₁.peerID_key, ?_, ?_, ?_, ?_, ?_, ?_⟩
  · intro h hh
    rcases (AList.mem_insert _).mp hh with rfl | hh
    · exact hi.window _ hmem
    · exact hi.window h hh
  · intro h
    simp only [setStateAtHeight_blockStates, lookup_insert_ite, AList.mem_erase]
    by_cases hh : h = height
    · simp [hh]
    · simp only [hh, if_false, ne_eq, not_false_eq_true, true_and]
      exact hi.pending_iff h
  · intro h
    simp only [AList.mem_erase]
    exact and_congr Iff.rfl (hi.pendingTime_iff h)
  · intro h
    simp only [setStateAtHeight_blockStates, lookup_insert_ite, AList.mem_insert]
    by_cases hh : h = height
    · simp [hh]
    · simp only [hh, if_false, false_or]
      exact hi.received_iff h
  · intro h q hq
    simp only [lookup_erase_ite] at hq
    split at hq
    · exact nomatch hq
    · exact hi₁.pending_ready h q hq
  · intro h q hq
    simp only [lookup_insert_ite] at hq
    split at hq
    · rename_i hh
      cases hq
      subst hh
      exact ⟨_, AList.lookup_insert _, ‹_›, hle⟩
    · exact hi₁.received_ready h q hq

/-- Processing the block at `height` moves the window up by one. -/
lemma markProcessed_keeps (sc : scheduler) (now : Time) :
    Keeps sc (sc.markProcessed sc.height now).1 := by
  unfold markProcessed
  dsimp only
  split
  · exact Keeps.of_inv (fun hi => hi.setLastAdvance now) rfl
  · rename_i hrec
    refine Keeps.trans (fun hi => ⟨?_, by dsimp only; omega⟩) (addNewBlocks_keeps _)
    obtain ⟨-, hval⟩ := (getStateAtHeight_eq (by decide) (by decide)).mp (not_not.mp hrec)
    have hr : sc.height ∈ sc.receivedBlocks := (hi.received_iff _).mp hval
    -- the processed height is neither pending nor a state any more
    have hnp : sc.height ∉ sc.pendingBlocks := fun hp => hi.not_received_of_pending hp hr
    refine ⟨hi.peerID_key, ?_, ?_, hi.pendingTime_iff, ?_, hi.pending_ready, ?_⟩
    · intro h hh
      obtain ⟨hne, hh⟩ := AList.mem_erase.mp hh
      have hw := hi.window h hh
      dsimp only
      omega
    · intro h
      dsimp only
      rw [lookup_erase_ite]
      split
      · rename_i hh
        subst hh
        exact ⟨(fun e => nomatch e), fun e => absurd e hnp⟩
      · exact hi.pending_iff h
    · intro h
      dsimp only
      rw [lookup_erase_ite, AList.mem_erase]
      split
      · rename_i hh
        exact ⟨(fun e => nomatch e), fun e => absurd hh e.1⟩
      · rename_i hh
        exact (hi.received_iff h).trans ⟨fun e => ⟨hh, e⟩, fun e => e.2⟩
    · intro h q hq
      dsimp only at hq
      rw [lookup_erase_ite] at hq
      split at hq
      · exact nomatch hq
      · exact hi.received_ready h q hq

/-- `ensurePeer` stores a new peer only under an ID nothing refers to. -/
lemma ensurePeer_keeps (sc : scheduler) (p : PeerID) : Keeps sc (sc.ensurePeer p).1 := by
  unfold ensurePeer
  split
  · exact Keeps.refl sc
  · rename_i hnone
    refine Keeps.of_inv (fun hi => hi.setPeer rfl fun h hh => ?_) rfl
    obtain ⟨_, hsome, -⟩ := hh.elim (hi.pending_ready h p) (hi.received_ready h p)
    rw [hnone] at hsome
    exact nomatch hsome

lemma ensurePeer_lookup (sc : scheduler) (p : PeerID) :
    (sc.ensurePeer p).1.peers.lookup p = some (sc.ensurePeer p).2 := by
  unfold ensurePeer
  split
  · assumption
  · exact AList.lookup_insert _

/-! ## `removePeer` -/

/-- The first loop of `removePeer` over any entries: the heights listed as pending from `p`
become New and leave `pendingBlocks` and `pendingTime`; nothing else changes. -/
lemma foldl_removePendingAt (p : PeerID) : ∀ (L : List (Σ _ : Int, PeerID)) (acc : scheduler),
    ∃ bs pb pt, L.foldl (removePendingAt p) acc =
        { acc with blockStates := bs, pendingBlocks := pb, pendingTime := pt } ∧
      (∀ h, bs.lookup h = if (⟨h, p⟩ : Σ _ : Int, PeerID) ∈ L then some .blockStateNew
        else acc.blockStates.lookup h) ∧
      (∀ h, pb.lookup h = if (⟨h, p⟩ : Σ _ : Int, PeerID) ∈ L then none
        else acc.pendingBlocks.lookup h) ∧
      (∀ h, pt.lookup h = if (⟨h, p⟩ : Σ _ : Int, PeerID) ∈ L then none
        else acc.pendingTime.lookup h)
  | [], acc => ⟨acc.blockStates, acc.pendingBlocks, acc.pendingTime, rfl,
      fun _ => by simp, fun _ => by simp, fun _ => by simp⟩
  | ⟨k, q⟩ :: L, acc => by
    obtain ⟨bs, pb, pt, heq, hbs, hpb, hpt⟩ :=
      foldl_removePendingAt p L (removePendingAt p acc ⟨k, q⟩)
    by_cases hq : q = p
    · -- the entry is pending from `p`: its height is New and leaves both maps
      subst hq
      have hstep : removePendingAt q acc ⟨k, q⟩ =
          { acc with blockStates := acc.blockStates.insert k .blockStateNew,
                     pendingTime := acc.pendingTime.erase k,
                     pendingBlocks := acc.pendingBlocks.erase k } := if_pos rfl
      rw [hstep] at hbs hpb hpt
      refine ⟨bs, pb, pt, by rw [List.foldl_cons, heq, hstep], fun h => ?_, fun h => ?_,
        fun h => ?_⟩
      · rw [hbs h, lookup_insert_ite]
        by_cases hL : (⟨h, q⟩ : Σ _ : Int, PeerID) ∈ L <;> by_cases hk : h = k <;> simp [hL, hk]
      · rw [hpb h, lookup_erase_ite]
        by_cases hL : (⟨h, q⟩ : Σ _ : Int, PeerID) ∈ L <;> by_cases hk : h = k <;> simp [hL, hk]
      · rw [hpt h, lookup_erase_ite]
        by_cases hL : (⟨h, q⟩ : Σ _ : Int, PeerID) ∈ L <;> by_cases hk : h = k <;> simp [hL, hk]
    · -- another peer's entry is passed over
      have hstep : removePendingAt p acc ⟨k, q⟩ = acc := if_neg hq
      rw [hstep] at hbs hpb hpt
      refine ⟨bs, pb, pt, by rw [List.foldl_cons, heq, hstep], fun h => ?_, fun h => ?_,
        fun h => ?_⟩ <;> simp [hbs, hpb, hpt, Ne.symm hq]

/-- The second loop of `removePeer` over any entries: the heights listed as received from `p`
become New and leave `receivedBlocks`; nothing else changes. -/
lemma foldl_removeReceivedAt (p : PeerID) : ∀ (L : List (Σ _ : Int, PeerID)) (acc : scheduler),
    ∃ bs rb, L.foldl (removeReceivedAt p) acc =
        { acc with blockStates := bs, receivedBlocks := rb } ∧
      (∀ h, bs.lookup h = if (⟨h, p⟩ : Σ _ : Int, PeerID) ∈ L then some .blockStateNew
        else acc.blockStates.lookup h) ∧
      (∀ h, rb.lookup h = if (⟨h, p⟩ : Σ _ : Int, PeerID) ∈ L then none
        else acc.receivedBlocks.lookup h)
  | [], acc => ⟨acc.blockStates, acc.receivedBlocks, rfl, fun _ => by simp, fun _ => by simp⟩
  | ⟨k, q⟩ :: L, acc => by
    obtain ⟨bs, rb, heq, hbs, hrb⟩ := foldl_removeReceivedAt p L (removeReceivedAt p acc ⟨k, q⟩)
    by_cases hq : q = p
    · subst hq
      have hstep : removeReceivedAt q acc ⟨k, q⟩ =
          { acc with blockStates := acc.blockStates.insert k .blockStateNew,
                     receivedBlocks := acc.receivedBlocks.erase k } := if_pos rfl
      rw [hstep] at hbs hrb
      refine ⟨bs, rb, by rw [List.foldl_cons, heq, hstep], fun h => ?_, fun h => ?_⟩
      · rw [hbs h, lookup_insert_ite]
        by_cases hL : (⟨h, q⟩ : Σ _ : Int, PeerID) ∈ L <;> by_cases hk : h = k <;> simp [hL, hk]
      · rw [hrb h, lookup_erase_ite]
        by_cases hL : (⟨h, q⟩ : Σ _ : Int, PeerID) ∈ L <;> by_cases hk : h = k <;> simp [hL, hk]
    · have hstep : removeReceivedAt p acc ⟨k, q⟩ = acc := if_neg hq
      rw [hstep] at hbs hrb
      refine ⟨bs, rb, by rw [List.foldl_cons, heq, hstep], fun h => ?_, fun h => ?_⟩ <;>
        simp [hbs, hrb, Ne.symm hq]

/-- Every Ready peer other than `p` reports at most `maxPeerHeight`. -/
lemma le_maxPeerHeight {peers : GoMap.Map PeerID scPeer} {p k : PeerID} {q : scPeer}
    (hq : peers.lookup k = some q) (hr : q.state = .peerStateReady) (hne : q.peerID ≠ p) :
    q.height ≤ maxPeerHeight peers p := by
  refine (le_foldl _ ?_ (fun e : Σ _ : PeerID, scPeer => e.2.state = .peerStateReady ∧
      e.2.peerID ≠ p) (fun e => e.2.height) ?_ peers.entries 0).2 ⟨k, q⟩
    (AList.mem_lookup_iff.mp hq) ⟨hr, hne⟩
  · intro m e
    split_ifs <;> omega
  · rintro m e ⟨hr, hne⟩
    simp only [hr, ne_eq, not_true_eq_false, if_false, hne, not_false_eq_true, true_and]
    split_ifs <;> omega

lemma removePeer_eq_ok {sc sc' : scheduler} {p : PeerID} (hok : sc.removePeer p = .ok sc') :
    (sc.peers.lookup p = none ∧ sc' = sc) ∨
    ∃ peer, sc.peers.lookup p = some peer ∧ peer.state ≠ .peerStateRemoved ∧
      sc' = let sc₂ := removeReceived p (removePending p sc)
        let removed := { peer with state := .peerStateRemoved }
        let sc₃ := { sc₂ with peers := sc₂.peers.insert p removed }
        let max := maxPeerHeight sc₃.peers peer.peerID
        { sc₃ with blockStates := GoMap.filterKeys sc₃.blockStates fun h => !(h > max) } := by
  unfold removePeer at hok
  split at hok
  · rename_i hnone
    cases hok
    exact .inl ⟨hnone, rfl⟩
  · rename_i peer hpeer
    split at hok
    · exact nomatch hok
    · rename_i hne
      cases hok
      exact .inr ⟨peer, hpeer, hne, rfl⟩

/-- The invariant after a peer's removal, from what the removal does to each map: the heights
pending from or received from it leave their maps and are New, it is marked Removed, and the
block states above the highest height another Ready peer reports are dropped. -/
lemma Inv.removal {sc sc' : scheduler} (hi : Inv sc) {p : PeerID} {peer : scPeer}
    (hpeer : sc.peers.lookup p = some peer)
    (hheight : sc'.height = sc.height) (htarget : sc'.targetPending = sc.targetPending)
    (hpeers : sc'.peers = sc.peers.insert p { peer with state := .peerStateRemoved })
    (hpb : ∀ h, sc'.pendingBlocks.lookup h =
      if sc.pendingBlocks.lookup h = some p then none else sc.pendingBlocks.lookup h)
    (hpt : ∀ h, sc'.pendingTime.lookup h =
      if sc.pendingBlocks.lookup h = some p then none else sc.pendingTime.lookup h)
    (hrb : ∀ h, sc'.receivedBlocks.lookup h =
      if sc.receivedBlocks.lookup h = some p then none else sc.receivedBlocks.lookup h)
    (hbs : ∀ h, sc'.blockStates.lookup h =
      if h > maxPeerHeight sc'.peers peer.peerID then none
      else if sc.receivedBlocks.lookup h = some p ∨ sc.pendingBlocks.lookup h = some p then
        some .blockStateNew
      else sc.blockStates.lookup h) :
    Inv sc' := by
  have hid : peer.peerID = p := hi.peerID_key p peer hpeer
  -- another peer's entry is untouched, and a height it serves survives the filter
  have hother : ∀ q, q ≠ p → sc'.peers.lookup q = sc.peers.lookup q := fun q hq => by
    rw [hpeers, AList.lookup_insert_ne hq]
  have hready : ∀ h q, q ≠ p → sc.ReadyAt q h → sc'.ReadyAt q h := by
    rintro h q hq ⟨qp, hqp, hr, hle⟩
    exact ⟨qp, (hother q hq).trans hqp, hr, hle⟩
  have hkeep : ∀ h q, q ≠ p → sc.ReadyAt q h → ¬ h > maxPeerHeight sc'.peers peer.peerID := by
    rintro h q hq ⟨qp, hqp, hr, hle⟩
    have hne : qp.peerID ≠ peer.peerID := by rw [hi.peerID_key q qp hqp, hid]; exact hq
    have := le_maxPeerHeight ((hother q hq).trans hqp) hr hne
    omega
  -- so a pending or received height above the cut is the removed peer's
  have hpbM : ∀ h, h > maxPeerHeight sc'.peers peer.peerID → h ∈ sc.pendingBlocks →
      sc.pendingBlocks.lookup h = some p := by
    intro h hM hmem
    obtain ⟨q, hq⟩ := Option.isSome_iff_exists.mp (AList.lookup_isSome.mpr hmem)
    by_cases hqp : q = p
    · rw [hq, hqp]
    · exact absurd hM (hkeep h q hqp (hi.pending_ready h q hq))
  have hrbM : ∀ h, h > maxPeerHeight sc'.peers peer.peerID → h ∈ sc.receivedBlocks →
      sc.receivedBlocks.lookup h = some p := by
    intro h hM hmem
    obtain ⟨q, hq⟩ := Option.isSome_iff_exists.mp (AList.lookup_isSome.mpr hmem)
    by_cases hqp : q = p
    · rw [hq, hqp]
    · exact absurd hM (hkeep h q hqp (hi.received_ready h q hq))
  have hmemP : ∀ h, sc.pendingBlocks.lookup h = some p → h ∈ sc.pendingBlocks := fun h e =>
    AList.lookup_isSome.mp (by rw [e]; rfl)
  have hmemR : ∀ h, sc.receivedBlocks.lookup h = some p → h ∈ sc.receivedBlocks := fun h e =>
    AList.lookup_isSome.mp (by rw [e]; rfl)
  refine ⟨?_, ?_, ?_, ?_, ?_, ?_, ?_⟩
  · intro k q hq
    rw [hpeers, lookup_insert_ite] at hq
    split at hq
    · rename_i hk
      cases hq
      rw [hk]
      exact hid
    · exact hi.peerID_key k q hq
  · intro h hh
    rw [← AList.lookup_isSome, hbs] at hh
    rw [hheight, htarget]
    split at hh
    · exact nomatch hh
    split at hh
    · rename_i hrp
      rcases hrp with hr | hp
      · exact hi.window h (hi.mem_of_received (hmemR h hr))
      · exact hi.window h (hi.mem_of_pending (hmemP h hp))
    · exact hi.window h (AList.lookup_isSome.mp hh)
  · intro h
    rw [hbs, ← AList.lookup_isSome, hpb]
    by_cases hP : sc.pendingBlocks.lookup h = some p
    · rw [if_pos hP]
      split_ifs <;> simp_all
    by_cases hR : sc.receivedBlocks.lookup h = some p
    · -- received, so not pending
      have hnp : h ∉ sc.pendingBlocks := fun hp => hi.not_received_of_pending hp (hmemR h hR)
      rw [if_neg hP, AList.lookup_isSome]
      split_ifs <;> simp_all
    have hRP : ¬ (sc.receivedBlocks.lookup h = some p ∨ sc.pendingBlocks.lookup h = some p) :=
      not_or.mpr ⟨hR, hP⟩
    rw [if_neg hP, AList.lookup_isSome, if_neg hRP]
    split
    · rename_i hM
      exact ⟨(fun e => nomatch e), fun hp => absurd (hpbM h hM hp) hP⟩
    · exact hi.pending_iff h
  · intro h
    rw [← AList.lookup_isSome, ← AList.lookup_isSome, hpt, hpb]
    split
    · rfl
    · rw [AList.lookup_isSome, AList.lookup_isSome]
      exact hi.pendingTime_iff h
  · intro h
    rw [hbs, ← AList.lookup_isSome, hrb]
    by_cases hR : sc.receivedBlocks.lookup h = some p
    · rw [if_pos hR]
      split_ifs <;> simp_all
    by_cases hP : sc.pendingBlocks.lookup h = some p
    · -- pending, so not received
      have hnr : h ∉ sc.receivedBlocks := hi.not_received_of_pending (hmemP h hP)
      rw [if_neg hR, AList.lookup_isSome]
      split_ifs <;> simp_all
    have hRP : ¬ (sc.receivedBlocks.lookup h = some p ∨ sc.pendingBlocks.lookup h = some p) :=
      not_or.mpr ⟨hR, hP⟩
    rw [if_neg hR, AList.lookup_isSome, if_neg hRP]
    split
    · rename_i hM
      exact ⟨(fun e => nomatch e), fun hr => absurd (hrbM h hM hr) hR⟩
    · exact hi.received_iff h
  · intro h q hq
    rw [hpb] at hq
    split at hq
    · exact nomatch hq
    · rename_i hP
      exact hready h q (fun e => hP (e ▸ hq)) (hi.pending_ready h q hq)
  · intro h q hq
    rw [hrb] at hq
    split at hq
    · exact nomatch hq
    · rename_i hR
      exact hready h q (fun e => hR (e ▸ hq)) (hi.received_ready h q hq)

lemma removePeer_keeps {sc sc' : scheduler} {p : PeerID} (hok : sc.removePeer p = .ok sc') :
    Keeps sc sc' := by
  rcases removePeer_eq_ok hok with ⟨-, rfl⟩ | ⟨peer, hpeer, -, rfl⟩
  · exact Keeps.refl _
  -- the two loops, each by its own lemma
  obtain ⟨bs₁, pb₁, pt₁, h₁, hbs₁, hpb₁, hpt₁⟩ :=
    foldl_removePendingAt p sc.pendingBlocks.entries sc
  obtain ⟨bs₂, rb₂, h₂, hbs₂, hrb₂⟩ :=
    foldl_removeReceivedAt p (removePending p sc).receivedBlocks.entries (removePending p sc)
  have hsc₁ : removePending p sc = _ := h₁
  have hsc₂ : removeReceived p (removePending p sc) = _ := h₂
  rw [hsc₁] at hbs₂ hrb₂
  simp only [AList.mem_lookup_iff.symm, Option.mem_def] at hbs₁ hpb₁ hpt₁ hbs₂ hrb₂
  rw [hsc₂, hsc₁]
  refine Keeps.of_inv (fun hi => hi.removal hpeer rfl rfl rfl hpb₁ hpt₁ hrb₂ fun h => ?_) rfl
  simp only [lookup_filterKeys, hbs₂, hbs₁, Bool.not_eq_true', decide_eq_false_iff_not]
  by_cases hM : h > maxPeerHeight (sc.peers.insert p { peer with state := .peerStateRemoved })
    peer.peerID
  · simp [hM]
  · by_cases hR : sc.receivedBlocks.lookup h = some p <;>
      by_cases hP : sc.pendingBlocks.lookup h = some p <;> simp [hM, hR, hP]

lemma removePeerIgnoringError_keeps (sc : scheduler) (p : PeerID) :
    Keeps sc (sc.removePeerIgnoringError p) := by
  unfold removePeerIgnoringError
  split
  · rename_i hok
    exact removePeer_keeps hok
  · exact Keeps.refl sc

lemma setPeerRange_keeps (sc : scheduler) (p : PeerID) (base height : Int) :
    Keeps sc (sc.setPeerRange p base height).1 := by
  unfold setPeerRange
  have h₁ := ensurePeer_keeps sc p
  have hlook := ensurePeer_lookup sc p
  rcases he : sc.ensurePeer p with ⟨sc₁, peer⟩
  rw [he] at h₁ hlook
  dsimp only
  split_ifs with hrem hlow hbase
  · exact h₁
  · exact h₁.trans (removePeerIgnoringError_keeps sc₁ p)
  · exact h₁
  · -- the peer becomes Ready with a height no lower than before
    refine h₁.trans ((Keeps.of_inv (fun hi => hi.updatePeer hlook
      { peer with base := base, height := height, state := .peerStateReady } rfl
      fun _ => ⟨rfl, not_lt.mp hlow⟩) rfl).trans (addNewBlocks_keeps _))

/-- The removals of `handleTryPrunePeer`, one peer after another. -/
lemma removePrunable_keeps : ∀ (peers : List PeerID) {sc sc' : scheduler},
    sc.removePrunable peers = .ok sc' → Keeps sc sc'
  | [], sc, sc', hok => by
    cases hok
    exact Keeps.refl _
  | p :: ps, sc, sc', hok => by
    unfold removePrunable at hok
    rw [List.foldlM_cons] at hok
    obtain ⟨sc₁, h₁, hrest⟩ := ExceptRun.bind_eq_ok hok
    split at h₁
    · exact nomatch h₁
    · rename_i sc₀ h₀
      cases h₁
      exact (removePeer_keeps h₀).trans (removePrunable_keeps ps hrest)

/-! ## The handlers -/

lemma handleBlockResponse_keeps (sc : scheduler) (time : Time) (p : PeerID) (size : Int)
    (block : Block) : Keeps sc (sc.handleBlockResponse time p size block).2 := by
  unfold handleBlockResponse
  split
  · exact Keeps.refl sc
  · rename_i sc₁ h₁
    split
    · exact (touchPeer_keeps h₁).trans (removePeerIgnoringError_keeps _ _)
    · rename_i sc₂ h₂
      exact (touchPeer_keeps h₁).trans (markReceived_keeps h₂)

lemma handleNoBlockResponse_keeps (sc : scheduler) (p : PeerID) (height : Int) :
    Keeps sc (sc.handleNoBlockResponse p height).2 := by
  unfold handleNoBlockResponse
  split
  · exact Keeps.refl sc
  · split
    · exact Keeps.refl sc
    · split
      · exact Keeps.refl sc
      · exact removePeerIgnoringError_keeps sc p

lemma handleBlockProcessed_keeps {sc sc' : scheduler} {height : Int} {now : Time}
    {out : OutEvent} (hok : sc.handleBlockProcessed height now = .ok (out, sc')) :
    Keeps sc sc' := by
  unfold handleBlockProcessed at hok
  split at hok
  · exact nomatch hok
  · rename_i hh
    obtain rfl : height = sc.height := not_not.mp hh
    have hk := markProcessed_keeps sc now
    rcases hm : sc.markProcessed sc.height now with ⟨sc₁, _ | err⟩ <;> rw [hm] at hk hok
    · dsimp only at hok
      split at hok <;> cases hok <;> exact hk
    · cases hok
      exact hk

lemma handleBlockProcessError_keeps (sc : scheduler) (first second : PeerID) :
    Keeps sc (sc.handleBlockProcessError first second).2 := by
  unfold handleBlockProcessError
  split
  · exact Keeps.refl sc
  · -- one removal, then the other if it is another peer
    have h₁ := removePeerIgnoringError_keeps sc first
    dsimp only
    by_cases hne : first ≠ second
    · rw [if_pos hne]
      split <;> exact h₁.trans (removePeerIgnoringError_keeps _ second)
    · rw [if_neg hne]
      split <;> exact h₁

lemma handleAddNewPeer_keeps (sc : scheduler) (p : PeerID) :
    Keeps sc (sc.handleAddNewPeer p).2 :=
  ensurePeer_keeps sc p

lemma handleRemovePeer_keeps (sc : scheduler) (p : PeerID) :
    Keeps sc (sc.handleRemovePeer p).2 := by
  unfold handleRemovePeer
  split
  · exact Keeps.refl sc
  · rename_i sc₁ h₁
    split <;> exact removePeer_keeps h₁

lemma pruneSilentPeer_keeps (sc : scheduler) (now : Time) : Keeps sc (sc.pruneSilentPeer now) := by
  unfold pruneSilentPeer
  split
  · split
    · exact removePeerIgnoringError_keeps _ _
    · exact Keeps.refl sc
  · exact Keeps.refl sc

lemma handleTryPrunePeer_keeps {sc sc' : scheduler} {time now : Time} {out : OutEvent}
    (hok : sc.handleTryPrunePeer time now = .ok (out, sc')) : Keeps sc sc' := by
  unfold handleTryPrunePeer at hok
  have h₁ := pruneSilentPeer_keeps sc now
  dsimp only at hok
  split at hok
  · cases hok
    exact h₁
  · obtain ⟨sc₂, h₂, hrest⟩ := ExceptRun.bind_eq_ok hok
    have hk := h₁.trans (removePrunable_keeps _ h₂)
    split at hrest <;> cases hrest <;> exact hk

lemma handleTrySchedule_keeps {sc sc' : scheduler} {time now : Time} {out : OutEvent}
    (hok : sc.handleTrySchedule time now = .ok (out, sc')) : Keeps sc sc' := by
  unfold handleTrySchedule at hok
  split at hok
  · cases hok
    exact Keeps.refl _
  dsimp only at hok
  split at hok
  · cases hok
    exact Keeps.refl _
  split at hok
  · cases hok
    exact Keeps.refl _
  · exact nomatch hok
  · split at hok
    · cases hok
      exact Keeps.refl _
    · rename_i sc₁ h₁
      cases hok
      exact markPending_keeps h₁

lemma handleStatusResponse_keeps (sc : scheduler) (p : PeerID) (base height : Int) :
    Keeps sc (sc.handleStatusResponse p base height).2 := by
  have hk := setPeerRange_keeps sc p base height
  unfold handleStatusResponse
  rcases hs : sc.setPeerRange p base height with ⟨sc₁, _ | err⟩ <;> rw [hs] at hk <;> exact hk

end scheduler

/-- Whether the event is `bcResetState`, the one event that moves the window anywhere. -/
def Event.isReset : Event → Bool
  | .bcResetState _ => true
  | _ => false

namespace scheduler

/-- Every event but a reset keeps the bookkeeping. -/
lemma handle_keeps {sc sc' : scheduler} {now : Time} {ev : Event} {out : OutEvent}
    (hev : ev.isReset = false) (hok : sc.handle now ev = .ok (out, sc')) : Keeps sc sc' := by
  -- a handler that cannot fail hands back its state
  have hpure : ∀ r : OutEvent × scheduler, Keeps sc r.2 → (pure r : Go _) = .ok (out, sc') →
      Keeps sc sc' := by
    intro r hr h
    cases h
    exact hr
  cases ev with
  | bcResetState => exact nomatch hev
  | bcStatusResponse _ p base height => exact hpure _ (handleStatusResponse_keeps sc p base height) hok
  | bcBlockResponse time p size block =>
    exact hpure _ (handleBlockResponse_keeps sc time p size block) hok
  | bcNoBlockResponse _ p height => exact hpure _ (handleNoBlockResponse_keeps sc p height) hok
  | rTrySchedule time => exact handleTrySchedule_keeps hok
  | bcAddNewPeer p => exact hpure _ (handleAddNewPeer_keeps sc p) hok
  | bcRemovePeer p => exact hpure _ (handleRemovePeer_keeps sc p) hok
  | rTryPrunePeer time => exact handleTryPrunePeer_keeps hok
  | pcBlockProcessed height _ => exact handleBlockProcessed_keeps hok
  | pcBlockVerificationFailure _ first second =>
    exact hpure _ (handleBlockProcessError_keeps sc first second) hok
  | unknown _ => exact hpure _ (Keeps.refl sc) hok

/-! ## Runs -/

/-- A scheduler with no peers and no block bookkeeping. -/
lemma Inv.of_empty {sc : scheduler} (hp : sc.peers = ∅) (hbs : sc.blockStates = ∅)
    (hpb : sc.pendingBlocks = ∅) (hpt : sc.pendingTime = ∅) (hrb : sc.receivedBlocks = ∅) :
    Inv sc := by
  refine ⟨?_, ?_, ?_, ?_, ?_, ?_, ?_⟩
  · intro k peer h
    rw [hp, AList.lookup_empty] at h
    exact nomatch h
  · intro h hh
    rw [hbs] at hh
    exact absurd hh (AList.notMem_empty h)
  · intro h
    rw [hbs, hpb, AList.lookup_empty]
    exact ⟨(fun e => nomatch e), fun e => absurd e (AList.notMem_empty h)⟩
  · intro h
    rw [hpt, hpb]
    exact ⟨fun e => absurd e (AList.notMem_empty h), fun e => absurd e (AList.notMem_empty h)⟩
  · intro h
    rw [hbs, hrb, AList.lookup_empty]
    exact ⟨(fun e => nomatch e), fun e => absurd e (AList.notMem_empty h)⟩
  · intro h q hq
    rw [hpb, AList.lookup_empty] at hq
    exact nomatch hq
  · intro h q hq
    rw [hrb, AList.lookup_empty] at hq
    exact nomatch hq

lemma newScheduler_inv (initHeight : Int) (startTime : Time) :
    Inv (newScheduler initHeight startTime) :=
  Inv.of_empty rfl rfl rfl rfl rfl

/-- A reset right after `newScheduler` starts a window, still empty, at the new height. -/
lemma handleResetState_newScheduler_inv (initHeight : Int) (startTime : Time)
    (lastBlockHeight : Int) (now : Time) :
    Inv ((newScheduler initHeight startTime).handleResetState lastBlockHeight now).2 := by
  unfold handleResetState
  dsimp only
  refine (addNewBlocks_keeps _ ?_).1
  exact Inv.of_empty rfl rfl rfl rfl rfl

end scheduler

/-- A run of `evs₁ ++ evs₂` is a run of `evs₁`, then one of `evs₂` from where it ended. -/
lemma run_append_eq_ok : ∀ {sc sc' : scheduler} {evs₁ evs₂ : List (Time × Event)}
    {outs : List OutEvent}, run sc (evs₁ ++ evs₂) = .ok (outs, sc') →
    ∃ outs₁ sc₁ outs₂, run sc evs₁ = .ok (outs₁, sc₁) ∧ run sc₁ evs₂ = .ok (outs₂, sc')
  | sc, _, [], _, _, hok => ⟨[], sc, _, rfl, hok⟩
  | sc, _, (now, ev) :: evs₁, evs₂, _, hok => by
    obtain ⟨⟨out, sc₁⟩, h₁, hrest⟩ := ExceptRun.bind_eq_ok hok
    obtain ⟨⟨outs', sc₂⟩, h₂, hpure⟩ := ExceptRun.bind_eq_ok hrest
    cases hpure
    obtain ⟨outs₁, sc₃, outs₂, h₃, h₄⟩ := run_append_eq_ok h₂
    refine ⟨out :: outs₁, sc₃, outs₂, ?_, h₄⟩
    simp only [run, h₁, ExceptRun.ok_bind, h₃]
    rfl

/-- Runs without a reset keep the bookkeeping: the step lemma `handle_keeps`, along the run. -/
lemma run_keeps : ∀ {sc sc' : scheduler} {evs : List (Time × Event)} {outs : List OutEvent},
    (∀ x ∈ evs, x.2.isReset = false) → run sc evs = .ok (outs, sc') → scheduler.Keeps sc sc'
  | sc, _, [], _, _, hok => by
    cases hok
    exact scheduler.Keeps.refl sc
  | _, _, (now, ev) :: evs, _, hnr, hok => by
    obtain ⟨⟨out, sc₁⟩, h₁, hrest⟩ := ExceptRun.bind_eq_ok hok
    obtain ⟨⟨outs', sc₂⟩, h₂, hpure⟩ := ExceptRun.bind_eq_ok hrest
    cases hpure
    exact (scheduler.handle_keeps (hnr _ List.mem_cons_self) h₁).trans
      (run_keeps (fun x hx => hnr x (List.mem_cons_of_mem _ hx)) h₂)

/-! ## The bookkeeping along a run -/

/-- From `newScheduler`, then at most one reset, every run of events without a further reset
ends with the window of (a), the matching maps of (b), requests only to Ready peers whose
reported height reaches the block, and a height no state before it exceeds. -/
theorem run_bookkeeping (initHeight : Int) (startTime : Time) (pre evs : List (Time × Event))
    (hpre : pre = [] ∨ ∃ now lastBlockHeight, pre = [(now, .bcResetState lastBlockHeight)])
    (hnr : ∀ x ∈ evs, x.2.isReset = false) {outs : List OutEvent} {sc : scheduler}
    (hrun : run (newScheduler initHeight startTime) (pre ++ evs) = .ok (outs, sc)) :
    (∀ h ∈ sc.blockStates, sc.height ≤ h ∧ h < sc.height + sc.targetPending) ∧
    sc.blockStates.entries.length ≤ sc.targetPending.toNat ∧
    (∀ h, sc.blockStates.lookup h = some .blockStatePending ↔ h ∈ sc.pendingBlocks) ∧
    (∀ h, h ∈ sc.pendingBlocks ↔ h ∈ sc.pendingTime) ∧
    (∀ h, sc.blockStates.lookup h = some .blockStateReceived ↔ h ∈ sc.receivedBlocks) ∧
    (∀ h p, sc.pendingBlocks.lookup h = some p ∨ sc.receivedBlocks.lookup h = some p →
      ∃ peer, sc.peers.lookup p = some peer ∧ peer.state = .peerStateReady ∧
        h ≤ peer.height) ∧
    (∀ evs₁ evs₂, evs = evs₁ ++ evs₂ → ∃ outs₁ sc₁,
      run (newScheduler initHeight startTime) (pre ++ evs₁) = .ok (outs₁, sc₁) ∧
        sc₁.height ≤ sc.height) := by
  -- the state the optional reset leaves has the invariant
  have hstart : ∀ outs₀ sc₀, run (newScheduler initHeight startTime) pre = .ok (outs₀, sc₀) →
      scheduler.Inv sc₀ := by
    rcases hpre with rfl | ⟨now, lastBlockHeight, rfl⟩
    · intro outs₀ sc₀ h
      cases h
      exact scheduler.newScheduler_inv initHeight startTime
    · intro outs₀ sc₀ h
      cases h
      exact scheduler.handleResetState_newScheduler_inv initHeight startTime lastBlockHeight now
  -- every state of the run after the reset has the invariant, and the height only grows
  have hstate : ∀ evs₁ evs₂, evs = evs₁ ++ evs₂ → ∃ outs₁ sc₁,
      run (newScheduler initHeight startTime) (pre ++ evs₁) = .ok (outs₁, sc₁) ∧
        scheduler.Inv sc₁ ∧ sc₁.height ≤ sc.height := by
    intro evs₁ evs₂ hsplit
    subst hsplit
    rw [← List.append_assoc] at hrun
    obtain ⟨outs₁, sc₁, outs₂, h₁, h₂⟩ := run_append_eq_ok hrun
    obtain ⟨outs₀, sc₀, outs₀₁, h₀, h₀₁⟩ := run_append_eq_ok h₁
    have hi₁ := (run_keeps (fun x hx => hnr x (List.mem_append_left _ hx)) h₀₁
      (hstart _ _ h₀)).1
    exact ⟨outs₁, sc₁, h₁, hi₁,
      (run_keeps (fun x hx => hnr x (List.mem_append_right _ hx)) h₂ hi₁).2⟩
  obtain ⟨outs₁, sc₁, h₁, hi₁, -⟩ := hstate evs [] (List.append_nil evs).symm
  rw [hrun] at h₁
  cases h₁
  refine ⟨hi₁.window, GoMap.length_le_of_window _ _ _ hi₁.window, hi₁.pending_iff,
    fun h => (hi₁.pendingTime_iff h).symm, hi₁.received_iff,
    fun h p hp => hp.elim (hi₁.pending_ready h p) (hi₁.received_ready h p), ?_⟩
  intro evs₁ evs₂ hsplit
  obtain ⟨outs₂, sc₂, h₂, -, hle⟩ := hstate evs₁ evs₂ hsplit
  exact ⟨outs₂, sc₂, h₂, hle⟩

/-- A peer reports `[1, 10]`, block 1 is requested from it, and it then reports `[5, 10]`. -/
def raiseBaseEvents : List (Time × Event) :=
  [(0, .bcAddNewPeer "p"), (0, .bcStatusResponse 0 "p" 1 10), (0, .rTrySchedule 0),
    (0, .bcStatusResponse 0 "p" 5 10)]

theorem run_bookkeeping_raiseBase :
    ∃ outs sc, run (newScheduler 0 0) raiseBaseEvents = .ok (outs, sc) ∧
      ∀ h p, sc.pendingBlocks.lookup h = some p ∨ sc.receivedBlocks.lookup h = some p →
        ∃ peer, sc.peers.lookup p = some peer ∧ peer.state = .peerStateReady ∧
          h ≤ peer.height :=
  ⟨_, _, rfl, (run_bookkeeping 0 0 [] raiseBaseEvents (.inl rfl) (by decide) rfl).2.2.2.2.2.1⟩

/-- A peer reports `[1, 10]`, and a reset then sets the last block height to `-5`. -/
def lateResetEvents : List (Time × Event) :=
  [(0, .bcAddNewPeer "p"), (0, .bcStatusResponse 0 "p" 1 10), (0, .bcResetState (-5))]

/-- Without the reset at the start only, and with the peer's base, the bookkeeping fails: the
base of the peer block 1 is pending from rises to 5, and a late reset lowers height and leaves
block states beyond the window. -/
theorem run_bookkeeping_fails :
    (∃ outs sc, run (newScheduler 0 0) raiseBaseEvents = .ok (outs, sc) ∧
      sc.pendingBlocks.lookup 1 = some "p" ∧
      ∃ peer, sc.peers.lookup "p" = some peer ∧ peer.state = .peerStateReady ∧
        ¬ peer.base ≤ 1) ∧
    (∃ outs₁ sc₁ outs sc,
      run (newScheduler 0 0) (lateResetEvents.take 2) = .ok (outs₁, sc₁) ∧
      run (newScheduler 0 0) lateResetEvents = .ok (outs, sc) ∧
      sc.height < sc₁.height ∧ 10 ∈ sc.blockStates ∧ ¬ 10 < sc.height + sc.targetPending) :=
  ⟨⟨_, _, rfl, by decide, _, rfl, by decide, by decide⟩,
    _, _, _, _, rfl, rfl, by decide, by decide, by decide⟩

end Tendermint.V2
