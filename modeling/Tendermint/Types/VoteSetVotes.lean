import Tendermint.Types.VoteSetInvariant

/-!
# Which votes a vote set holds

`VoteSetInvariant` counts the votes of a vote set; this file says which votes they are.

A vote set stores only votes that `addVote` has checked, each in its validator's slot and, under a
block, under the vote's own key (`Stored`).  Every call keeps that (`addVote_stored`,
`SetPeerMaj23_stored`) and leaves the chain, height, round, type and validators alone
(`SameRound`).  Over a run whose calls use one signature scheme (`Collected`), every stored vote
is therefore a vote the validator of its slot signed for the set's height, round and type
(`Collected.signed`).

The second half follows a set that only ever receives first votes, as `CommitToVoteSet` builds
one.  While no validator has voted twice (`NoConflict`), `addVote` adds such a vote, files it
under its block, and the copy made when a block crosses the quorum changes nothing
(`addVote_fresh`).
-/

namespace Tendermint

namespace ValidatorSet

open ExceptRun

/-- Filling the cache of the total leaves the validators alone. -/
lemma TotalVotingPower_validators {vals vals' : ValidatorSet} {total : Int}
    (h : vals.TotalVotingPower = .ok (total, vals')) : vals'.validators = vals.validators := by
  unfold TotalVotingPower at h
  split at h
  · obtain ⟨v, hv, hrest⟩ := bind_eq_ok h
    cases hrest
    unfold updateTotalVotingPower at hv
    obtain ⟨sum, -, hv⟩ := bind_eq_ok hv
    cases hv
    rfl
  · cases h
    rfl

end ValidatorSet

/-- Writing `some a` into a list of options adds `a` at that slot and nothing else. -/
lemma getElem?_set_some {α : Type} {l : List (Option α)} {j i : Nat} {a v : α}
    (h : (l.set j (some a))[i]? = some (some v)) : l[i]? = some (some v) ∨ (i = j ∧ v = a) := by
  rw [List.getElem?_set] at h
  split_ifs at h with hji
  · cases h
    exact .inr ⟨hji.symm, rfl⟩
  · exact .inl h

namespace VoteSet

open ExceptRun

/-! ## The round a set collects -/

/-- `vs'` collects the votes of the same chain, height, round and type as `vs`, from the same
validators. -/
structure SameRound (vs vs' : VoteSet) : Prop where
  chainID : vs'.chainID = vs.chainID
  height : vs'.height = vs.height
  round : vs'.round = vs.round
  signedMsgType : vs'.signedMsgType = vs.signedMsgType
  validators : vs'.valSet.validators = vs.valSet.validators

lemma SameRound.refl (vs : VoteSet) : SameRound vs vs := ⟨rfl, rfl, rfl, rfl, rfl⟩

lemma SameRound.trans {vs₁ vs₂ vs₃ : VoteSet} (h₁ : SameRound vs₁ vs₂)
    (h₂ : SameRound vs₂ vs₃) : SameRound vs₁ vs₃ :=
  ⟨h₂.chainID.trans h₁.chainID, h₂.height.trans h₁.height, h₂.round.trans h₁.round,
    h₂.signedMsgType.trans h₁.signedMsgType, h₂.validators.trans h₁.validators⟩

/-! ## Stored votes -/

/-- Every vote `vs` stores, canonical or under a block, satisfies `P` at its slot, and the votes
of a block are filed under the block's own key. -/
structure Stored (P : Nat → Vote → Prop) (vs : VoteSet) : Prop where
  votes : ∀ (i : Nat) (v : Vote), vs.votes[i]? = some (some v) → P i v
  blocks : ∀ (k : Bytes) (bv : BlockVotes) (i : Nat) (v : Vote), vs.votesByBlock k = some bv →
    bv.votes[i]? = some (some v) → P i v ∧ v.blockID.Key = k

lemma Stored.mono {P Q : Nat → Vote → Prop} {vs : VoteSet} (h : Stored P vs)
    (hPQ : ∀ i v, P i v → Q i v) : Stored Q vs where
  votes i v hv := hPQ i v (h.votes i v hv)
  blocks k bv i v hk hv := ⟨hPQ i v (h.blocks k bv i v hk hv).1, (h.blocks k bv i v hk hv).2⟩

/-- New canonical votes that were stored before or satisfy `P` keep `Stored`. -/
lemma Stored.of_votes {P : Nat → Vote → Prop} {vs vs' : VoteSet} (h : Stored P vs)
    (hb : vs'.votesByBlock = vs.votesByBlock)
    (hv : ∀ (i : Nat) (v : Vote), vs'.votes[i]? = some (some v) →
      vs.votes[i]? = some (some v) ∨ P i v) : Stored P vs' where
  votes i v hi := (hv i v hi).elim (h.votes i v) id
  blocks k bv i v hk := h.blocks k bv i v (hb ▸ hk)

/-- Filing a block whose votes satisfy `P` and carry its key keeps `Stored`. -/
lemma Stored.update_block {P : Nat → Vote → Prop} {vs : VoteSet} (h : Stored P vs) {k : Bytes}
    {bv : BlockVotes}
    (hb : ∀ (i : Nat) (v : Vote), bv.votes[i]? = some (some v) → P i v ∧ v.blockID.Key = k) :
    Stored P { vs with votesByBlock := Function.update vs.votesByBlock k (some bv) } where
  votes := h.votes
  blocks k' bv' i v hk' hv := by
    dsimp only at hk'
    by_cases hkk : k' = k
    · subst hkk
      simp only [Function.update_self, Option.some.injEq] at hk'
      subst hk'
      exact hb i v hv
    · rw [Function.update_of_ne hkk] at hk'
      exact h.blocks k' bv' i v hk' hv

/-- A block's votes after `addVerifiedVote`: the old ones, and `vote` in its slot. -/
lemma BlockVotes.addVerifiedVote_votes {bv bv' : BlockVotes} {vote : Vote} {votingPower : Int}
    (h : bv.addVerifiedVote vote votingPower = .ok bv') (i : Nat) (v : Vote)
    (hv : bv'.votes[i]? = some (some v)) :
    bv.votes[i]? = some (some v) ∨ (i = vote.validatorIndex.toNat ∧ v = vote) := by
  unfold BlockVotes.addVerifiedVote at h
  obtain ⟨existing, -, hrest⟩ := bind_eq_ok h
  cases existing with
  | none =>
    cases hrest
    exact getElem?_set_some hv
  | some _ =>
    cases hrest
    exact .inl hv

/-- Every vote the copy loop leaves was in `votes` or in the block, at the same slot. -/
lemma copyVotes_mem {blockVotes : List (Option Vote)} : ∀ {i : Nat} {votes r : List (Option Vote)},
    copyVotes i votes blockVotes = .ok r → ∀ (k : Nat) (v : Vote), r[k]? = some (some v) →
      votes[k]? = some (some v) ∨ ∃ j, blockVotes[j]? = some (some v) ∧ i + j = k := by
  induction blockVotes with
  | nil =>
    intro i votes r h k v hv
    cases h
    exact .inl hv
  | cons o rest ih =>
    intro i votes r h k v hv
    cases o with
    | none =>
      simp only [copyVotes] at h
      rcases ih h k v hv with hv | ⟨j, hj, hjk⟩
      · exact .inl hv
      · exact .inr ⟨j + 1, by simpa using hj, by omega⟩
    | some w =>
      simp only [copyVotes] at h
      split_ifs at h
      rcases ih h k v hv with hv | ⟨j, hj, hjk⟩
      · rcases getElem?_set_some hv with hv | ⟨rfl, rfl⟩
        · exact .inl hv
        · exact .inr ⟨0, rfl, rfl⟩
      · exact .inr ⟨j + 1, by simpa using hj, by omega⟩

/-- `recordVote` writes at most `vote` into its slot. -/
lemma recordVote_stored {P : Nat → Vote → Prop} {vs vs1 : VoteSet} {vote : Vote}
    {blockKey : Bytes} {votingPower : Int} {conflicting : Option Vote} (h : Stored P vs)
    (hp : P vote.validatorIndex.toNat vote)
    (hr : vs.recordVote vote blockKey votingPower = .ok (conflicting, vs1)) :
    Stored P vs1 ∧ SameRound vs vs1 := by
  have hset : ∀ (i : Nat) (v : Vote),
      (vs.votes.set vote.validatorIndex.toNat (some vote))[i]? = some (some v) →
        vs.votes[i]? = some (some v) ∨ P i v := by
    intro i v hv
    rcases getElem?_set_some hv with hv | ⟨rfl, rfl⟩
    · exact .inl hv
    · exact .inr hp
  unfold recordVote at hr
  obtain ⟨existing, -, hrest⟩ := bind_eq_ok hr
  cases existing with
  | none =>
    cases hrest
    exact ⟨h.of_votes rfl hset, ⟨rfl, rfl, rfl, rfl, rfl⟩⟩
  | some e =>
    dsimp only at hrest
    split at hrest
    · cases hrest
    · split at hrest
      · cases hrest
        exact ⟨h.of_votes rfl hset, ⟨rfl, rfl, rfl, rfl, rfl⟩⟩
      · cases hrest
        exact ⟨h, SameRound.refl _⟩

/-- `trackBlock` only starts tracking empty blocks. -/
lemma trackBlock_stored {P : Nat → Vote → Prop} {vs vs2 : VoteSet} {blockKey : Bytes}
    {conflicting : Option Vote} {bv : BlockVotes} (h : Stored P vs)
    (ht : vs.trackBlock blockKey conflicting = some (bv, vs2)) :
    Stored P vs2 ∧ SameRound vs vs2 ∧ vs2.votesByBlock blockKey = some bv := by
  unfold trackBlock at ht
  split at ht
  · rename_i bv0 hk
    split at ht
    · cases ht
    · cases ht
      exact ⟨h, SameRound.refl _, hk⟩
  · split at ht
    · cases ht
    · cases ht
      refine ⟨h.update_block fun i v hv => ?_, ⟨rfl, rfl, rfl, rfl, rfl⟩, by simp⟩
      simp [newBlockVotes, List.getElem?_replicate] at hv

/-- `addToBlock` files `vote` under its key, and the copy on crossing the quorum only moves
votes of the block. -/
lemma addToBlock_stored {P : Nat → Vote → Prop} {vs vs3 : VoteSet} {vote : Vote}
    {votingPower : Int} {bv : BlockVotes} (h : Stored P vs) (hp : P vote.validatorIndex.toNat vote)
    (hk : vs.votesByBlock vote.blockID.Key = some bv)
    (hadd : vs.addToBlock vote vote.blockID.Key votingPower bv = .ok vs3) :
    Stored P vs3 ∧ SameRound vs vs3 := by
  unfold addToBlock at hadd
  obtain ⟨⟨total, valSet⟩, htot, hrest⟩ := bind_eq_ok hadd
  dsimp only at hrest
  obtain ⟨bv', hbv, hrest⟩ := bind_eq_ok hrest
  have hb' : ∀ (i : Nat) (v : Vote), bv'.votes[i]? = some (some v) →
      P i v ∧ v.blockID.Key = vote.blockID.Key := by
    intro i v hv
    rcases BlockVotes.addVerifiedVote_votes hbv i v hv with hv | ⟨rfl, rfl⟩
    · exact h.blocks _ bv i v hk hv
    · exact ⟨hp, rfl⟩
  have h1 := h.update_block hb'
  have hval := ValidatorSet.TotalVotingPower_validators htot
  split at hrest
  · -- crossing the quorum: the block's votes are copied over the canonical ones
    obtain ⟨votes, hcopy, hfin⟩ := bind_eq_ok hrest
    cases hfin
    refine ⟨h1.of_votes rfl fun i v hv => ?_, ⟨rfl, rfl, rfl, rfl, hval⟩⟩
    rcases copyVotes_mem hcopy i v hv with hv | ⟨j, hj, hji⟩
    · exact .inl hv
    · rw [Nat.zero_add] at hji
      exact .inr (hji ▸ (hb' j v hj).1)
  · cases hrest
    exact ⟨h1.of_votes rfl fun i v hv => .inl hv, ⟨rfl, rfl, rfl, rfl, hval⟩⟩

/-- `addVerifiedVote` stores nothing but `vote`. -/
lemma addVerifiedVote_stored {P : Nat → Vote → Prop} {vs vs' : VoteSet} {vote : Vote}
    {votingPower : Int} {added : Bool} {conflicting : Option Vote} (h : Stored P vs)
    (hp : P vote.validatorIndex.toNat vote)
    (hv : vs.addVerifiedVote vote vote.blockID.Key votingPower = .ok (added, conflicting, vs')) :
    Stored P vs' ∧ SameRound vs vs' := by
  unfold addVerifiedVote at hv
  obtain ⟨⟨c, vs1⟩, hr, hrest⟩ := bind_eq_ok hv
  obtain ⟨h1, hs1⟩ := recordVote_stored h hp hr
  dsimp only at hrest
  split at hrest
  · cases hrest
    exact ⟨h1, hs1⟩
  · rename_i bv vs2 ht
    obtain ⟨vs3, hadd, hfin⟩ := bind_eq_ok hrest
    cases hfin
    obtain ⟨h2, hs2, hk2⟩ := trackBlock_stored h1 ht
    obtain ⟨h3, hs3⟩ := addToBlock_stored h2 hp hk2 hadd
    exact ⟨h3, hs1.trans (hs2.trans hs3)⟩

/-- What `addVote` checked of a vote it stores in slot `i` of `vs`. -/
structure Checked (crypto : Crypto) (vs : VoteSet) (i : Nat) (v : Vote) : Prop where
  index : v.validatorIndex = i
  height : v.height = vs.height
  round : v.round = vs.round
  type : v.type = vs.signedMsgType
  address_ne : v.validatorAddress.length ≠ 0
  signed : ∃ val, vs.valSet.validators[i]? = some val ∧ v.validatorAddress = val.address ∧
    v.Verify crypto vs.chainID val.pubKey = .ok none

lemma Checked.of_sameRound {crypto : Crypto} {vs vs' : VoteSet} {i : Nat} {v : Vote}
    (h : Checked crypto vs i v) (hs : SameRound vs vs') : Checked crypto vs' i v := by
  obtain ⟨hi, hh, hr, ht, hne, val, hval, haddr, hver⟩ := h
  refine ⟨hi, hh.trans hs.height.symm, hr.trans hs.round.symm,
    ht.trans hs.signedMsgType.symm, hne, val, ?_, haddr, ?_⟩
  · rw [hs.validators]
    exact hval
  · rw [hs.chainID]
    exact hver

/-- `addVote` stores nothing but a vote it has checked. -/
lemma addVote_stored {crypto : Crypto} {P : Nat → Vote → Prop} {vs vs' : VoteSet} {vote : Vote}
    {added : Bool} {err : Option AddVoteError} (h : Stored P vs)
    (hp : Checked crypto vs vote.validatorIndex.toNat vote → P vote.validatorIndex.toNat vote)
    (hv : vs.addVote crypto (some vote) = .ok (added, err, vs')) :
    Stored P vs' ∧ SameRound vs vs' := by
  rcases addVote_cases hv with
    rfl | ⟨v, val, hsome, hidx, hne, hval, haddr, hh, hr, ht, -, hver, a, c, hav⟩
  · exact ⟨h, SameRound.refl _⟩
  · cases hsome
    exact addVerifiedVote_stored h
      (hp ⟨(Int.toNat_of_nonneg hidx).symm, hh, hr, ht, hne, val, hval, haddr, hver⟩) hav

/-- `SetPeerMaj23` starts tracking an empty block or marks a tracked one. -/
lemma SetPeerMaj23_stored {P : Nat → Vote → Prop} {vs vs' : VoteSet} {peerID : P2PID}
    {blockID : BlockID} (h : Stored P vs) (hs : vs.SetPeerMaj23 peerID blockID = .ok vs') :
    Stored P vs' ∧ SameRound vs vs' := by
  have hp : Stored P { vs with peerMaj23s := Function.update vs.peerMaj23s peerID (some blockID) } :=
    h.of_votes rfl fun _ _ hv => .inl hv
  unfold SetPeerMaj23 at hs
  dsimp only at hs
  split at hs
  · split at hs
    · cases hs
      exact ⟨h, SameRound.refl _⟩
    · cases hs
  · split at hs
    · rename_i bv hk
      split at hs
      · cases hs
        exact ⟨hp, ⟨rfl, rfl, rfl, rfl, rfl⟩⟩
      · cases hs
        exact ⟨hp.update_block fun i v hv => h.blocks _ bv i v hk hv, ⟨rfl, rfl, rfl, rfl, rfl⟩⟩
    · cases hs
      refine ⟨hp.update_block fun i v hv => ?_, ⟨rfl, rfl, rfl, rfl, rfl⟩⟩
      simp [newBlockVotes, List.getElem?_replicate] at hv

/-! ## Collected vote sets -/

/-- The vote sets a node collects with one signature scheme, handing `AddVote` only votes that
satisfy `accept` (the consensus reactor hands it the votes that pass `ValidateBasic`). -/
inductive Collected (crypto : Crypto) (accept : Vote → Prop) : VoteSet → Prop
  | new {chainID : String} {height round : Int} {signedMsgType : SignedMsgType}
      {valSet : ValidatorSet} {vs : VoteSet} :
      valSet.Valid → NewVoteSet chainID height round signedMsgType valSet = .ok vs →
      Collected crypto accept vs
  | addVote {vs vs' : VoteSet} (vote : Vote) (added : Bool) (err : Option AddVoteError) :
      Collected crypto accept vs → accept vote →
      vs.addVote crypto (some vote) = .ok (added, err, vs') → Collected crypto accept vs'
  | setPeerMaj23 {vs vs' : VoteSet} (peerID : P2PID) (blockID : BlockID) :
      Collected crypto accept vs → vs.SetPeerMaj23 peerID blockID = .ok vs' →
      Collected crypto accept vs'

/-- What holds of every collected vote set: the bookkeeping invariant, a height `NewVoteSet`
accepts, and only checked votes it was meant to accept. -/
structure Signed (crypto : Crypto) (accept : Vote → Prop) (vs : VoteSet) : Prop where
  inv : Inv vs
  height_ne : vs.height ≠ 0
  stored : Stored (fun i v => Checked crypto vs i v ∧ accept v) vs

lemma Collected.signed {crypto : Crypto} {accept : Vote → Prop} {vs : VoteSet}
    (h : Collected crypto accept vs) : Signed crypto accept vs := by
  induction h with
  | new hv hnew =>
    have hi := NewVoteSet_inv hv hnew
    unfold NewVoteSet at hnew
    split at hnew
    · cases hnew
    · rename_i h0
      cases hnew
      refine ⟨hi, h0, fun i v hv => ?_, fun k bv i v hk => by cases hk⟩
      simp [List.getElem?_replicate] at hv
  | addVote vote added err _ ha hv ih =>
    obtain ⟨hs, hsr⟩ := addVote_stored ih.stored (fun hc => ⟨hc, ha⟩) hv
    refine ⟨(addVote_inv ih.inv hv).1, ?_, hs.mono fun i v hc => ⟨hc.1.of_sameRound hsr, hc.2⟩⟩
    rw [hsr.height]
    exact ih.height_ne
  | setPeerMaj23 peerID blockID _ hp ih =>
    obtain ⟨hs, hsr⟩ := SetPeerMaj23_stored ih.stored hp
    refine ⟨(SetPeerMaj23_inv ih.inv hp).1, ?_, hs.mono fun i v hc => ⟨hc.1.of_sameRound hsr, hc.2⟩⟩
    rw [hsr.height]
    exact ih.height_ne

/-! ## First votes -/

/-- No validator has two votes: every vote a block holds is the canonical vote of its slot. -/
def NoConflict (vs : VoteSet) : Prop :=
  ∀ k bv, vs.votesByBlock k = some bv → Agrees vs.votes bv.votes

/-- Every canonical vote is held by the block of its key as well. -/
def Filed (vs : VoteSet) : Prop :=
  ∀ (i : Nat) (v : Vote), vs.votes[i]? = some (some v) →
    ∃ bv, vs.votesByBlock v.blockID.Key = some bv ∧ bv.votes[i]? = some (some v)

/-- A validator without a canonical vote has no vote in any block. -/
lemma Inv.block_slot_none {vs : VoteSet} (h : Inv vs) {i : Nat} (hslot : vs.votes[i]? = some none)
    {k : Bytes} {bv : BlockVotes} (hk : vs.votesByBlock k = some bv) :
    bv.votes[i]? = some none := by
  have hb := h.blocks k bv hk
  have hi : i < bv.votes.length := by
    rw [hb.length_eq, ← h.length_eq]
    exact (List.getElem?_eq_some_iff.mp hslot).1
  rw [List.getElem?_eq_getElem hi]
  cases hx : bv.votes[i] with
  | none => rfl
  | some v =>
    obtain ⟨w, hw⟩ := hb.covers i v (by rw [List.getElem?_eq_getElem hi, hx])
    rw [hslot] at hw
    cases hw

/-- Copying a block that agrees with the canonical votes changes nothing. -/
lemma zipWith_or_of_agrees {votes blockVotes : List (Option Vote)}
    (h : blockVotes.length = votes.length) (ha : Agrees votes blockVotes) :
    List.zipWith Option.or blockVotes votes = votes := by
  apply List.ext_getElem?
  intro j
  rw [List.getElem?_zipWith]
  cases hb : blockVotes[j]? with
  | none =>
    have : votes[j]? = none := by
      rw [List.getElem?_eq_none_iff] at hb ⊢
      omega
    rw [this]
  | some o =>
    have hj : j < votes.length := h ▸ (List.getElem?_eq_some_iff.mp hb).1
    cases o with
    | none =>
      rw [List.getElem?_eq_getElem hj]
      rfl
    | some v =>
      rw [ha j v hb]
      rfl

/-- `getVote` finds nothing for a validator without a canonical vote. -/
lemma getVote_of_none {vs : VoteSet} (h : Inv vs) {valIndex : Int} (h0 : 0 ≤ valIndex)
    (hslot : vs.votes[valIndex.toNat]? = some none) (blockKey : Bytes) :
    vs.getVote valIndex blockKey = .ok none := by
  unfold getVote
  rw [goIndex_eq_ok.mpr ⟨h0, hslot⟩, ok_bind, Option.map_none, if_neg (by simp)]
  cases hk : vs.votesByBlock blockKey with
  | none => rfl
  | some bv => exact goIndex_eq_ok.mpr ⟨h0, h.block_slot_none hslot hk⟩

/-- `recordVote` on a validator's first vote stores and counts it. -/
lemma recordVote_of_none {vs : VoteSet} {vote : Vote} (h0 : 0 ≤ vote.validatorIndex)
    (hslot : vs.votes[vote.validatorIndex.toNat]? = some none) (blockKey : Bytes)
    (votingPower : Int) :
    vs.recordVote vote blockKey votingPower =
      .ok (none, { vs with votes := vs.votes.set vote.validatorIndex.toNat (some vote),
                           votesBitArray := vs.votesBitArray.SetIndex vote.validatorIndex.toNat true,
                           sum := wrap64 (vs.sum + votingPower) }) := by
  unfold recordVote
  dsimp only
  rw [goIndex_eq_ok.mpr ⟨h0, hslot⟩]
  rfl

/-- `trackBlock` for a vote without conflict files a block under the key: the one tracked
there, or a new empty one. -/
lemma trackBlock_none (vs : VoteSet) (blockKey : Bytes) :
    ∃ bv vs2, vs.trackBlock blockKey none = some (bv, vs2) ∧
      vs2 = { vs with votesByBlock := Function.update vs.votesByBlock blockKey (some bv) } ∧
      (vs.votesByBlock blockKey = some bv ∨
        vs.votesByBlock blockKey = none ∧ bv = newBlockVotes false vs.valSet.Size) := by
  unfold trackBlock
  split
  · rename_i bv hk
    refine ⟨bv, vs, rfl, ?_, .inl hk⟩
    -- re-filing the tracked block under its key changes nothing
    rw [← hk, Function.update_eq_self]
  · rename_i hk
    exact ⟨_, _, rfl, rfl, .inr ⟨hk, rfl⟩⟩

/-- `addToBlock` on a valid set, once the block has taken the vote: the block is filed, and if it
is the first to cross the quorum it becomes `maj23` and its votes are copied. -/
lemma addToBlock_eq {vs : VoteSet} {vote : Vote} {votingPower : Int} {bv bv' : BlockVotes}
    (hv : vs.valSet.Valid) (hb : bv.addVerifiedVote vote votingPower = .ok bv')
    (hlen : bv'.votes.length = vs.votes.length) (blockKey : Bytes) :
    vs.addToBlock vote blockKey votingPower bv =
      .ok (if bv.sum < vs.quorum ∧ vs.quorum ≤ bv'.sum ∧ vs.maj23 = none then
        { vs with votesByBlock := Function.update vs.votesByBlock blockKey (some bv'),
                  maj23 := some vote.blockID, votes := List.zipWith Option.or bv'.votes vs.votes }
      else { vs with votesByBlock := Function.update vs.votesByBlock blockKey (some bv') }) := by
  unfold addToBlock quorum
  rw [ValidatorSet.TotalVotingPower_of_ne hv.total_pos.ne', ok_bind]
  dsimp only
  rw [goQuorum_eq hv, hb, ok_bind]
  split_ifs
  · rw [copyVotes_zero hlen, ok_bind]
    rfl
  · rfl

/-- What adding a validator's first vote leaves in a set without conflicts. -/
structure AddedFresh (vs : VoteSet) (vote : Vote) (vs' : VoteSet) : Prop where
  votes : vs'.votes = vs.votes.set vote.validatorIndex.toNat (some vote)
  noConflict : NoConflict vs'
  filed : ∃ bv, vs'.votesByBlock vote.blockID.Key = some bv ∧
    bv.votes[vote.validatorIndex.toNat]? = some (some vote)
  blocks : ∀ k bv, vs.votesByBlock k = some bv → ∃ bv', vs'.votesByBlock k = some bv' ∧
    ∀ (j : Nat) (w : Vote), bv.votes[j]? = some (some w) → bv'.votes[j]? = some (some w)
  maj23 : vs'.maj23 = vs.maj23 ∨ vs'.maj23 = some vote.blockID

/-- `addVerifiedVote` on a validator's first vote in a set without conflicts adds the vote and
files it under its block. -/
lemma addVerifiedVote_fresh {vs : VoteSet} {vote : Vote} {val : Validator} (h : Inv vs)
    (hnc : NoConflict vs) (h0 : 0 ≤ vote.validatorIndex)
    (hslot : vs.votes[vote.validatorIndex.toNat]? = some none) :
    ∃ vs', vs.addVerifiedVote vote vote.blockID.Key val.votingPower = .ok (true, none, vs') ∧
      AddedFresh vs vote vs' := by
  have hi : vote.validatorIndex.toNat < vs.votes.length := (List.getElem?_eq_some_iff.mp hslot).1
  have hr := recordVote_of_none h0 hslot vote.blockID.Key val.votingPower
  obtain ⟨bv, vs2, ht, hvs2, hbv0⟩ := trackBlock_none
    { vs with votes := vs.votes.set vote.validatorIndex.toNat (some vote),
              votesBitArray := vs.votesBitArray.SetIndex vote.validatorIndex.toNat true,
              sum := wrap64 (vs.sum + val.votingPower) }
    vote.blockID.Key
  dsimp only at hbv0
  -- the block the vote goes to has its slot empty and agrees with the new canonical votes
  have hbslot : bv.votes[vote.validatorIndex.toNat]? = some none := by
    rcases hbv0 with hk | ⟨-, rfl⟩
    · exact h.block_slot_none hslot hk
    · have := h.length_eq
      simp [newBlockVotes, ValidatorSet.Size, ← this, hi]
  have hblen : bv.votes.length = vs.votes.length := by
    rcases hbv0 with hk | ⟨-, rfl⟩
    · rw [(h.blocks _ bv hk).length_eq, h.length_eq]
    · simp [newBlockVotes, ValidatorSet.Size, h.length_eq]
  have hagree : Agrees (vs.votes.set vote.validatorIndex.toNat (some vote)) bv.votes := by
    rcases hbv0 with hk | ⟨-, rfl⟩
    · exact (hnc _ bv hk).set_canonical hi fun v hv => by rw [hbslot] at hv; cases hv
    · intro j v hv
      simp [newBlockVotes, List.getElem?_replicate] at hv
  have hbv := BlockVotes.addVerifiedVote_of_none h0 hbslot val.votingPower
  have hagree' := hagree.set_block (List.getElem?_set_self hi)
  have hcopy : List.zipWith Option.or (bv.votes.set vote.validatorIndex.toNat (some vote))
      (vs.votes.set vote.validatorIndex.toNat (some vote)) =
        vs.votes.set vote.validatorIndex.toNat (some vote) :=
    zipWith_or_of_agrees (by simp [hblen]) hagree'
  -- the blocks after the vote is filed: `bv` with the vote, the others as they were
  have hblocks : ∀ k bv0, Function.update (Function.update vs.votesByBlock vote.blockID.Key
      (some bv)) vote.blockID.Key (some { bv with
        bitArray := bv.bitArray.SetIndex vote.validatorIndex.toNat true,
        votes := bv.votes.set vote.validatorIndex.toNat (some vote),
        sum := wrap64 (bv.sum + val.votingPower) }) k = some bv0 →
      Agrees (vs.votes.set vote.validatorIndex.toNat (some vote)) bv0.votes := by
    intro k bv0 hk
    rw [Function.update_idem] at hk
    by_cases hkk : k = vote.blockID.Key
    · subst hkk
      simp only [Function.update_self, Option.some.injEq] at hk
      exact hk ▸ hagree'
    · rw [Function.update_of_ne hkk] at hk
      exact (hnc k bv0 hk).set_canonical hi fun v hv => by
        rw [h.block_slot_none hslot hk] at hv
        cases hv
  have hgrow : ∀ k bv0, vs.votesByBlock k = some bv0 → ∃ bv', Function.update
      (Function.update vs.votesByBlock vote.blockID.Key (some bv)) vote.blockID.Key (some { bv with
        bitArray := bv.bitArray.SetIndex vote.validatorIndex.toNat true,
        votes := bv.votes.set vote.validatorIndex.toNat (some vote),
        sum := wrap64 (bv.sum + val.votingPower) }) k = some bv' ∧
      ∀ (j : Nat) (w : Vote), bv0.votes[j]? = some (some w) → bv'.votes[j]? = some (some w) := by
    intro k bv0 hk
    rw [Function.update_idem]
    by_cases hkk : k = vote.blockID.Key
    · subst hkk
      refine ⟨_, Function.update_self .., fun j w hw => ?_⟩
      -- the block was tracked already, and only its empty slot is filled
      rcases hbv0 with hk' | ⟨hk', -⟩
      · rw [hk] at hk'
        cases hk'
        dsimp only
        rw [List.getElem?_set_ne fun hji => by rw [← hji, hbslot] at hw; cases hw]
        exact hw
      · rw [hk] at hk'
        cases hk'
    · exact ⟨bv0, by rw [Function.update_of_ne hkk]; exact hk, fun j w hw => hw⟩
  have hfiled : Function.update (Function.update vs.votesByBlock vote.blockID.Key (some bv))
      vote.blockID.Key (some { bv with
        bitArray := bv.bitArray.SetIndex vote.validatorIndex.toNat true,
        votes := bv.votes.set vote.validatorIndex.toNat (some vote),
        sum := wrap64 (bv.sum + val.votingPower) }) vote.blockID.Key = some { bv with
        bitArray := bv.bitArray.SetIndex vote.validatorIndex.toNat true,
        votes := bv.votes.set vote.validatorIndex.toNat (some vote),
        sum := wrap64 (bv.sum + val.votingPower) } := by
    rw [Function.update_self]
  have hv2 : vs2.valSet.Valid := by
    rw [hvs2]
    exact h.valid
  have hlen2 : (bv.votes.set vote.validatorIndex.toNat (some vote)).length = vs2.votes.length := by
    rw [hvs2]
    simp [hblen]
  apply Exists.intro
  constructor
  · unfold addVerifiedVote
    rw [hr, ok_bind]
    dsimp only
    rw [ht]
    dsimp only
    rw [addToBlock_eq hv2 hbv hlen2 vote.blockID.Key, ok_bind]
    rfl
  · subst hvs2
    dsimp only
    split_ifs
    · refine ⟨hcopy, fun k bv0 hk => ?_, ⟨_, hfiled,
        List.getElem?_set_self (by simp [hblen, hi])⟩, hgrow, .inr rfl⟩
      -- the copy leaves the canonical votes as they are
      dsimp only at hk ⊢
      rw [hcopy]
      exact hblocks k bv0 hk
    · exact ⟨rfl, hblocks, ⟨_, hfiled, List.getElem?_set_self (by simp [hblen, hi])⟩, hgrow,
        .inl rfl⟩

/-- `addVote` on a validator's first vote, once every check of `addVote` passes, in a set
without conflicts: added, with no error, and filed under its block. -/
lemma addVote_fresh {crypto : Crypto} {vs : VoteSet} {vote : Vote} (h : Inv vs)
    (hnc : NoConflict vs) (hc : Checked crypto vs vote.validatorIndex.toNat vote)
    (hslot : vs.votes[vote.validatorIndex.toNat]? = some none) :
    ∃ vs', vs.addVote crypto (some vote) = .ok (true, none, vs') ∧ AddedFresh vs vote vs' := by
  obtain ⟨hidx, hh, hr, ht, hne, val, hval, haddr, hver⟩ := hc
  have h0 : 0 ≤ vote.validatorIndex := by
    rw [hidx]
    exact Int.natCast_nonneg _
  obtain ⟨vs', hav, hfresh⟩ := @addVerifiedVote_fresh vs vote val h hnc h0 hslot
  refine ⟨vs', ?_, hfresh⟩
  -- every guard of `addVote` passes, then the vote is verified and added
  unfold addVote
  dsimp only
  rw [if_neg (not_lt.mpr h0), if_neg hne, if_neg (by simp [hh, hr, ht]),
    ValidatorSet.GetByIndex_of_getElem? h0 hval]
  dsimp only
  rw [if_neg (by simp [haddr]), getVote_of_none h h0 hslot, ok_bind]
  dsimp only
  rw [hver, ok_bind]
  dsimp only
  rw [hav, ok_bind]
  rfl

/-- Adding a first vote keeps every canonical vote filed. -/
lemma Filed.of_addedFresh {vs vs' : VoteSet} {vote : Vote} (hf : Filed vs)
    (ha : AddedFresh vs vote vs') : Filed vs' := by
  intro j v hv
  rw [ha.votes] at hv
  rcases getElem?_set_some hv with hv | ⟨rfl, rfl⟩
  · obtain ⟨bv, hk, hbv⟩ := hf j v hv
    obtain ⟨bv', hk', hgrow⟩ := ha.blocks _ bv hk
    exact ⟨bv', hk', hgrow j v hbv⟩
  · exact ha.filed

/-! ## One block at the quorum -/

lemma exists_of_map_isSome {votes : List (Option Vote)} {i : Nat}
    (h : (votes.map Option.isSome)[i]? = some true) : ∃ v, votes[i]? = some (some v) := by
  simp only [List.getElem?_map, Option.map_eq_some_iff, Option.isSome_iff_exists] at h
  obtain ⟨o, ho, v, rfl⟩ := h
  exact ⟨v, ho⟩

/-- Without conflicting votes no two blocks reach the quorum: a validator counts for one block
only, and two quorums weigh more than all validators together. -/
lemma Inv.quorum_key_unique {P : Nat → Vote → Prop} {vs : VoteSet} (h : Inv vs)
    (hnc : NoConflict vs) (hs : Stored P vs) {k k' : Bytes} {bv bv' : BlockVotes}
    (hk : vs.votesByBlock k = some bv) (hk' : vs.votesByBlock k' = some bv')
    (hq : vs.quorum ≤ bv.sum) (hq' : vs.quorum ≤ bv'.sum) : k = k' := by
  by_contra hne
  have hdisj : ∀ i : Nat, (bv.votes.map Option.isSome)[i]? = some true →
      (bv'.votes.map Option.isSome)[i]? ≠ some true := by
    intro i hi hi'
    obtain ⟨v, hv⟩ := exists_of_map_isSome hi
    obtain ⟨v', hv'⟩ := exists_of_map_isSome hi'
    -- both are the canonical vote of slot `i`
    have hvv : v = v' := by
      have h1 := hnc k bv hk i v hv
      rw [hnc k' bv' hk' i v' hv'] at h1
      exact (Option.some.inj (Option.some.inj h1)).symm
    subst hvv
    exact hne ((hs.blocks k bv i v hk hv).2.symm.trans (hs.blocks k' bv' i v hk' hv').2)
  have hsum := BitMask.weight_add_le_sum Validator.votingPower h.valid.power_nonneg hdisj
  rw [← votedPower, ← votedPower, ← (h.blocks k bv hk).sum_eq, ← (h.blocks k' bv' hk').sum_eq]
    at hsum
  have htot : (vs.valSet.validators.map Validator.votingPower).sum =
      vs.valSet.totalVotingPower := by rw [h.valid.total_eq]; rfl
  have hpos := h.valid.total_pos
  unfold quorum at hq hq'
  omega

end VoteSet

end Tendermint
