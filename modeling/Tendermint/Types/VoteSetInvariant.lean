import Tendermint.Types.VoteSet
import Tendermint.Types.ValidatorSetInvariant
import Tendermint.Lib.BitMask

/-!
# The bookkeeping invariant of vote sets

The doc comment of `VoteSet` describes how its two storage areas relate; this file proves that
every sequence of `AddVote` and `SetPeerMaj23` calls keeps them related that way
(`Bookkeeping`):

* (a) the bit array marks exactly the filled canonical slots;
* (b) `sum` is the power of the validators with a canonical vote, hence at most the total;
* (c) each tracked block's bit array and sum describe the block's own votes;
* (d) `maj23` is set exactly when some block has reached the quorum, and that block has;
* (e) the votes of the `maj23` block are the canonical votes at their indices.

The proof carries a stronger invariant `Inv`.  It adds that the validator set is `Valid` (so
the quorum is fixed and positive and no sum leaves the `int64` range), that all slot lists have
one slot per validator, and that every slot filled in some block is filled in `votes` too
(`Covers`).  The last fact is what makes the copy loop harmless: it only overwrites slots that
are already filled, so neither the bit array nor `sum` needs to change with it.

One step lemma per part of `addVerifiedVote` (`recordVote_spec`, `trackBlock_spec`,
`addToBlock_spec`) carries `Inv` through a vote; `SetPeerMaj23_inv` does so for a peer's
claim, and `Reachable.inv` gathers them over a whole run.
-/

namespace Tendermint

namespace VoteSet

open ExceptRun

/-! ## Tallies -/

/-- The power of the validators whose slot in `votes` holds a vote, slot `i` standing for
validator `i`. -/
def votedPower (validators : List Validator) (votes : List (Option Vote)) : Int :=
  BitMask.weight Validator.votingPower (votes.map Option.isSome) validators

@[simp] lemma votedPower_replicate_none (validators : List Validator) (n : Nat) :
    votedPower validators (List.replicate n none) = 0 := by
  simp [votedPower]

/-- The tally sees only which slots are filled. -/
lemma votedPower_congr {validators : List Validator} {votes votes' : List (Option Vote)}
    (h : votes'.map Option.isSome = votes.map Option.isSome) :
    votedPower validators votes' = votedPower validators votes := by
  unfold votedPower
  rw [h]

/-- Filling an empty slot adds the power of its validator. -/
lemma votedPower_set_of_none {validators : List Validator} {votes : List (Option Vote)}
    {i : Nat} (h : votes[i]? = some none) (hi : i < validators.length) (v : Vote) :
    votedPower validators (votes.set i (some v)) =
      votedPower validators votes + validators[i].votingPower := by
  unfold votedPower
  rw [List.map_set]
  exact BitMask.weight_set_true _ (by simp [h]) hi

lemma votedPower_le_powerSum {validators : List Validator}
    (hw : ∀ v ∈ validators, 0 ≤ v.votingPower) (votes : List (Option Vote)) :
    votedPower validators votes ≤ powerSum validators :=
  BitMask.weight_le_sum _ hw _

lemma votedPower_nonneg {validators : List Validator}
    (hw : ∀ v ∈ validators, 0 ≤ v.votingPower) (votes : List (Option Vote)) :
    0 ≤ votedPower validators votes :=
  BitMask.weight_nonneg _ hw _

/-! ## Canonical votes and the votes of a block -/

/-- Every slot filled in `blockVotes` is filled in `votes`. -/
def Covers (votes blockVotes : List (Option Vote)) : Prop :=
  ∀ (i : Nat) (v : Vote), blockVotes[i]? = some (some v) → ∃ w, votes[i]? = some (some w)

/-- Every vote stored in `blockVotes` is the vote stored in `votes` at its index. -/
def Agrees (votes blockVotes : List (Option Vote)) : Prop :=
  ∀ (i : Nat) (v : Vote), blockVotes[i]? = some (some v) → votes[i]? = some (some v)

lemma Covers.of_map_isSome {votes votes' blockVotes : List (Option Vote)}
    (hc : Covers votes blockVotes) (h : votes'.map Option.isSome = votes.map Option.isSome) :
    Covers votes' blockVotes := by
  intro i v hv
  obtain ⟨w, hw⟩ := hc i v hv
  have hi : (votes'.map Option.isSome)[i]? = some true := by rw [h]; simp [hw]
  rw [List.getElem?_map] at hi
  cases h' : votes'[i]? with
  | none => simp [h'] at hi
  | some o =>
    rw [h'] at hi
    cases o with
    | none => simp at hi
    | some w' => exact ⟨w', rfl⟩

/-- Overwriting a filled slot keeps the filled slots. -/
lemma map_isSome_set_of_some {votes : List (Option Vote)} {i : Nat} {w : Vote}
    (h : votes[i]? = some (some w)) (v : Vote) :
    (votes.set i (some v)).map Option.isSome = votes.map Option.isSome := by
  obtain ⟨hi, hw⟩ := List.getElem?_eq_some_iff.mp h
  rw [List.map_set]
  apply List.ext_getElem?
  intro j
  rw [List.getElem?_set]
  by_cases hij : i = j
  · subst hij
    simp [hi, hw]
  · simp [hij]

/-! ## The copy loop -/

/-- The copy loop puts every vote of the block over the canonical vote at its index. -/
lemma copyVotes_eq : ∀ (blockVotes : List (Option Vote)) (i : Nat) (votes : List (Option Vote)),
    i + blockVotes.length = votes.length →
      copyVotes i votes blockVotes =
        .ok (votes.take i ++ List.zipWith Option.or blockVotes (votes.drop i))
  | [], i, votes, h => by
      simp only [List.length_nil, Nat.add_zero] at h
      subst h
      simp [copyVotes, pure, Except.pure]
  | none :: rest, i, votes, h => by
      have hi : i < votes.length := by simp at h; omega
      rw [copyVotes, copyVotes_eq rest (i + 1) votes (by simp at h; omega),
        List.drop_eq_getElem_cons hi, List.zipWith_cons_cons, List.take_add_one,
        List.getElem?_eq_getElem hi, Option.toList_some, Option.none_or, List.append_assoc,
        List.singleton_append]
  | some v :: rest, i, votes, h => by
      have hi : i < votes.length := by simp at h; omega
      rw [copyVotes, if_pos hi, copyVotes_eq rest (i + 1) _ (by simp at h ⊢; omega),
        List.drop_eq_getElem_cons hi, List.zipWith_cons_cons, List.take_add_one,
        List.drop_set_of_lt (Nat.lt_succ_self i), List.take_set_of_le (Nat.le_refl i),
        List.getElem?_set_self (by simpa using hi), Option.toList_some, List.append_assoc,
        List.singleton_append]
      rfl

/-- The copy of a block's votes over `votes`, as the loop leaves it. -/
lemma copyVotes_zero {blockVotes votes : List (Option Vote)}
    (h : blockVotes.length = votes.length) :
    copyVotes 0 votes blockVotes = .ok (List.zipWith Option.or blockVotes votes) := by
  rw [copyVotes_eq blockVotes 0 votes (by omega)]
  simp

lemma length_zipWith_or {blockVotes votes : List (Option Vote)}
    (h : blockVotes.length = votes.length) :
    (List.zipWith Option.or blockVotes votes).length = votes.length := by
  simp [h]

/-- Copying a covered block over `votes` fills no new slot. -/
lemma map_isSome_zipWith_or {blockVotes votes : List (Option Vote)}
    (h : blockVotes.length = votes.length) (hc : Covers votes blockVotes) :
    (List.zipWith Option.or blockVotes votes).map Option.isSome = votes.map Option.isSome := by
  apply List.ext_getElem?
  intro j
  rw [List.getElem?_map, List.getElem?_map, List.getElem?_zipWith]
  cases hb : blockVotes[j]? with
  | none =>
    have : votes[j]? = none := by
      rw [List.getElem?_eq_none_iff] at hb ⊢
      omega
    simp [this]
  | some b =>
    cases b with
    | none => cases votes[j]? <;> simp
    | some v =>
      obtain ⟨w, hw⟩ := hc j v hb
      simp [hw]

/-- After the copy, the block's votes are the canonical ones. -/
lemma agrees_zipWith_or {blockVotes votes : List (Option Vote)}
    (h : blockVotes.length = votes.length) :
    Agrees (List.zipWith Option.or blockVotes votes) blockVotes := by
  intro i v hv
  have hi : i < votes.length := h ▸ (List.getElem?_eq_some_iff.mp hv).1
  rw [List.getElem?_zipWith, hv, List.getElem?_eq_getElem hi]
  rfl

/-- Filling slots keeps a block covered. -/
lemma Covers.mono {votes votes' blockVotes : List (Option Vote)} (hc : Covers votes blockVotes)
    (h : ∀ (i : Nat) (w : Vote), votes[i]? = some (some w) → ∃ w', votes'[i]? = some (some w')) :
    Covers votes' blockVotes := by
  intro i v hv
  obtain ⟨w, hw⟩ := hc i v hv
  exact h i w hw

/-- Writing into slot `i` of the canonical votes keeps every filled slot filled. -/
lemma Covers.set_canonical {votes blockVotes : List (Option Vote)} (hc : Covers votes blockVotes)
    (i : Nat) (vote : Vote) : Covers (votes.set i (some vote)) blockVotes := by
  refine hc.mono fun j w hw => ?_
  have hj : j < votes.length := (List.getElem?_eq_some_iff.mp hw).1
  by_cases hij : i = j
  · subst hij
    exact ⟨vote, List.getElem?_set_self hj⟩
  · exact ⟨w, by rw [List.getElem?_set_ne hij]; exact hw⟩

/-- A block's slot `i` may be filled once the canonical slot `i` is. -/
lemma Covers.set_block {votes blockVotes : List (Option Vote)} (hc : Covers votes blockVotes)
    {i : Nat} {w : Vote} (hw : votes[i]? = some (some w)) (vote : Vote) :
    Covers votes (blockVotes.set i (some vote)) := by
  intro j v hv
  rw [List.getElem?_set] at hv
  split_ifs at hv with hij
  · subst hij
    exact ⟨w, hw⟩
  · exact hc j v hv

/-- Writing `vote` into the canonical slot `i` keeps a block agreeing when the block's slot `i`
holds no other vote. -/
lemma Agrees.set_canonical {votes blockVotes : List (Option Vote)} (ha : Agrees votes blockVotes)
    {i : Nat} {vote : Vote} (hi : i < votes.length)
    (hb : ∀ v, blockVotes[i]? = some (some v) → v = vote) :
    Agrees (votes.set i (some vote)) blockVotes := by
  intro j v hv
  by_cases hij : i = j
  · subst hij
    rw [List.getElem?_set_self hi, hb v hv]
  · rw [List.getElem?_set_ne hij]
    exact ha j v hv

/-- Adding the canonical vote of slot `i` to a block keeps it agreeing. -/
lemma Agrees.set_block {votes blockVotes : List (Option Vote)} (ha : Agrees votes blockVotes)
    {i : Nat} {vote : Vote} (hv : votes[i]? = some (some vote)) :
    Agrees votes (blockVotes.set i (some vote)) := by
  intro j v hj
  rw [List.getElem?_set] at hj
  split_ifs at hj with hij
  · subst hij
    cases hj
    exact hv
  · exact ha j v hj

/-! ## The invariant -/

/-- The quorum `TotalVotingPower()*2/3 + 1`, on the cached total. -/
def quorum (vs : VoteSet) : Int := vs.valSet.totalVotingPower * 2 / 3 + 1

/-- A tracked block's share of the invariant: one slot per validator, a bit array and a sum
that describe the block's votes, and only validators that also have a canonical vote. -/
structure BlockInv (validators : List Validator) (votes : List (Option Vote))
    (bv : BlockVotes) : Prop where
  length_eq : bv.votes.length = validators.length
  bitArray_eq : bv.bitArray = bv.votes.map Option.isSome
  sum_eq : bv.sum = votedPower validators bv.votes
  covers : Covers votes bv.votes

/-- The invariant that `addVote` and `SetPeerMaj23` keep. -/
structure Inv (vs : VoteSet) : Prop where
  valid : vs.valSet.Valid
  length_eq : vs.votes.length = vs.valSet.validators.length
  bitArray_eq : vs.votesBitArray = vs.votes.map Option.isSome
  sum_eq : vs.sum = votedPower vs.valSet.validators vs.votes
  blocks : ∀ k bv, vs.votesByBlock k = some bv → BlockInv vs.valSet.validators vs.votes bv
  maj23_iff : vs.maj23.isSome ↔ ∃ k bv, vs.votesByBlock k = some bv ∧ vs.quorum ≤ bv.sum
  maj23_block : ∀ b, vs.maj23 = some b →
    ∃ bv, vs.votesByBlock b.Key = some bv ∧ vs.quorum ≤ bv.sum ∧ Agrees vs.votes bv.votes

/-- The bookkeeping of a vote set, as the doc comment of `VoteSet` describes it. -/
structure Bookkeeping (vs : VoteSet) : Prop where
  /-- (a) bit `i` is set iff validator `i` has a canonical vote -/
  bitArray_eq : vs.votesBitArray = vs.votes.map Option.isSome
  /-- (b) `sum` counts each validator with a canonical vote once -/
  sum_eq : vs.sum = votedPower vs.valSet.validators vs.votes
  sum_le : vs.sum ≤ vs.valSet.totalVotingPower
  /-- (c) every tracked block's sum and bit array describe its votes -/
  block_sum_eq : ∀ k bv, vs.votesByBlock k = some bv →
    bv.sum = votedPower vs.valSet.validators bv.votes
  block_bitArray_eq : ∀ k bv, vs.votesByBlock k = some bv → bv.bitArray = bv.votes.map Option.isSome
  /-- (d) `maj23` is set exactly when some block has reached the quorum, and its block has -/
  maj23_iff : vs.maj23.isSome ↔ ∃ k bv, vs.votesByBlock k = some bv ∧ vs.quorum ≤ bv.sum
  maj23_quorum : ∀ b, vs.maj23 = some b →
    ∃ bv, vs.votesByBlock b.Key = some bv ∧ vs.quorum ≤ bv.sum
  /-- (e) the votes of the `maj23` block are canonical -/
  maj23_votes : ∀ b bv, vs.maj23 = some b → vs.votesByBlock b.Key = some bv →
    Agrees vs.votes bv.votes

lemma Inv.bookkeeping {vs : VoteSet} (h : Inv vs) : Bookkeeping vs where
  bitArray_eq := h.bitArray_eq
  sum_eq := h.sum_eq
  sum_le := by
    rw [h.sum_eq, h.valid.total_eq]
    exact votedPower_le_powerSum h.valid.power_nonneg _
  block_sum_eq k bv hk := (h.blocks k bv hk).sum_eq
  block_bitArray_eq k bv hk := (h.blocks k bv hk).bitArray_eq
  maj23_iff := h.maj23_iff
  maj23_quorum b hb := by
    obtain ⟨bv, hk, hq, -⟩ := h.maj23_block b hb
    exact ⟨bv, hk, hq⟩
  maj23_votes b bv hb hk := by
    obtain ⟨bv', hk', -, ha⟩ := h.maj23_block b hb
    rw [hk] at hk'
    cases hk'
    exact ha

/-! ## Arithmetic on a valid validator set -/

lemma Inv.quorum_pos {vs : VoteSet} (h : Inv vs) : 0 < vs.quorum := by
  have := h.valid.total_pos
  unfold quorum
  omega

/-- On a valid set the quorum the code computes is `quorum`: the doubled total is an `int64`. -/
lemma goQuorum_eq {vals : ValidatorSet} (hv : vals.Valid) :
    (wrap64 (vals.totalVotingPower * 2)).tdiv 3 + 1 = vals.totalVotingPower * 2 / 3 + 1 := by
  have h0 := hv.total_pos
  have hle : vals.totalVotingPower ≤ MaxTotalVotingPower := hv.total_eq ▸ hv.sum_le
  have hmax : 0 < MaxTotalVotingPower := by rw [maxTotalVotingPower_eq]; norm_num
  rw [wrap64_of_mem (inInt64_of_abs_le (by omega) (by omega)),
    Int.tdiv_eq_ediv_of_nonneg (by omega)]

/-- A tally is at most the total, so it never leaves the `int64` range. -/
lemma wrap64_votedPower {validators : List Validator} (hw : ValidatorSet.WellFormed validators)
    (votes : List (Option Vote)) :
    wrap64 (votedPower validators votes) = votedPower validators votes := by
  have h1 := votedPower_nonneg hw.power_nonneg votes
  have h2 := votedPower_le_powerSum hw.power_nonneg votes
  have h3 := hw.sum_le
  have hmax : 0 < MaxTotalVotingPower := by rw [maxTotalVotingPower_eq]; norm_num
  exact wrap64_of_mem (inInt64_of_abs_le (by omega) (by omega))

/-! ## Blocks -/

lemma BlockInv.of_covers {validators : List Validator} {votes votes' : List (Option Vote)}
    {bv : BlockVotes} (hb : BlockInv validators votes bv) (hc : Covers votes' bv.votes) :
    BlockInv validators votes' bv :=
  { hb with covers := hc }

/-- A new block has no votes. -/
lemma BlockInv.newBlockVotes (validators : List Validator) (votes : List (Option Vote))
    (peerMaj23 : Bool) : BlockInv validators votes (newBlockVotes peerMaj23 validators.length) where
  length_eq := by simp [Tendermint.newBlockVotes]
  bitArray_eq := by simp [Tendermint.newBlockVotes, NewBitArray, List.map_replicate]
  sum_eq := by simp [Tendermint.newBlockVotes]
  covers i v hv := by simp [Tendermint.newBlockVotes, List.getElem?_replicate] at hv

/-- Replacing the block at `k` keeps the invariant when the new block keeps its share of it, its
sum has not shrunk, it reaches the quorum only if `maj23` is already set, and it agrees with the
canonical votes if it is the `maj23` block. -/
lemma Inv.update_block {vs : VoteSet} (h : Inv vs) {k : Bytes} {bv : BlockVotes}
    (hb : BlockInv vs.valSet.validators vs.votes bv)
    (hup : ∀ bv0, vs.votesByBlock k = some bv0 → bv0.sum ≤ bv.sum)
    (hq : vs.quorum ≤ bv.sum → vs.maj23.isSome)
    (hm : ∀ b, vs.maj23 = some b → b.Key = k → Agrees vs.votes bv.votes) :
    Inv { vs with votesByBlock := Function.update vs.votesByBlock k (some bv) } where
  valid := h.valid
  length_eq := h.length_eq
  bitArray_eq := h.bitArray_eq
  sum_eq := h.sum_eq
  blocks k' bv' hk' := by
    dsimp only at hk' ⊢
    by_cases hkk : k' = k
    · subst hkk
      simp only [Function.update_self, Option.some.injEq] at hk'
      exact hk' ▸ hb
    · rw [Function.update_of_ne hkk] at hk'
      exact h.blocks k' bv' hk'
  maj23_iff := by
    dsimp only
    refine ⟨fun hs => ?_, fun ⟨k', bv', hk', hq'⟩ => ?_⟩
    · obtain ⟨k', bv', hk', hq'⟩ := h.maj23_iff.mp hs
      by_cases hkk : k' = k
      · subst hkk
        exact ⟨k', bv, by simp, le_trans hq' (hup bv' hk')⟩
      · exact ⟨k', bv', by rw [Function.update_of_ne hkk]; exact hk', hq'⟩
    · by_cases hkk : k' = k
      · subst hkk
        simp only [Function.update_self, Option.some.injEq] at hk'
        exact hq (hk' ▸ hq')
      · rw [Function.update_of_ne hkk] at hk'
        exact h.maj23_iff.mpr ⟨k', bv', hk', hq'⟩
  maj23_block b hb' := by
    dsimp only at hb' ⊢
    obtain ⟨bv0, hk0, hq0, ha0⟩ := h.maj23_block b hb'
    by_cases hkk : b.Key = k
    · exact ⟨bv, by simp [hkk], le_trans hq0 (hup bv0 (hkk ▸ hk0)), hm b hb' hkk⟩
    · exact ⟨bv0, by rw [Function.update_of_ne hkk]; exact hk0, hq0, ha0⟩

/-- Tracking a new key keeps the invariant. -/
lemma Inv.insert_block {vs : VoteSet} (h : Inv vs) {k : Bytes} (hk : vs.votesByBlock k = none)
    (peerMaj23 : Bool) :
    Inv { vs with
      votesByBlock := (Function.update vs.votesByBlock k
        (some (newBlockVotes peerMaj23 vs.valSet.Size))) } := by
  refine h.update_block (BlockInv.newBlockVotes _ _ _) (by simp [hk]) ?_ ?_
  · intro hq
    have := h.quorum_pos
    simp [Tendermint.newBlockVotes] at hq
    omega
  · intro b hb hbk
    obtain ⟨bv, hbv, -⟩ := h.maj23_block b hb
    rw [hbk, hk] at hbv
    cases hbv

/-- Marking a block as claimed by a peer keeps the invariant. -/
lemma Inv.claim_block {vs : VoteSet} (h : Inv vs) {k : Bytes} {bv : BlockVotes}
    (hk : vs.votesByBlock k = some bv) :
    Inv { vs with
      votesByBlock := (Function.update vs.votesByBlock k
        (some { bv with peerMaj23 := true })) } := by
  have hb := h.blocks k bv hk
  refine h.update_block { hb with } (by simp [hk]) ?_ ?_
  · intro hq
    exact h.maj23_iff.mpr ⟨k, bv, hk, hq⟩
  · intro b hb' hbk
    obtain ⟨bv0, hk0, -, ha0⟩ := h.maj23_block b hb'
    rw [hbk, hk] at hk0
    cases hk0
    exact ha0

/-! ## Peer claims -/

/-- The claims of peers are not part of the invariant. -/
lemma Inv.setPeerMaj23s {vs : VoteSet} (h : Inv vs) (f : P2PID → Option BlockID) :
    Inv { vs with peerMaj23s := f } :=
  ⟨h.valid, h.length_eq, h.bitArray_eq, h.sum_eq, h.blocks, h.maj23_iff, h.maj23_block⟩

/-- `SetPeerMaj23` keeps the invariant, and changes no vote and no `maj23`. -/
lemma SetPeerMaj23_inv {vs vs' : VoteSet} {peerID : P2PID} {blockID : BlockID} (h : Inv vs)
    (hs : vs.SetPeerMaj23 peerID blockID = .ok vs') : Inv vs' ∧ vs'.maj23 = vs.maj23 := by
  have hp := h.setPeerMaj23s (Function.update vs.peerMaj23s peerID (some blockID))
  unfold SetPeerMaj23 at hs
  dsimp only at hs
  split at hs
  · split at hs
    · cases hs
      exact ⟨h, rfl⟩
    · cases hs
  · split at hs
    · rename_i bv hk
      split at hs
      · cases hs
        exact ⟨hp, rfl⟩
      · cases hs
        exact ⟨hp.claim_block hk, rfl⟩
    · rename_i hk
      cases hs
      exact ⟨hp.insert_block hk true, rfl⟩

/-! ## Adding a vote -/

/-- What `getVote` finding nothing says about validator `i` and a block key: its canonical vote,
if any, is for another block, and the block's own votes have nothing from it. -/
structure NotSeen (vs : VoteSet) (i : Nat) (blockKey : Bytes) : Prop where
  canonical : ∀ e, vs.votes[i]? = some (some e) → e.blockID.Key ≠ blockKey
  block : ∀ bv, vs.votesByBlock blockKey = some bv → bv.votes[i]? = some none

lemma getVote_eq_none {vs : VoteSet} {valIndex : Int} {blockKey : Bytes}
    (h : vs.getVote valIndex blockKey = .ok none) : NotSeen vs valIndex.toNat blockKey := by
  unfold getVote at h
  obtain ⟨existing, hx, hrest⟩ := bind_eq_ok h
  have hget := (goIndex_eq_ok.mp hx).2
  split at hrest
  · rename_i hkey
    cases hrest
    simp at hkey
  · rename_i hkey
    refine ⟨fun e he => ?_, fun bv hbv => ?_⟩
    · rw [hget, Option.some.injEq] at he
      subst he
      intro heq
      exact hkey (by simp [heq])
    · rw [hbv] at hrest
      exact (goIndex_eq_ok.mp hrest).2

/-- A validator's first vote fills its slot and adds its power. -/
lemma Inv.fill_slot {vs : VoteSet} (h : Inv vs) {i : Nat} (hget : vs.votes[i]? = some none)
    (hi : i < vs.valSet.validators.length) (vote : Vote) :
    Inv { vs.setVote i vote with
      sum := wrap64 (vs.sum + vs.valSet.validators[i].votingPower) } where
  valid := h.valid
  length_eq := by simp [setVote, h.length_eq]
  bitArray_eq := by simp [setVote, BitArray.SetIndex, h.bitArray_eq, List.map_set]
  sum_eq := by
    simp only [setVote]
    rw [h.sum_eq, ← votedPower_set_of_none hget hi vote,
      wrap64_votedPower h.valid.toWellFormed]
  blocks k bv hk := (h.blocks k bv hk).of_covers ((h.blocks k bv hk).covers.set_canonical i vote)
  maj23_iff := h.maj23_iff
  maj23_block b hb := by
    obtain ⟨bv, hk, hq, ha⟩ := h.maj23_block b hb
    refine ⟨bv, hk, hq, ha.set_canonical (List.getElem?_eq_some_iff.mp hget).1 fun v hv => ?_⟩
    -- the block cannot hold a vote of a validator without a canonical vote
    obtain ⟨w, hw⟩ := (h.blocks _ bv hk).covers i v hv
    rw [hget] at hw
    cases hw

/-- A conflicting vote that replaces a canonical vote keeps the invariant when the `maj23` block
holds no vote of that validator. -/
lemma Inv.replace_slot {vs : VoteSet} (h : Inv vs) {i : Nat} {e : Vote}
    (hget : vs.votes[i]? = some (some e)) (vote : Vote)
    (hm : ∀ b bv, vs.maj23 = some b → vs.votesByBlock b.Key = some bv → bv.votes[i]? = some none) :
    Inv (vs.setVote i vote) where
  valid := h.valid
  length_eq := by simp [setVote, h.length_eq]
  bitArray_eq := by simp [setVote, BitArray.SetIndex, h.bitArray_eq, List.map_set]
  sum_eq := by
    simp only [setVote]
    rw [votedPower_congr (map_isSome_set_of_some hget vote)]
    exact h.sum_eq
  blocks k bv hk := (h.blocks k bv hk).of_covers ((h.blocks k bv hk).covers.set_canonical i vote)
  maj23_iff := h.maj23_iff
  maj23_block b hb := by
    obtain ⟨bv, hk, hq, ha⟩ := h.maj23_block b hb
    refine ⟨bv, hk, hq, ha.set_canonical (List.getElem?_eq_some_iff.mp hget).1 fun v hv => ?_⟩
    rw [hm b bv hb hk] at hv
    cases hv

/-- `recordVote` on an unseen vote of validator `i` keeps the invariant and the blocks, and
leaves slot `i` filled, with the vote itself if it is for `maj23`. -/
lemma recordVote_spec {vs vs1 : VoteSet} {vote : Vote} {val : Validator}
    {conflicting : Option Vote} (h : Inv vs)
    (hval : vs.valSet.validators[vote.validatorIndex.toNat]? = some val)
    (hns : NotSeen vs vote.validatorIndex.toNat vote.blockID.Key)
    (hr : vs.recordVote vote vote.blockID.Key val.votingPower = .ok (conflicting, vs1)) :
    Inv vs1 ∧ vs1.valSet = vs.valSet ∧ vs1.votesByBlock = vs.votesByBlock ∧
      vs1.maj23 = vs.maj23 ∧ (∃ w, vs1.votes[vote.validatorIndex.toNat]? = some (some w)) ∧
      (vs1.maj23.map BlockID.Key = some vote.blockID.Key →
        vs1.votes[vote.validatorIndex.toNat]? = some (some vote)) := by
  obtain ⟨hi, hvi⟩ := List.getElem?_eq_some_iff.mp hval
  have hlen : vote.validatorIndex.toNat < vs.votes.length := h.length_eq ▸ hi
  unfold recordVote at hr
  obtain ⟨existing, hx, hrest⟩ := bind_eq_ok hr
  have hget := (goIndex_eq_ok.mp hx).2
  cases existing with
  | none =>
    -- a first vote: stored and counted
    cases hrest
    have h1 := h.fill_slot hget hi vote
    rw [hvi] at h1
    exact ⟨h1, rfl, rfl, rfl, ⟨vote, List.getElem?_set_self hlen⟩,
      fun _ => List.getElem?_set_self hlen⟩
  | some e =>
    dsimp only at hrest
    split at hrest
    · cases hrest
    · split at hrest
      · -- a conflicting vote for `maj23` replaces the canonical one
        rename_i hkey
        cases hrest
        refine ⟨h.replace_slot hget vote fun b bv hb hk => ?_, rfl, rfl, rfl,
          ⟨vote, List.getElem?_set_self hlen⟩, fun _ => List.getElem?_set_self hlen⟩
        rw [hb, Option.map_some, Option.some.injEq] at hkey
        exact hns.block bv (hkey ▸ hk)
      · rename_i hkey
        cases hrest
        exact ⟨h, rfl, rfl, rfl, ⟨e, hget⟩, fun hk => absurd hk hkey⟩

/-- `trackBlock` keeps the invariant and the votes, and hands out the block now tracked under the
key; an untracked key gets an empty block. -/
lemma trackBlock_spec {vs vs2 : VoteSet} {blockKey : Bytes} {conflicting : Option Vote}
    {bv : BlockVotes} (h : Inv vs) (ht : vs.trackBlock blockKey conflicting = some (bv, vs2)) :
    Inv vs2 ∧ vs2.votesByBlock blockKey = some bv ∧ vs2.votes = vs.votes ∧
      vs2.valSet = vs.valSet ∧ vs2.maj23 = vs.maj23 ∧
      (vs.votesByBlock blockKey = some bv ∨
        vs.votesByBlock blockKey = none ∧ bv = newBlockVotes false vs.valSet.Size) := by
  unfold trackBlock at ht
  split at ht
  · rename_i bv0 hk
    split at ht
    · cases ht
    · cases ht
      exact ⟨h, hk, rfl, rfl, rfl, .inl hk⟩
  · rename_i hk
    split at ht
    · cases ht
    · cases ht
      exact ⟨h.insert_block hk false, by simp, rfl, rfl, rfl, .inr ⟨hk, rfl⟩⟩

/-- The vote that takes a block over the quorum while no `maj23` is set: recording the block as
`maj23` and copying its votes over the canonical ones keeps the invariant. -/
lemma Inv.cross_quorum {vs : VoteSet} (h : Inv vs) {k : Bytes} {bv : BlockVotes} {b : BlockID}
    (hbk : b.Key = k) (hb : BlockInv vs.valSet.validators vs.votes bv)
    (hq : vs.quorum ≤ bv.sum) :
    Inv { vs with votesByBlock := Function.update vs.votesByBlock k (some bv), maj23 := some b,
                  votes := List.zipWith Option.or bv.votes vs.votes } := by
  have hlen : bv.votes.length = vs.votes.length := by rw [hb.length_eq, h.length_eq]
  have hmap := map_isSome_zipWith_or hlen hb.covers
  -- every block keeps its share: the copy fills no new slot
  have hblocks : ∀ k' bv', Function.update vs.votesByBlock k (some bv) k' = some bv' →
      BlockInv vs.valSet.validators (List.zipWith Option.or bv.votes vs.votes) bv' := by
    intro k' bv' hk'
    by_cases hkk : k' = k
    · subst hkk
      simp only [Function.update_self, Option.some.injEq] at hk'
      subst hk'
      exact hb.of_covers (hb.covers.of_map_isSome hmap)
    · rw [Function.update_of_ne hkk] at hk'
      have hb' := h.blocks k' bv' hk'
      exact hb'.of_covers (hb'.covers.of_map_isSome hmap)
  exact {
    valid := h.valid
    length_eq := by rw [length_zipWith_or hlen]; exact h.length_eq
    bitArray_eq := by rw [hmap]; exact h.bitArray_eq
    sum_eq := by rw [votedPower_congr hmap]; exact h.sum_eq
    blocks := hblocks
    maj23_iff := by simpa using ⟨k, bv, by simp, hq⟩
    maj23_block := by
      intro b' hb'
      cases hb'
      exact ⟨bv, by simp [hbk], hq, agrees_zipWith_or hlen⟩ }

/-- `addToBlock` with the vote of validator `i`, whose canonical slot is filled and whose slot
in the block is empty, keeps the invariant and any `maj23`. -/
lemma addToBlock_spec {vs vs3 : VoteSet} {vote : Vote} {val : Validator} {bv : BlockVotes}
    (h : Inv vs) (hidx : 0 ≤ vote.validatorIndex)
    (hval : vs.valSet.validators[vote.validatorIndex.toNat]? = some val)
    (hk : vs.votesByBlock vote.blockID.Key = some bv)
    (hslot : bv.votes[vote.validatorIndex.toNat]? = some none)
    (hfilled : ∃ w, vs.votes[vote.validatorIndex.toNat]? = some (some w))
    (hmaj : vs.maj23.map BlockID.Key = some vote.blockID.Key →
      vs.votes[vote.validatorIndex.toNat]? = some (some vote))
    (hadd : vs.addToBlock vote vote.blockID.Key val.votingPower bv = .ok vs3) :
    Inv vs3 ∧ ∀ b, vs.maj23 = some b → vs3.maj23 = some b := by
  obtain ⟨hi, hvi⟩ := List.getElem?_eq_some_iff.mp hval
  obtain ⟨w, hw⟩ := hfilled
  have hb := h.blocks _ bv hk
  have hpos : 0 ≤ val.votingPower := h.valid.power_nonneg val (List.mem_of_getElem? hval)
  -- the block with the vote added
  have hset := votedPower_set_of_none hslot hi vote
  rw [hvi, ← hb.sum_eq] at hset
  have hwrap : wrap64 (bv.sum + val.votingPower) = bv.sum + val.votingPower := by
    rw [← hset]
    exact wrap64_votedPower h.valid.toWellFormed _
  have hb' : BlockInv vs.valSet.validators vs.votes
      { bv with bitArray := bv.bitArray.SetIndex vote.validatorIndex.toNat true,
                votes := bv.votes.set vote.validatorIndex.toNat (some vote),
                sum := wrap64 (bv.sum + val.votingPower) } :=
    ⟨by simp [hb.length_eq], by simp [BitArray.SetIndex, hb.bitArray_eq, List.map_set],
      by rw [hwrap, hset], hb.covers.set_block hw vote⟩
  have hgrow : bv.sum ≤ wrap64 (bv.sum + val.votingPower) := by
    rw [hwrap]
    omega
  unfold addToBlock at hadd
  rw [ValidatorSet.TotalVotingPower_of_ne h.valid.total_pos.ne', ok_bind] at hadd
  dsimp only at hadd
  rw [goQuorum_eq h.valid] at hadd
  rw [BlockVotes.addVerifiedVote_of_none hidx hslot, ok_bind] at hadd
  dsimp only at hadd
  split at hadd
  · -- the block crosses the quorum first: it becomes `maj23`
    rename_i hc
    rw [copyVotes_zero (by simp [hb.length_eq, h.length_eq]), ok_bind] at hadd
    cases hadd
    exact ⟨h.cross_quorum rfl hb' hc.2.1, fun b hb0 => absurd hc.2.2 (by simp [hb0])⟩
  · rename_i hc
    cases hadd
    refine ⟨h.update_block hb' (fun bv0 hk0 => ?_) (fun hq => ?_) (fun b hb0 hbk => ?_),
      fun b hb0 => hb0⟩
    · rw [hk] at hk0
      cases hk0
      exact hgrow
    · -- reaching the quorum without crossing it first means `maj23` was already set
      by_cases hlt : bv.sum < vs.quorum
      · have : vs.maj23 ≠ none := fun hn => hc ⟨hlt, hq, hn⟩
        exact Option.isSome_iff_ne_none.mpr this
      · exact h.maj23_iff.mpr ⟨_, bv, hk, by omega⟩
    · obtain ⟨bv0, hk0, -, ha0⟩ := h.maj23_block b hb0
      rw [hbk, hk] at hk0
      cases hk0
      exact ha0.set_block (hmaj (by simp [hb0, hbk]))

/-- `addVerifiedVote` on a vote of validator `i` that `getVote` did not find keeps the invariant
and any `maj23`. -/
lemma addVerifiedVote_inv {vs vs' : VoteSet} {vote : Vote} {val : Validator} {added : Bool}
    {conflicting : Option Vote} (h : Inv vs) (hidx : 0 ≤ vote.validatorIndex)
    (hval : vs.valSet.validators[vote.validatorIndex.toNat]? = some val)
    (hns : NotSeen vs vote.validatorIndex.toNat vote.blockID.Key)
    (hv : vs.addVerifiedVote vote vote.blockID.Key val.votingPower =
      .ok (added, conflicting, vs')) :
    Inv vs' ∧ ∀ b, vs.maj23 = some b → vs'.maj23 = some b := by
  unfold addVerifiedVote at hv
  obtain ⟨⟨c, vs1⟩, hr, hrest⟩ := bind_eq_ok hv
  obtain ⟨h1, hval1, hblk1, hmaj1, hfill1, hkey1⟩ := recordVote_spec h hval hns hr
  dsimp only at hrest
  split at hrest
  · -- the conflicting vote is dropped
    cases hrest
    exact ⟨h1, fun b hb => hmaj1 ▸ hb⟩
  · rename_i bv vs2 ht
    obtain ⟨vs3, hadd, hfin⟩ := bind_eq_ok hrest
    cases hfin
    obtain ⟨h2, hk2, hvotes2, hval2, hmaj2, hnew⟩ := trackBlock_spec h1 ht
    -- the block has no vote of this validator yet, whether it was tracked before or not
    have hslot : bv.votes[vote.validatorIndex.toNat]? = some none := by
      rcases hnew with hk | ⟨-, rfl⟩
      · exact hns.block bv (hblk1 ▸ hk)
      · have hi := (List.getElem?_eq_some_iff.mp hval).1
        simp [Tendermint.newBlockVotes, hval1, ValidatorSet.Size, hi]
    have hval2' : vs2.valSet.validators[vote.validatorIndex.toNat]? = some val := by
      rw [hval2, hval1]
      exact hval
    obtain ⟨h3, hmaj3⟩ := addToBlock_spec h2 hidx hval2' hk2 hslot (hvotes2 ▸ hfill1)
      (fun hk => hvotes2 ▸ hkey1 (hmaj2 ▸ hk)) hadd
    exact ⟨h3, fun b hb => hmaj3 b (hmaj2 ▸ hmaj1 ▸ hb)⟩

/-- What `addVote` can do: leave the set as it was, or hand a vote it has checked to
`addVerifiedVote` and return the set that call leaves.  A checked vote has a non-empty address,
the address of the validator at its index, is at the set's height, round and type, not stored
yet under its key, and correctly signed. -/
lemma addVote_cases {crypto : Crypto} {vs vs' : VoteSet} {vote : Option Vote} {added : Bool}
    {err : Option AddVoteError} (hv : vs.addVote crypto vote = .ok (added, err, vs')) :
    vs' = vs ∨ ∃ v val, vote = some v ∧ 0 ≤ v.validatorIndex ∧ v.validatorAddress.length ≠ 0 ∧
      vs.valSet.validators[v.validatorIndex.toNat]? = some val ∧
      v.validatorAddress = val.address ∧ v.height = vs.height ∧ v.round = vs.round ∧
      v.type = vs.signedMsgType ∧ NotSeen vs v.validatorIndex.toNat v.blockID.Key ∧
      v.Verify crypto vs.chainID val.pubKey = .ok none ∧
      ∃ a c, vs.addVerifiedVote v v.blockID.Key val.votingPower = .ok (a, c, vs') := by
  cases vote with
  | none =>
    cases hv
    exact .inl rfl
  | some v =>
    unfold addVote at hv
    dsimp only at hv
    split_ifs at hv with hidx haddr hstep
    · cases hv; exact .inl rfl
    · cases hv; exact .inl rfl
    · cases hv; exact .inl rfl
    split at hv
    · cases hv; exact .inl rfl
    · rename_i lookupAddr val hget
      -- `GetByIndex` found validator `i`, whose address the vote carries
      have hval : vs.valSet.validators[v.validatorIndex.toNat]? = some val := by
        unfold ValidatorSet.GetByIndex at hget
        rw [if_neg hidx] at hget
        cases hx : vs.valSet.validators[v.validatorIndex.toNat]? with
        | none => simp [hx] at hget
        | some x => simp [hx] at hget; rw [hget.2]
      have hlook : lookupAddr = val.address := by
        unfold ValidatorSet.GetByIndex at hget
        rw [if_neg hidx, hval] at hget
        simp only [Option.map_some, Option.some.injEq, Prod.mk.injEq] at hget
        exact hget.1.symm
      split_ifs at hv with hne
      · cases hv; exact .inl rfl
      obtain ⟨found, hfound, hrest⟩ := bind_eq_ok hv
      cases found with
      | some existing =>
        dsimp only at hrest
        split_ifs at hrest
        · cases hrest; exact .inl rfl
        · cases hrest; exact .inl rfl
      | none =>
        obtain ⟨verr, hverr, hrest⟩ := bind_eq_ok hrest
        cases verr with
        | some e =>
          cases hrest
          exact .inl rfl
        | none =>
          obtain ⟨⟨a, c, vs3⟩, hav, hrest⟩ := bind_eq_ok hrest
          have hstep' := not_or.mp hstep
          have hvs : vs3 = vs' := by
            dsimp only at hrest
            split at hrest
            · cases hrest; rfl
            · split_ifs at hrest
              cases hrest
              rfl
          subst hvs
          exact .inr ⟨v, val, rfl, not_lt.mp hidx, haddr, hval, (not_not.mp hne).trans hlook,
            not_not.mp hstep'.1, not_not.mp (not_or.mp hstep'.2).1,
            not_not.mp (not_or.mp hstep'.2).2, getVote_eq_none hfound, hverr, a, c, hav⟩

/-- `addVote` keeps the invariant and any `maj23`. -/
lemma addVote_inv {crypto : Crypto} {vs vs' : VoteSet} {vote : Option Vote} {added : Bool}
    {err : Option AddVoteError} (h : Inv vs) (hv : vs.addVote crypto vote = .ok (added, err, vs')) :
    Inv vs' ∧ ∀ b, vs.maj23 = some b → vs'.maj23 = some b := by
  rcases addVote_cases hv with rfl | ⟨v, val, -, hidx, -, hval, -, -, -, -, hns, -, a, c, hav⟩
  · exact ⟨h, fun b hb => hb⟩
  · exact addVerifiedVote_inv h hidx hval hns hav

/-- A new vote set over a valid validator set satisfies the invariant. -/
lemma NewVoteSet_inv {chainID : String} {height round : Int} {signedMsgType : SignedMsgType}
    {valSet : ValidatorSet} {vs : VoteSet} (hv : valSet.Valid)
    (h : NewVoteSet chainID height round signedMsgType valSet = .ok vs) : Inv vs := by
  unfold NewVoteSet at h
  split at h
  · cases h
  · cases h
    exact {
      valid := hv
      length_eq := by simp [ValidatorSet.Size]
      bitArray_eq := by simp [NewBitArray, List.map_replicate]
      sum_eq := by simp
      blocks := fun _ _ hk => by cases hk
      maj23_iff := by simp
      maj23_block := fun _ hb => by cases hb }

/-! ## Runs -/

/-- One call on a vote set: `AddVote` of any vote under any signature scheme, or `SetPeerMaj23`.
A call that returns an error counts with the set it leaves behind. -/
inductive Step : VoteSet → VoteSet → Prop
  | addVote {vs vs' : VoteSet} (crypto : Crypto) (vote : Option Vote) (added : Bool)
      (err : Option AddVoteError) : vs.addVote crypto vote = .ok (added, err, vs') → Step vs vs'
  | setPeerMaj23 {vs vs' : VoteSet} (peerID : P2PID) (blockID : BlockID) :
      vs.SetPeerMaj23 peerID blockID = .ok vs' → Step vs vs'

/-- The vote sets a node can hold: made by `NewVoteSet` over a valid validator set (every
validator set a chain reaches is valid, `ValidatorSet.Reachable.valid`), then changed by any
sequence of calls. -/
inductive Reachable : VoteSet → Prop
  | new {chainID : String} {height round : Int} {signedMsgType : SignedMsgType}
      {valSet : ValidatorSet} {vs : VoteSet} :
      valSet.Valid → NewVoteSet chainID height round signedMsgType valSet = .ok vs → Reachable vs
  | step {vs vs' : VoteSet} : Reachable vs → Step vs vs' → Reachable vs'

/-- Every call keeps the invariant and any `maj23`. -/
lemma Step.inv {vs vs' : VoteSet} (hs : Step vs vs') (h : Inv vs) :
    Inv vs' ∧ ∀ b, vs.maj23 = some b → vs'.maj23 = some b := by
  cases hs with
  | addVote crypto vote added err hv => exact addVote_inv h hv
  | setPeerMaj23 peerID blockID hp =>
    obtain ⟨h', hmaj⟩ := SetPeerMaj23_inv h hp
    exact ⟨h', fun b hb => hmaj ▸ hb⟩

lemma Reachable.inv {vs : VoteSet} (h : Reachable vs) : Inv vs := by
  induction h with
  | new hv hnew => exact NewVoteSet_inv hv hnew
  | step _ hs ih => exact (hs.inv ih).1

/-- Along any run from a set with the invariant, the invariant holds and `maj23` stays put. -/
lemma steps_inv {vs vs' : VoteSet} (hr : Relation.ReflTransGen Step vs vs') (h : Inv vs) :
    Inv vs' ∧ ∀ b, vs.maj23 = some b → vs'.maj23 = some b := by
  induction hr with
  | refl => exact ⟨h, fun b hb => hb⟩
  | tail _ hs ih =>
    obtain ⟨h', hmaj'⟩ := hs.inv ih.1
    exact ⟨h', fun b hb => hmaj' b (ih.2 b hb)⟩

/-! ## The bookkeeping of every reachable vote set -/

theorem reachable_bookkeeping {vs : VoteSet} (h : Reachable vs) :
    Bookkeeping vs ∧
      ∀ vs', Relation.ReflTransGen Step vs vs' → ∀ b, vs.maj23 = some b → vs'.maj23 = some b := by
  have hi := h.inv
  exact ⟨hi.bookkeeping, fun vs' hr => (steps_inv hr hi).2⟩

/-- A signature scheme whose keys are their addresses and whose sign bytes are `[1]` for every
vote, which is also every vote's signature. -/
def keyCrypto : Crypto :=
  ⟨fun pubKey => pubKey, fun _ signBytes signature => signBytes == signature, fun _ => [1]⟩

/-- Three validators whose keys are their addresses, of powers `3`, `3` and `2`. -/
def keyValidators : List Validator := [⟨[0], [0], 3, 0⟩, ⟨[1], [1], 3, 0⟩, ⟨[2], [2], 2, 0⟩]

/-- The set `NewValidatorSet` makes of them. -/
def keyValSet : ValidatorSet :=
  ⟨[⟨[0], [0], 3, -5⟩, ⟨[1], [1], 3, 3⟩, ⟨[2], [2], 2, 2⟩], some ⟨[0], [0], 3, -5⟩, 8⟩

lemma keyValSet_valid : keyValSet.Valid :=
  (@ValidatorSet.Reachable.new keyValidators _ (List.cons_ne_nil _ _) (by decide)).valid

/-- Two complete block IDs. -/
def blockA : BlockID := ⟨List.replicate 32 1, ⟨1, List.replicate 32 2⟩⟩

def blockB : BlockID := ⟨List.replicate 32 3, ⟨1, List.replicate 32 4⟩⟩

/-- The prevote at height `1` and round `0` of the validator of address `[a]` and index `i`. -/
def keyPrevote (a : UInt8) (i : Int) (blockID : BlockID) : Vote :=
  ⟨.PrevoteType, 1, 0, blockID, 0, [a], i, [1]⟩

unseal Varint.encode in
/-- Validator `0` prevotes `blockA`; a peer claims `+2/3` for `blockB`, so the conflicting
prevote of validator `0` for `blockB` is kept beside the first; validator `1` then prevotes
`blockA`, whose power `6` passes two thirds of `8`.  Telling the two block keys apart reads
the varint of each part-set header, which is why the encoder is unsealed. -/
theorem reachable_bookkeeping_conflict :
    ∃ vs₀ vs₁ vs₂ vs₃ vs, NewVoteSet "chain" 1 0 .PrevoteType keyValSet = .ok vs₀ ∧
      vs₀.addVote keyCrypto (some (keyPrevote 0 0 blockA)) = .ok (true, none, vs₁) ∧
      vs₁.SetPeerMaj23 "peer" blockB = .ok vs₂ ∧
      vs₂.addVote keyCrypto (some (keyPrevote 0 0 blockB)) =
        .ok (true, some (.conflictingVotes (keyPrevote 0 0 blockA) (keyPrevote 0 0 blockB)), vs₃) ∧
      vs₃.addVote keyCrypto (some (keyPrevote 1 1 blockA)) = .ok (true, none, vs) ∧
      vs₃.maj23 = none ∧ vs.maj23 = some blockA ∧
      Reachable vs ∧ Bookkeeping vs ∧
        ∀ vs', Relation.ReflTransGen Step vs vs' → ∀ b, vs.maj23 = some b → vs'.maj23 = some b := by
  obtain ⟨vs₀, h₀⟩ : ∃ vs₀, NewVoteSet "chain" 1 0 .PrevoteType keyValSet = .ok vs₀ := ⟨_, rfl⟩
  obtain ⟨vs₁, h₁⟩ : ∃ vs₁,
      vs₀.addVote keyCrypto (some (keyPrevote 0 0 blockA)) = .ok (true, none, vs₁) := by
    cases h₀
    exact ⟨_, rfl⟩
  obtain ⟨vs₂, h₂⟩ : ∃ vs₂, vs₁.SetPeerMaj23 "peer" blockB = .ok vs₂ := by
    cases h₀
    cases h₁
    exact ⟨_, rfl⟩
  obtain ⟨vs₃, h₃⟩ : ∃ vs₃, vs₂.addVote keyCrypto (some (keyPrevote 0 0 blockB)) =
      .ok (true, some (.conflictingVotes (keyPrevote 0 0 blockA) (keyPrevote 0 0 blockB)), vs₃) := by
    cases h₀
    cases h₁
    cases h₂
    exact ⟨_, rfl⟩
  obtain ⟨vs, h₄⟩ : ∃ vs, vs₃.addVote keyCrypto (some (keyPrevote 1 1 blockA)) =
      .ok (true, none, vs) := by
    cases h₀
    cases h₁
    cases h₂
    cases h₃
    exact ⟨_, rfl⟩
  have hr : Reachable vs :=
    .step (.step (.step (.step (.new keyValSet_valid h₀) (.addVote _ _ _ _ h₁))
      (.setPeerMaj23 _ _ h₂)) (.addVote _ _ _ _ h₃)) (.addVote _ _ _ _ h₄)
  have hm₃ : vs₃.maj23 = none := by
    cases h₀
    cases h₁
    cases h₂
    cases h₃
    rfl
  have hm : vs.maj23 = some blockA := by
    cases h₀
    cases h₁
    cases h₂
    cases h₃
    cases h₄
    rfl
  exact ⟨vs₀, vs₁, vs₂, vs₃, vs, h₀, h₁, h₂, h₃, h₄, hm₃, hm, hr, reachable_bookkeeping hr⟩

end VoteSet

end Tendermint
