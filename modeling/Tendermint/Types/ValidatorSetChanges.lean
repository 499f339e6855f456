import Tendermint.Types.ValidatorSet

/-!
# The passes of `updateWithChangeSet`, one specification each

`updateWithChangeSet` is a pipeline of list passes: sort the changes by address and split them
(`processChanges`), look the removals up (`verifyRemovals`), add the power deltas up
(`verifyUpdates`), merge the updates into the address-sorted set (`applyUpdates`), walk the
merged list dropping the removals (`applyRemovals`) and add the powers up again
(`updateTotalVotingPower`).  Each pass gets one lemma here saying what it computes on
address-sorted input, so that the invariant proofs never unfold a pass:

* `processChangesFrom_spec` — the updates and the removals are the positive- and zero-power
  changes, and the changes had distinct addresses;
* `removedPowerFrom_eq` — the removed power is the sum of the removed validators' powers;
* `addDeltas_eq` — the running total never wraps and ends at the old total plus every delta;
* `mergeUpdates_spec` — the merge is the updates together with the existing entries they do
  not replace, still strictly address-sorted;
* `removeSorted_eq` — the removal walk is a filter;
* `sumVotingPower_eq` — below the bound the clipped running sum is the plain sum.

The lemmas speak of `powerSum` (the sum of the powers of a list) and `powerOf` (the power a
list gives an address, `0` if none), and `sum_powerOf_eq` ties the two together on lists with
distinct addresses: summing `powerOf` over some addresses is summing the powers of the entries
that carry them.
-/

namespace Tendermint

/-! ## The two sort orders

Both `Less` relations are strict orders that only tie entries with equal keys, so the
orders `sort.Sort` leaves a list in are total and transitive, which is what Mathlib's facts
about `List.insertionSort` ask for. -/

lemma validatorsByAddressLess_irrefl (a : Validator) : ¬ ValidatorsByAddressLess a a :=
  bytesLt_irrefl _

lemma validatorsByAddressLess_trans {a b c : Validator} (h1 : ValidatorsByAddressLess a b)
    (h2 : ValidatorsByAddressLess b c) : ValidatorsByAddressLess a c :=
  bytesLt_trans h1 h2

lemma validatorsByAddressLess_ne {a b : Validator} (h : ValidatorsByAddressLess a b) :
    a.address ≠ b.address :=
  bytesLt_ne h

/-- An entry that may come first and has another address comes strictly first. -/
lemma validatorsByAddressLess_of_addressLe {a b : Validator} (h : AddressLe a b)
    (hne : a.address ≠ b.address) : ValidatorsByAddressLess a b :=
  (bytesLt_total hne).resolve_right h

instance : Std.Total AddressLe where
  total a b := by
    by_cases h : ValidatorsByAddressLess b a
    · exact .inr (bytesLt_asymm h)
    · exact .inl h

instance : IsTrans Validator AddressLe where
  trans a b c hab hbc := by
    intro hca
    by_cases hcb : c.address = b.address
    · exact hab (by unfold ValidatorsByAddressLess; rw [← hcb]; exact hca)
    · exact hab (validatorsByAddressLess_trans
        (validatorsByAddressLess_of_addressLe hbc (Ne.symm hcb)) hca)

lemma validatorsByVotingPowerLess_trans {a b c : Validator}
    (h1 : ValidatorsByVotingPowerLess a b) (h2 : ValidatorsByVotingPowerLess b c) :
    ValidatorsByVotingPowerLess a c := by
  unfold ValidatorsByVotingPowerLess at *
  rcases h1 with hp1 | ⟨hp1, ha1⟩ <;> rcases h2 with hp2 | ⟨hp2, ha2⟩
  · exact .inl (by omega)
  · exact .inl (by omega)
  · exact .inl (by omega)
  · exact .inr ⟨by omega, bytesLt_trans ha1 ha2⟩

lemma validatorsByVotingPowerLess_asymm {a b : Validator} (h : ValidatorsByVotingPowerLess a b) :
    ¬ ValidatorsByVotingPowerLess b a := by
  unfold ValidatorsByVotingPowerLess at *
  rintro (hp | ⟨hp, ha⟩)
  · rcases h with h | ⟨h, -⟩ <;> omega
  · rcases h with h | ⟨-, h⟩
    · omega
    · exact bytesLt_asymm h ha

/-- Entries with different addresses are ordered strictly one way or the other. -/
lemma validatorsByVotingPowerLess_total {a b : Validator} (h : a.address ≠ b.address) :
    ValidatorsByVotingPowerLess a b ∨ ValidatorsByVotingPowerLess b a := by
  unfold ValidatorsByVotingPowerLess
  rcases lt_trichotomy a.votingPower b.votingPower with hp | hp | hp
  · exact .inr (.inl hp)
  · rcases bytesLt_total h with ha | ha
    · exact .inl (.inr ⟨hp, ha⟩)
    · exact .inr (.inr ⟨hp.symm, ha⟩)
  · exact .inl (.inl hp)

/-- An entry that may come first in power order has at least the power of the later one. -/
lemma votingPower_le_of_votingPowerLe {a b : Validator} (h : VotingPowerLe a b) :
    b.votingPower ≤ a.votingPower := by
  unfold VotingPowerLe ValidatorsByVotingPowerLess at h
  omega

instance : Std.Total VotingPowerLe where
  total a b := by
    by_cases h : ValidatorsByVotingPowerLess b a
    · exact .inr (validatorsByVotingPowerLess_asymm h)
    · exact .inl h

instance : IsTrans Validator VotingPowerLe where
  trans a b c hab hbc := by
    intro hca
    by_cases hcb : c.address = b.address
    · -- `b` and `c` tie on the address, so the power order alone puts `c` before `a`
      have hba := votingPower_le_of_votingPowerLe hab
      have hcb' := votingPower_le_of_votingPowerLe hbc
      unfold ValidatorsByVotingPowerLess at hca
      rcases hca with hp | ⟨hp, ha⟩
      · omega
      · exact hab (.inr ⟨by omega, hcb ▸ ha⟩)
    · rcases validatorsByVotingPowerLess_total hcb with hlt | hlt
      · exact hbc hlt
      · exact hab (validatorsByVotingPowerLess_trans hlt hca)

/-! ## Address-sorted lists -/

/-- The addresses of a list of validators, in order. -/
def addresses (l : List Validator) : List Address := l.map (·.address)

@[simp] lemma addresses_nil : addresses [] = [] := rfl

@[simp] lemma addresses_cons (v : Validator) (l : List Validator) :
    addresses (v :: l) = v.address :: addresses l := rfl

@[simp] lemma addresses_append (l m : List Validator) :
    addresses (l ++ m) = addresses l ++ addresses m := List.map_append

lemma mem_addresses {a : Address} {l : List Validator} :
    a ∈ addresses l ↔ ∃ v ∈ l, v.address = a := List.mem_map

lemma address_mem_addresses {v : Validator} {l : List Validator} (h : v ∈ l) :
    v.address ∈ addresses l := List.mem_map_of_mem h

/-- Distinct addresses, as a relation between the entries. -/
lemma nodup_addresses_iff {l : List Validator} :
    (addresses l).Nodup ↔ l.Pairwise fun a b => a.address ≠ b.address :=
  List.pairwise_map

/-- Strictly increasing addresses: the order `applyUpdates` and `applyRemovals` rely on. -/
def AddressSorted (l : List Validator) : Prop := l.Pairwise ValidatorsByAddressLess

lemma AddressSorted.nodup {l : List Validator} (h : AddressSorted l) : (addresses l).Nodup :=
  nodup_addresses_iff.mpr (h.imp validatorsByAddressLess_ne)

lemma AddressSorted.filter {l : List Validator} (p : Validator → Bool) (h : AddressSorted l) :
    AddressSorted (l.filter p) :=
  List.Pairwise.filter p h

/-- Being strictly sorted is a property of the addresses alone. -/
lemma AddressSorted.of_addresses_eq {l l' : List Validator} (h : AddressSorted l)
    (he : addresses l' = addresses l) : AddressSorted l' := by
  have hs : (addresses l).Pairwise BytesLt := List.pairwise_map.mpr h
  rw [← he] at hs
  have hs' := List.pairwise_map.mp hs
  exact hs'

/-- Sorted by `AddressLe` with distinct addresses is strictly sorted. -/
lemma addressSorted_of_pairwise {l : List Validator} (h : l.Pairwise AddressLe)
    (hn : (addresses l).Nodup) : AddressSorted l :=
  (h.and (nodup_addresses_iff.mp hn)).imp fun h => validatorsByAddressLess_of_addressLe h.1 h.2

lemma sortByAddress_perm (l : List Validator) : (sortByAddress l).Perm l :=
  List.perm_insertionSort _ l

lemma addresses_sortByAddress_perm (l : List Validator) :
    (addresses (sortByAddress l)).Perm (addresses l) :=
  (sortByAddress_perm l).map _

lemma sortByAddress_sorted {l : List Validator} (hn : (addresses l).Nodup) :
    AddressSorted (sortByAddress l) :=
  addressSorted_of_pairwise (List.pairwise_insertionSort _ l)
    ((addresses_sortByAddress_perm l).nodup_iff.mpr hn)

/-- In a strictly sorted list, every later address is larger than the head's. -/
lemma AddressSorted.head_lt {v : Validator} {l : List Validator} (h : AddressSorted (v :: l))
    {w : Validator} (hw : w ∈ l) : ValidatorsByAddressLess v w :=
  List.rel_of_pairwise_cons h hw

/-! ## Power sums and lookups -/

/-- The sum of the voting powers of a list. -/
def powerSum (l : List Validator) : Int := (l.map (·.votingPower)).sum

@[simp] lemma powerSum_nil : powerSum [] = 0 := rfl

@[simp] lemma powerSum_cons (v : Validator) (l : List Validator) :
    powerSum (v :: l) = v.votingPower + powerSum l := List.sum_cons

@[simp] lemma powerSum_append (l m : List Validator) :
    powerSum (l ++ m) = powerSum l + powerSum m := by
  simp [powerSum]

lemma powerSum_perm {l m : List Validator} (h : l.Perm m) : powerSum l = powerSum m :=
  (h.map _).sum_eq

lemma powerSum_nonneg {l : List Validator} (h : ∀ v ∈ l, 0 ≤ v.votingPower) :
    0 ≤ powerSum l :=
  List.sum_nonneg (by simpa [powerSum] using h)

/-- Part of a list of non-negative powers weighs no more than the whole. -/
lemma powerSum_filter_le {l : List Validator} (p : Validator → Bool)
    (h : ∀ v ∈ l, 0 ≤ v.votingPower) : powerSum (l.filter p) ≤ powerSum l :=
  ((List.filter_sublist).map _).sum_le_sum (by simpa [powerSum] using h)

lemma powerSum_filter_add (l : List Validator) (p : Validator → Bool) :
    powerSum (l.filter p) + powerSum (l.filter fun v => !p v) = powerSum l := by
  rw [← powerSum_append]
  exact powerSum_perm (List.filter_append_perm p l)

/-- The first entry with this address: what `GetByAddress` finds. -/
def lookup (l : List Validator) (a : Address) : Option Validator :=
  l.find? fun v => v.address == a

/-- The voting power a list gives an address, `0` when the address is not in it. -/
def powerOf (l : List Validator) (a : Address) : Int :=
  ((lookup l a).map (·.votingPower)).getD 0

@[simp] lemma powerOf_nil (a : Address) : powerOf [] a = 0 := rfl

lemma powerOf_cons (v : Validator) (l : List Validator) (a : Address) :
    powerOf (v :: l) a = if v.address = a then v.votingPower else powerOf l a := by
  by_cases h : v.address = a <;> simp [powerOf, lookup, h]

lemma powerOf_of_not_mem {l : List Validator} {a : Address} (h : a ∉ addresses l) :
    powerOf l a = 0 := by
  induction l with
  | nil => rfl
  | cons v l ih =>
      simp only [addresses_cons, List.mem_cons, not_or] at h
      rw [powerOf_cons, if_neg (Ne.symm h.1), ih h.2]

lemma powerOf_nonneg {l : List Validator} (h : ∀ v ∈ l, 0 ≤ v.votingPower) (a : Address) :
    0 ≤ powerOf l a := by
  induction l with
  | nil => rfl
  | cons v l ih =>
      rw [powerOf_cons]
      split_ifs
      · exact h v List.mem_cons_self
      · exact ih fun w hw => h w (List.mem_cons_of_mem _ hw)

/-- On distinct addresses, summing `powerOf` over a list of distinct addresses sums the powers
of the entries that carry them.  The induction is on the entries; the new head's address is
absent from the tail, so it adds its power exactly when its address is asked for. -/
lemma sum_powerOf_eq {l : List Validator} (hl : (addresses l).Nodup) {ks : List Address}
    (hks : ks.Nodup) :
    (ks.map (powerOf l)).sum = powerSum (l.filter fun v => v.address ∈ ks) := by
  induction l with
  | nil => simp [show powerOf [] = fun _ => 0 from rfl]
  | cons v l ih =>
      have hv : v.address ∉ addresses l := (List.nodup_cons.mp hl).1
      have hsplit : ∀ k, powerOf (v :: l) k
          = (if k = v.address then v.votingPower else 0) + powerOf l k := by
        intro k
        rw [powerOf_cons]
        by_cases hk : k = v.address
        · subst hk
          simp [powerOf_of_not_mem hv]
        · simp [hk, Ne.symm hk]
      calc (ks.map (powerOf (v :: l))).sum
          = (ks.map fun k => if k = v.address then v.votingPower else 0).sum
              + (ks.map (powerOf l)).sum := by
            rw [← List.sum_map_add]
            exact congrArg List.sum (List.map_congr_left fun k _ => hsplit k)
        _ = (if v.address ∈ ks then v.votingPower else 0)
              + powerSum (l.filter fun v => v.address ∈ ks) := by
            -- `ks` has no repeats, so the head's address is asked for at most once
            rw [← List.sum_toFinset _ hks, Finset.sum_ite_eq', ih (List.nodup_cons.mp hl).2]
            simp only [List.mem_toFinset]
        _ = powerSum ((v :: l).filter fun v => v.address ∈ ks) := by
            by_cases hmem : v.address ∈ ks <;> simp [hmem]

namespace ValidatorSet

lemma hasAddress_iff {vals : ValidatorSet} {a : Address} :
    vals.HasAddress a = true ↔ a ∈ addresses vals.validators := by
  simp [HasAddress, mem_addresses]

/-- `GetByAddress` finds what `lookup` finds. -/
lemma getByAddress_snd (vals : ValidatorSet) (a : Address) :
    (vals.GetByAddress a).map Prod.snd = lookup vals.validators a := by
  unfold GetByAddress lookup
  generalize vals.validators = l
  induction l with
  | nil => rfl
  | cons x l ih =>
      rw [List.findIdx?_cons, List.find?_cons]
      cases hp : (x.address == a) with
      | true => simp
      | false =>
          rw [← ih]
          cases l.findIdx? fun v => v.address == a <;> simp

/-- What `GetByAddress` returns is an entry with that address, carrying `powerOf`. -/
lemma getByAddress_eq_some {vals : ValidatorSet} {a : Address} {i : Nat} {v : Validator}
    (h : vals.GetByAddress a = some (i, v)) :
    v ∈ vals.validators ∧ v.address = a ∧ v.votingPower = powerOf vals.validators a := by
  have hl : lookup vals.validators a = some v := by
    rw [← getByAddress_snd, h]
    rfl
  refine ⟨List.mem_of_find?_eq_some hl, by simpa using List.find?_some hl, ?_⟩
  simp [powerOf, hl]

/-! ## `processChanges` -/

/-- A strictly sorted list stays strictly sorted under a new head that may come first and
differs from the old head's address. -/
lemma addressSorted_cons {x : Validator} {l : List Validator} (hl : AddressSorted l)
    (hx : ∀ z ∈ l.head?, AddressLe x z ∧ x.address ≠ z.address) : AddressSorted (x :: l) := by
  refine List.Pairwise.cons (fun y hy => ?_) hl
  cases l with
  | nil => cases hy
  | cons z l =>
      obtain ⟨hle, hne⟩ := hx z rfl
      have hxz := validatorsByAddressLess_of_addressLe hle hne
      rcases List.mem_cons.mp hy with rfl | hy
      · exact hxz
      · exact validatorsByAddressLess_trans hxz (hl.head_lt hy)

/-- The scan of `processChanges` on an `AddressLe`-sorted list succeeds only if no two
neighbours share an address (so no two entries do, and the first one differs from `prevAddr`)
and every power is in `[0, MaxTotalVotingPower]`; it returns the positive-power entries and the
zero-power entries. -/
lemma processChangesFrom_spec {prevAddr : Address} {l us ds : List Validator}
    (hl : l.Pairwise AddressLe) (h : processChangesFrom prevAddr l = .ok (us, ds)) :
    (∀ v ∈ l.head?, v.address ≠ prevAddr) ∧ AddressSorted l ∧
    (∀ v ∈ l, 0 ≤ v.votingPower ∧ v.votingPower ≤ MaxTotalVotingPower) ∧
    us = l.filter (fun v => v.votingPower ≠ 0) ∧ ds = l.filter (fun v => v.votingPower = 0) := by
  induction l generalizing prevAddr us ds with
  | nil =>
      cases h
      exact ⟨by simp, List.Pairwise.nil, by simp, rfl, rfl⟩
  | cons x rest ih =>
      unfold processChangesFrom at h
      -- the three guards of the loop body; each failing one is an error, not `.ok`
      split at h
      · cases h
      rename_i hdup
      split at h
      · cases h
      rename_i hneg
      split at h
      · cases h
      rename_i hbig
      obtain ⟨⟨us', ds'⟩, hrec, hret⟩ := ExceptRun.bind_eq_ok h
      obtain ⟨hhead, hsorted, hbounds, rfl, rfl⟩ := ih hl.of_cons hrec
      refine ⟨by simpa using hdup, ?_, ?_, ?_⟩
      · -- the tail's head differs from `x` (it was checked against `x` as `prevAddr`)
        refine addressSorted_cons hsorted fun z hz => ⟨?_, (hhead z hz).symm⟩
        exact List.rel_of_pairwise_cons hl (List.mem_of_mem_head? hz)
      · intro v hv
        rcases List.mem_cons.mp hv with rfl | hv
        · exact ⟨by omega, by omega⟩
        · exact hbounds v hv
      · by_cases h0 : x.votingPower = 0
        · simp only [h0, if_true] at hret
          cases hret
          simp [h0]
        · simp only [h0, if_false] at hret
          cases hret
          simp [h0]

/-- What `processChanges` guarantees of the updates and removals it returns. -/
structure ProcessedChanges (updates deletes : List Validator) : Prop where
  updates_sorted : AddressSorted updates
  deletes_sorted : AddressSorted deletes
  updates_pos : ∀ u ∈ updates, 0 < u.votingPower
  updates_le : ∀ u ∈ updates, u.votingPower ≤ MaxTotalVotingPower
  deletes_zero : ∀ d ∈ deletes, d.votingPower = 0
  nodup : (addresses updates ++ addresses deletes).Nodup

lemma processChanges_processed {changes updates deletes : List Validator}
    (h : processChanges changes = .ok (updates, deletes)) : ProcessedChanges updates deletes := by
  obtain ⟨-, hsorted, hbounds, rfl, rfl⟩ :=
    processChangesFrom_spec (List.pairwise_insertionSort _ changes) h
  have hperm : ((sortByAddress changes).filter (fun v => v.votingPower ≠ 0)
      ++ (sortByAddress changes).filter (fun v => v.votingPower = 0)).Perm
      (sortByAddress changes) := by
    convert List.filter_append_perm (fun v => decide (v.votingPower ≠ 0)) (sortByAddress changes)
      using 3
    simp
  refine ⟨hsorted.filter _, hsorted.filter _, ?_, ?_, ?_, ?_⟩
  · intro u hu
    simp only [List.mem_filter, decide_eq_true_eq] at hu
    have := (hbounds u hu.1).1
    omega
  · intro u hu
    exact (hbounds u (List.mem_filter.mp hu).1).2
  · intro d hd
    simpa using (List.mem_filter.mp hd).2
  · rw [← addresses_append]
    exact (hperm.map _).nodup_iff.mpr hsorted.nodup

/-- `processChanges` does not depend on the order of the changes: a successful scan saw
distinct addresses, and on distinct addresses the sort by address has one result. -/
lemma processChanges_perm {changes changes' : List Validator} {r : List Validator × List Validator}
    (hp : changes.Perm changes') (h : processChanges changes = .ok r) :
    processChanges changes' = .ok r := by
  obtain ⟨us, ds⟩ := r
  obtain ⟨-, hsorted, -⟩ := processChangesFrom_spec (List.pairwise_insertionSort _ changes) h
  have hn : (addresses changes').Nodup :=
    ((addresses_sortByAddress_perm changes).trans (hp.map _)).nodup_iff.mp hsorted.nodup
  -- two strictly sorted permutations of one list are equal
  have heq : sortByAddress changes = sortByAddress changes' :=
    ((sortByAddress_perm changes).trans (hp.trans (sortByAddress_perm changes').symm)).eq_of_pairwise
      (fun a _ _ _ hab hba => absurd (validatorsByAddressLess_trans hab hba)
        (validatorsByAddressLess_irrefl a))
      hsorted (sortByAddress_sorted hn)
  rw [processChanges, ← heq]
  exact h

namespace ProcessedChanges

variable {updates deletes : List Validator} (hc : ProcessedChanges updates deletes)
include hc

lemma disjoint {a : Address} (hu : a ∈ addresses updates) : a ∉ addresses deletes :=
  List.disjoint_of_nodup_append hc.nodup hu

lemma updates_nonneg : ∀ u ∈ updates, 0 ≤ u.votingPower ∧ u.votingPower ≤ MaxTotalVotingPower :=
  fun u hu => ⟨(hc.updates_pos u hu).le, hc.updates_le u hu⟩

end ProcessedChanges

/-! ## `verifyRemovals` -/

lemma sum_powerOf_nonneg {l : List Validator} (h : ∀ v ∈ l, 0 ≤ v.votingPower)
    (ks : List Address) : 0 ≤ (ks.map (powerOf l)).sum :=
  List.sum_nonneg (by simpa using fun k _ => powerOf_nonneg h k)

/-- A successful removal scan found every removal in the set. -/
lemma removedPowerFrom_mem {vals : ValidatorSet} :
    ∀ {removed r : Int} {deletes : List Validator}, removedPowerFrom vals removed deletes = .ok r →
    ∀ d ∈ deletes, d.address ∈ addresses vals.validators
  | _, _, [], _ => by simp
  | removed, r, d :: deletes, h => by
      unfold removedPowerFrom at h
      split at h
      · cases h
      · rename_i v hv
        obtain ⟨hmem, hva, -⟩ := getByAddress_eq_some hv
        intro d' hd'
        rcases List.mem_cons.mp hd' with rfl | hd'
        · exact hva ▸ address_mem_addresses hmem
        · exact removedPowerFrom_mem h d' hd'

/-- Below the `int64` bound the scan of `verifyRemovals` adds the removed powers up. -/
lemma removedPowerFrom_eq {vals : ValidatorSet} (hE : ∀ v ∈ vals.validators, 0 ≤ v.votingPower) :
    ∀ {removed r : Int} {deletes : List Validator}, 0 ≤ removed →
    removed + ((addresses deletes).map (powerOf vals.validators)).sum ≤ MaxInt64 →
    removedPowerFrom vals removed deletes = .ok r →
    r = removed + ((addresses deletes).map (powerOf vals.validators)).sum
  | _, _, [], _, _, h => by cases h; simp
  | removed, r, d :: deletes, h0, hle, h => by
      unfold removedPowerFrom at h
      split at h
      · cases h
      · rename_i v hv
        obtain ⟨-, -, hpow⟩ := getByAddress_eq_some hv
        have hrest := sum_powerOf_nonneg hE (addresses deletes)
        have hd := powerOf_nonneg hE d.address
        simp only [addresses_cons, List.map_cons, List.sum_cons] at hle ⊢
        rw [wrap64_of_mem (by unfold InInt64 MinInt64; omega)] at h
        rw [removedPowerFrom_eq hE (by omega) (by omega) h]
        omega

/-- On a set with distinct addresses and positive powers summing to at most
`MaxTotalVotingPower`, `verifyRemovals` of removals with distinct addresses returns the power of
the removed validators, all of which it found. -/
lemma verifyRemovals_eq {vals : ValidatorSet} {deletes : List Validator} {r : Int}
    (hn : (addresses vals.validators).Nodup) (hE : ∀ v ∈ vals.validators, 0 ≤ v.votingPower)
    (hle : powerSum vals.validators ≤ MaxTotalVotingPower) (hd : (addresses deletes).Nodup)
    (h : verifyRemovals deletes vals = .ok r) :
    (∀ d ∈ deletes, d.address ∈ addresses vals.validators) ∧
      r = powerSum (vals.validators.filter fun v => v.address ∈ addresses deletes) := by
  obtain ⟨r', hr', hret⟩ := ExceptRun.bind_eq_ok h
  have hfound := removedPowerFrom_mem hr'
  have hsum := sum_powerOf_eq hn hd
  have hsub := powerSum_filter_le (fun v => decide (v.address ∈ addresses deletes)) hE
  refine ⟨hfound, ?_⟩
  split at hret
  · cases hret
  · cases hret
    rw [removedPowerFrom_eq hE le_rfl (by rw [maxTotalVotingPower_eq] at hle; unfold MaxInt64; omega)
      hr', hsum, zero_add]

/-- Entries with distinct addresses, all found in a list, are no more than the list. -/
lemma length_le_of_found {l deletes : List Validator}
    (hd : (addresses deletes).Nodup) (hfound : ∀ d ∈ deletes, d.address ∈ addresses l) :
    deletes.length ≤ l.length := by
  have hsub : (addresses deletes).Subperm (addresses l) :=
    hd.subperm fun a ha => by
      obtain ⟨d, hd, rfl⟩ := mem_addresses.mp ha
      exact hfound d hd
  simpa [addresses] using hsub.length_le

/-! ## `verifyUpdates` -/

/-- Within the power bounds, `delta` is the new power minus the power the set gives now. -/
lemma updateDelta_eq {vals : ValidatorSet} {u : Validator}
    (hE : ∀ v ∈ vals.validators, 0 ≤ v.votingPower ∧ v.votingPower ≤ MaxTotalVotingPower)
    (hu : 0 ≤ u.votingPower ∧ u.votingPower ≤ MaxTotalVotingPower) :
    updateDelta vals u = u.votingPower - powerOf vals.validators u.address := by
  unfold updateDelta
  split
  · rename_i v hv
    obtain ⟨hmem, -, hpow⟩ := getByAddress_eq_some hv
    have := hE v hmem
    rw [← hpow, wrap64_of_mem (inInt64_of_abs_le (by omega) (by omega))]
  · rename_i hv
    have hnot : u.address ∉ addresses vals.validators := by
      intro ha
      obtain ⟨v, hv'⟩ : ∃ v, lookup vals.validators u.address = some v := by
        obtain ⟨w, hw, hwa⟩ := mem_addresses.mp ha
        exact Option.isSome_iff_exists.mp (List.find?_isSome.mpr ⟨w, hw, by simp [hwa]⟩)
      rw [← getByAddress_snd] at hv'
      simp [hv] at hv'
    rw [powerOf_of_not_mem hnot, sub_zero]

/-- The loop of `verifyUpdates` never wraps: the running total starts no lower than the power
the updated validators have now, every delta is at least minus that power, and the guard keeps
the total below `MaxTotalVotingPower`.  It ends at the start plus every delta. -/
lemma addDeltas_eq {vals : ValidatorSet}
    (hE : ∀ v ∈ vals.validators, 0 ≤ v.votingPower ∧ v.votingPower ≤ MaxTotalVotingPower) :
    ∀ {t t' : Int} {us : List Validator},
    (∀ u ∈ us, 0 ≤ u.votingPower ∧ u.votingPower ≤ MaxTotalVotingPower) →
    ((addresses us).map (powerOf vals.validators)).sum ≤ t → t ≤ MaxTotalVotingPower →
    addDeltas vals t us = .ok t' →
    t' = t + powerSum us - ((addresses us).map (powerOf vals.validators)).sum ∧
      t' ≤ MaxTotalVotingPower
  | _, _, [], _, _, ht, h => by cases h; simpa using ht
  | t, t', u :: us, hus, hlow, ht, h => by
      have hE0 : ∀ v ∈ vals.validators, 0 ≤ v.votingPower := fun v hv => (hE v hv).1
      have hu := hus u List.mem_cons_self
      have hpu := powerOf_nonneg hE0 u.address
      have hrest := sum_powerOf_nonneg hE0 (addresses us)
      simp only [addresses_cons, List.map_cons, List.sum_cons] at hlow ⊢
      unfold addDeltas at h
      rw [updateDelta_eq hE hu, wrap64_of_mem (inInt64_of_abs_le (by omega) (by omega))] at h
      dsimp only at h
      split at h
      · cases h
      · rename_i hguard
        obtain ⟨heq, hle⟩ := addDeltas_eq hE (fun v hv => hus v (List.mem_cons_of_mem _ hv))
          (by omega) (by omega) h
        refine ⟨?_, hle⟩
        rw [heq, powerSum_cons]
        ring

/-! ## `applyUpdates` and `applyRemovals` -/

/-- An address below the head of a strictly sorted list is not in it. -/
lemma not_mem_addresses_of_lt {e u : Validator} {us : List Validator}
    (hus : AddressSorted (u :: us)) (h : ValidatorsByAddressLess e u) :
    e.address ∉ addresses (u :: us) := by
  intro he
  obtain ⟨w, hw, hwe⟩ := mem_addresses.mp he
  rcases List.mem_cons.mp hw with rfl | hw
  · exact validatorsByAddressLess_ne h hwe.symm
  · exact validatorsByAddressLess_ne (validatorsByAddressLess_trans h (hus.head_lt hw)) hwe.symm

/-- An update whose address no entry of `l` has does not change which entries of `l` survive. -/
lemma filter_not_mem_cons {l : List Validator} {u : Validator} {us : List Validator}
    (h : ∀ x ∈ l, x.address ≠ u.address) :
    l.filter (fun v => v.address ∉ addresses (u :: us))
      = l.filter fun v => v.address ∉ addresses us :=
  List.filter_congr fun x hx => by simp [h x hx]

/-- The merge of one existing head against the updates, given what the merge of the rest of
the existing list does with any updates.  The recursion is on the updates, as in the
definition: an update before the head is emitted and the head stays. -/
lemma mergeUpdatesFrom_spec {e : Validator} {existing : List Validator}
    (he : AddressSorted (e :: existing))
    (ih : ∀ us, AddressSorted us →
      (mergeUpdates existing us).Perm (us ++ existing.filter fun v => v.address ∉ addresses us) ∧
        AddressSorted (mergeUpdates existing us)) :
    ∀ us, AddressSorted us →
      (mergeUpdatesFrom e existing (mergeUpdates existing) us).Perm
          (us ++ (e :: existing).filter fun v => v.address ∉ addresses us) ∧
        AddressSorted (mergeUpdatesFrom e existing (mergeUpdates existing) us)
  | [], _ => by
      simp only [mergeUpdatesFrom, addresses_nil, List.not_mem_nil, not_false_eq_true,
        decide_true, List.filter_true, List.nil_append]
      exact ⟨List.Perm.refl _, he⟩
  | u :: us, hus => by
      unfold mergeUpdatesFrom
      split_ifs with hlt heq
      · -- the existing head comes first and is kept
        have hlt : ValidatorsByAddressLess e u := hlt
        obtain ⟨hperm, hsorted⟩ := ih (u :: us) hus
        rw [List.filter_cons_of_pos (by simpa using not_mem_addresses_of_lt hus hlt)]
        refine ⟨(hperm.cons e).trans List.perm_middle.symm, List.Pairwise.cons ?_ hsorted⟩
        intro y hy
        rcases List.mem_append.mp (hperm.mem_iff.mp hy) with hy | hy
        · rcases List.mem_cons.mp hy with rfl | hy
          · exact hlt
          · exact validatorsByAddressLess_trans hlt (hus.head_lt hy)
        · exact he.head_lt (List.mem_filter.mp hy).1
      · -- the update replaces the existing head
        obtain ⟨hperm, hsorted⟩ := ih us hus.of_cons
        have hlater : ∀ x ∈ existing, x.address ≠ u.address := fun x hx =>
          heq ▸ (validatorsByAddressLess_ne (he.head_lt hx)).symm
        rw [List.filter_cons_of_neg (by simp [heq]), filter_not_mem_cons hlater]
        refine ⟨hperm.cons u, List.Pairwise.cons ?_ hsorted⟩
        intro y hy
        rcases List.mem_append.mp (hperm.mem_iff.mp hy) with hy | hy
        · exact hus.head_lt hy
        · have hey := he.head_lt (List.mem_filter.mp hy).1
          unfold ValidatorsByAddressLess at hey ⊢
          rwa [← heq]
      · -- the update comes first and is emitted; the existing head waits
        have hue : ValidatorsByAddressLess u e := (bytesLt_total heq).resolve_left hlt
        obtain ⟨hperm, hsorted⟩ := mergeUpdatesFrom_spec he ih us hus.of_cons
        have hlater : ∀ x ∈ e :: existing, x.address ≠ u.address := by
          intro x hx
          rcases List.mem_cons.mp hx with rfl | hx
          · exact (validatorsByAddressLess_ne hue).symm
          · exact (validatorsByAddressLess_ne
              (validatorsByAddressLess_trans hue (he.head_lt hx))).symm
        rw [filter_not_mem_cons hlater]
        refine ⟨hperm.cons u, List.Pairwise.cons ?_ hsorted⟩
        intro y hy
        rcases List.mem_append.mp (hperm.mem_iff.mp hy) with hy | hy
        · exact hus.head_lt hy
        · rcases List.mem_cons.mp (List.mem_filter.mp hy).1 with rfl | hy
          · exact hue
          · exact validatorsByAddressLess_trans hue (he.head_lt hy)

/-- The merge of `applyUpdates`: the updates together with the existing entries they do not
replace, strictly address-sorted. -/
lemma mergeUpdates_spec : ∀ {existing : List Validator}, AddressSorted existing →
    ∀ {us : List Validator}, AddressSorted us →
      (mergeUpdates existing us).Perm (us ++ existing.filter fun v => v.address ∉ addresses us) ∧
        AddressSorted (mergeUpdates existing us)
  | [], _, us, hus => by simpa [mergeUpdates] using hus
  | _ :: _, he, us, hus =>
      mergeUpdatesFrom_spec he (fun _ hus => mergeUpdates_spec he.of_cons hus) us hus

/-- The walk of `applyRemovals` over strictly sorted lists, every removal being present, is a
filter, and so never runs off the end of the list. -/
lemma removeSorted_eq : ∀ {existing deletes : List Validator}, AddressSorted existing →
    AddressSorted deletes → (∀ d ∈ deletes, d.address ∈ addresses existing) →
    removeSorted existing deletes = .ok (existing.filter fun v => v.address ∉ addresses deletes)
  | existing, [], _, _, _ => by simp [removeSorted, pure, Except.pure]
  | [], d :: _, _, _, hfound => absurd (hfound d List.mem_cons_self) (by simp)
  | e :: existing, d :: deletes, he, hd, hfound => by
      unfold removeSorted
      have hfound' : ∀ x ∈ d :: deletes, x.address ≠ e.address →
          x.address ∈ addresses existing := by
        intro x hx hne
        simpa [hne] using hfound x hx
      split_ifs with hed
      · -- `e` is the removal `d`: dropped, and the walk goes on with the next removal
        have hlater : ∀ x ∈ existing, x.address ≠ d.address := fun x hx =>
          hed ▸ (validatorsByAddressLess_ne (he.head_lt hx)).symm
        rw [removeSorted_eq he.of_cons hd.of_cons fun x hx => hfound' x
            (List.mem_cons_of_mem _ hx)
            (hed ▸ (validatorsByAddressLess_ne (hd.head_lt hx)).symm),
          List.filter_cons_of_neg (by simp [hed]), filter_not_mem_cons hlater]
      · -- `e` is kept: it lies below the next removal
        have hed' : ValidatorsByAddressLess e d := by
          obtain ⟨w, hw, hwd⟩ := mem_addresses.mp (hfound' d List.mem_cons_self (Ne.symm hed))
          have hew := he.head_lt hw
          unfold ValidatorsByAddressLess at hew ⊢
          rwa [← hwd]
        rw [removeSorted_eq he.of_cons hd fun x hx => hfound' x hx ?_,
          List.filter_cons_of_pos (by simpa using not_mem_addresses_of_lt hd hed')]
        · rfl
        · rcases List.mem_cons.mp hx with rfl | hx
          · exact Ne.symm hed
          · exact (validatorsByAddressLess_ne
              (validatorsByAddressLess_trans hed' (hd.head_lt hx))).symm

/-! ## `updateTotalVotingPower` -/

/-- Below the bound, the clipped running sum of `updateTotalVotingPower` is the plain sum. -/
lemma sumVotingPower_eq : ∀ {s : Int} {l : List Validator}, (∀ v ∈ l, 0 ≤ v.votingPower) →
    0 ≤ s → s + powerSum l ≤ MaxTotalVotingPower → sumVotingPower s l = .ok (s + powerSum l)
  | s, [], _, _, _ => by simp [sumVotingPower, pure, Except.pure]
  | s, v :: l, hl, hs, hle => by
      have hv := hl v List.mem_cons_self
      have hrest := powerSum_nonneg fun w hw => hl w (List.mem_cons_of_mem _ hw)
      simp only [powerSum_cons] at hle ⊢
      unfold sumVotingPower
      dsimp only
      rw [safeAddClip_eq (inInt64_of_abs_le (by omega) (by omega)), if_neg (by omega),
        sumVotingPower_eq (fun w hw => hl w (List.mem_cons_of_mem _ hw)) (by omega) (by omega),
        add_assoc]

/-- `updateTotalVotingPower` on non-negative powers summing to at most `MaxTotalVotingPower`
stores that sum. -/
lemma updateTotalVotingPower_eq {vals : ValidatorSet} (hpos : ∀ v ∈ vals.validators, 0 ≤ v.votingPower)
    (hle : powerSum vals.validators ≤ MaxTotalVotingPower) :
    vals.updateTotalVotingPower = .ok { vals with totalVotingPower := powerSum vals.validators } := by
  unfold updateTotalVotingPower
  rw [sumVotingPower_eq hpos le_rfl (by simpa using hle), zero_add]
  rfl

end ValidatorSet

end Tendermint