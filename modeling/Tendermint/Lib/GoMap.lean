import Mathlib.Data.List.AList
import Mathlib.Data.Int.Interval

/-!
# Maps without an iteration order

A map of a language whose maps have no iteration order is Mathlib's `AList` with a constant
value type: its entries have unique keys, which the structure carries, so no invalid map can be
built and no lemma about one needs a uniqueness hypothesis.  The list order of `entries`
stands for one iteration order; code whose result does not depend on it can be read off any.

`AList` has `lookup`, `insert` and `erase` with their lemmas.  What the maps of such code use
beyond them is here: the lookups after an update as one `if` each (`lookup_insert_ite`,
`lookup_erase_ite`), deleting every key that fails a test while iterating (`filterKeys`, with
`lookup_filterKeys`), updating every value in place (`mapValues`), a counter of the values that
pass a test and how each update moves it (`countValues`), the bound a running maximum over a
loop reaches (`le_foldl`), and the size of a map whose keys lie in, or are, a finite set
(`length_le_card`, `length_eq_card`).
-/

namespace GoMap

/-- A map from `κ` to `ν`. -/
abbrev Map (κ ν : Type) := AList fun _ : κ => ν

variable {κ ν : Type}

/-- A map prints as the list of its entries. -/
instance [Repr κ] [Repr ν] : Repr (Map κ ν) :=
  ⟨fun m n => reprPrec (m.entries.map fun e => (e.1, e.2)) n⟩

/-- The entries whose key passes `p`: `for k := range m { if !p(k) { delete(m, k) } }`. -/
def filterKeys (m : Map κ ν) (p : κ → Bool) : Map κ ν :=
  ⟨m.entries.filter fun e => p e.1, m.nodupKeys.sublist List.filter_sublist⟩

@[simp] lemma entries_filterKeys (m : Map κ ν) (p : κ → Bool) :
    (filterKeys m p).entries = m.entries.filter fun e => p e.1 := rfl

/-- Every value updated by `f`: a loop over a map of pointers that changes each element. -/
def mapValues {ν' : Type} (f : ν → ν') (m : Map κ ν) : Map κ ν' :=
  ⟨m.entries.map fun e => ⟨e.1, f e.2⟩, by
    have hkeys : (m.entries.map fun e => (⟨e.1, f e.2⟩ : Σ _ : κ, ν')).keys = m.keys := by
      simp [List.keys, AList.keys, Function.comp_def]
    rw [List.NodupKeys, hkeys]
    exact m.keys_nodup⟩

@[simp] lemma entries_mapValues {ν' : Type} (f : ν → ν') (m : Map κ ν) :
    (mapValues f m).entries = m.entries.map fun e => ⟨e.1, f e.2⟩ := rfl

lemma mapValues_mapValues {ν' ν'' : Type} (f : ν → ν') (g : ν' → ν'') (m : Map κ ν) :
    mapValues g (mapValues f m) = mapValues (g ∘ f) m :=
  AList.ext (by simp [Function.comp_def])

/-- The number of values that pass `p`: a counter kept beside a map. -/
def countValues (p : ν → Bool) (m : Map κ ν) : Nat := m.entries.countP fun e => p e.2

lemma countValues_mapValues {ν' : Type} (p : ν' → Bool) (f : ν → ν') (m : Map κ ν) :
    countValues p (mapValues f m) = countValues (p ∘ f) m := by
  simp [countValues, List.countP_map, Function.comp_def]

variable [DecidableEq κ]

/-- `AList.lookup_insert` and `AList.lookup_insert_ne` in one. -/
lemma lookup_insert_ite (m : Map κ ν) (k k' : κ) (v : ν) :
    (m.insert k v).lookup k' = if k' = k then some v else m.lookup k' := by
  by_cases h : k' = k
  · subst h
    rw [if_pos rfl, AList.lookup_insert]
  · rw [if_neg h, AList.lookup_insert_ne h]

/-- `AList.lookup_erase` and `AList.lookup_erase_ne` in one. -/
lemma lookup_erase_ite (m : Map κ ν) (k k' : κ) :
    (m.erase k).lookup k' = if k' = k then none else m.lookup k' := by
  by_cases h : k' = k
  · subst h
    rw [if_pos rfl, AList.lookup_erase]
  · rw [if_neg h, AList.lookup_erase_ne h]

lemma lookup_filterKeys (m : Map κ ν) (p : κ → Bool) (k : κ) :
    (filterKeys m p).lookup k = if p k then m.lookup k else none := by
  apply Option.ext
  intro v
  rw [← Option.mem_def, AList.mem_lookup_iff, entries_filterKeys, List.mem_filter]
  by_cases hk : p k
  · rw [if_pos hk, ← Option.mem_def, AList.mem_lookup_iff]
    exact ⟨fun h => h.1, fun h => ⟨h, hk⟩⟩
  · rw [if_neg hk]
    exact ⟨fun h => absurd h.2 hk, fun h => nomatch h⟩

/-- A loop that never lowers its accumulator, and lifts it to at least `v a` at each element
passing `c`, ends at or above every such `v a`: the shape of a running maximum. -/
lemma le_foldl {α β : Type} [Preorder β] (f : β → α → β) (hf : ∀ b a, b ≤ f b a)
    (c : α → Prop) (v : α → β) (hv : ∀ b a, c a → v a ≤ f b a) :
    ∀ (l : List α) (b : β), b ≤ l.foldl f b ∧ ∀ a ∈ l, c a → v a ≤ l.foldl f b
  | [], b => ⟨le_refl b, fun _ ha => nomatch ha⟩
  | a :: l, b => by
    obtain ⟨hle, hall⟩ := le_foldl f hf c v hv l (f b a)
    refine ⟨(hf b a).trans hle, ?_⟩
    intro a' ha' hc
    rcases List.mem_cons.mp ha' with rfl | ha'
    · exact (hv b a' hc).trans hle
    · exact hall a' ha' hc

/-- Unique keys from a finite set: at most as many entries as the set has elements. -/
lemma length_le_card (m : Map κ ν) {s : Finset κ} (hs : ∀ k ∈ m, k ∈ s) :
    m.entries.length ≤ s.card := by
  have hlen : m.keys.length = m.entries.length := List.length_map _
  rw [← hlen, ← List.toFinset_card_of_nodup m.keys_nodup]
  exact Finset.card_le_card fun k hk => hs k (AList.mem_keys.mpr (List.mem_toFinset.mp hk))

/-- Keys in an integer interval `[a, a + n)`: at most `n` entries. -/
lemma length_le_of_window (m : Map Int ν) (a n : Int) (hs : ∀ k ∈ m, a ≤ k ∧ k < a + n) :
    m.entries.length ≤ n.toNat := by
  have hcard : (Finset.Ico a (a + n)).card = n.toNat := by
    rw [Int.card_Ico]
    congr 1
    omega
  rw [← hcard]
  exact length_le_card m fun k hk => Finset.mem_Ico.mpr (hs k hk)

lemma lookup_mapValues {ν' : Type} (f : ν → ν') (m : Map κ ν) (k : κ) :
    (mapValues f m).lookup k = (m.lookup k).map f := by
  obtain ⟨l, hl⟩ := m
  show (l.map fun e => (⟨e.1, f e.2⟩ : Σ _ : κ, ν')).dlookup k = (l.dlookup k).map f
  clear hl
  induction l with
  | nil => rfl
  | cons e l ih =>
    obtain ⟨k', v⟩ := e
    by_cases hk : k = k'
    · subst hk
      simp only [List.map_cons, List.dlookup_cons_eq, Option.map_some]
    · rw [List.map_cons, List.dlookup_cons_ne _ _ hk, List.dlookup_cons_ne _ _ hk, ih]

@[simp] lemma mem_mapValues {ν' : Type} (f : ν → ν') (m : Map κ ν) (k : κ) :
    k ∈ mapValues f m ↔ k ∈ m := by
  rw [← AList.lookup_isSome, ← AList.lookup_isSome, lookup_mapValues, Option.isSome_map]

lemma countValues_insert_of_notMem (p : ν → Bool) {m : Map κ ν} {k : κ} (v : ν) (h : k ∉ m) :
    countValues p (m.insert k v) = countValues p m + if p v then 1 else 0 := by
  rw [countValues, AList.entries_insert_of_notMem h, List.countP_cons, countValues]

/-- The entries of a map on either side of the one at `k`. -/
lemma entries_split {m : Map κ ν} {k : κ} {v : ν} (h : m.lookup k = some v) :
    ∃ l₁ l₂, m.entries = l₁ ++ ⟨k, v⟩ :: l₂ ∧ m.entries.kerase k = l₁ ++ l₂ := by
  have hk : k ∈ m.entries.keys := AList.lookup_isSome.mp (by rw [h]; rfl)
  obtain ⟨b, l₁, l₂, -, he, hker⟩ := List.exists_of_kerase hk
  have hb : b = v := by
    have hmem : b ∈ m.lookup k := (AList.mem_lookup_iff).mpr (by rw [he]; simp)
    rw [h] at hmem
    exact (Option.mem_some_iff.mp hmem).symm
  subst hb
  exact ⟨l₁, l₂, he, hker⟩

/-- Overwriting a value moves the count by what the old and the new value contribute. -/
lemma countValues_insert_of_lookup (p : ν → Bool) {m : Map κ ν} {k : κ} {v₀ : ν} (v : ν)
    (h : m.lookup k = some v₀) :
    countValues p (m.insert k v) + (if p v₀ then 1 else 0) =
      countValues p m + if p v then 1 else 0 := by
  obtain ⟨l₁, l₂, he, hker⟩ := entries_split h
  rw [countValues, countValues, AList.entries_insert, hker, he]
  simp only [List.countP_cons, List.countP_append]
  omega

lemma countValues_erase_of_lookup (p : ν → Bool) {m : Map κ ν} {k : κ} {v₀ : ν}
    (h : m.lookup k = some v₀) :
    countValues p (m.erase k) + (if p v₀ then 1 else 0) = countValues p m := by
  obtain ⟨l₁, l₂, he, hker⟩ := entries_split h
  show List.countP _ (m.entries.kerase k) + _ = List.countP _ m.entries
  rw [hker, he]
  simp only [List.countP_cons, List.countP_append]
  omega

/-- A map whose keys are exactly a finite set has as many entries as the set. -/
lemma length_eq_card (m : Map κ ν) {s : Finset κ} (hs : ∀ k, k ∈ m ↔ k ∈ s) :
    m.entries.length = s.card := by
  have hlen : m.keys.length = m.entries.length := List.length_map _
  rw [← hlen, ← List.toFinset_card_of_nodup m.keys_nodup]
  congr 1
  ext k
  rw [List.mem_toFinset, ← AList.mem_keys, hs]

/-! ### Maps of maps -/

section Nested

variable {κ' : Type} [DecidableEq κ']

/-- `m[k][k2] = v`, making `m[k]` first when it is nil. -/
def setIn (m : Map κ (Map κ' ν)) (k : κ) (k2 : κ') (v : ν) : Map κ (Map κ' ν) :=
  m.insert k (((m.lookup k).getD ∅).insert k2 v)

/-- `delete(m[k], k2)`, which does nothing when `m[k]` is nil. -/
def deleteIn (m : Map κ (Map κ' ν)) (k : κ) (k2 : κ') : Map κ (Map κ' ν) :=
  match m.lookup k with
  | none => m
  | some inner => m.insert k (inner.erase k2)

lemma lookup_setIn (m : Map κ (Map κ' ν)) (k k' : κ) (k2 : κ') (v : ν) :
    (setIn m k k2 v).lookup k' =
      if k' = k then some (((m.lookup k).getD ∅).insert k2 v) else m.lookup k' :=
  lookup_insert_ite _ _ _ _

end Nested

end GoMap
