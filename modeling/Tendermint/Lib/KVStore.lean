import Mathlib.Data.List.AList
import Mathlib.Data.List.Sort

/-!
# A key-value database

A key-value database maps keys to values and iterates over its entries in the order of the
keys.  `KVStore` gives the operations and `KVStore.Lawful` the contract a program may rely on:
`Get` after a `Set` of the key returns the value set and after a `Delete` nothing, both leave the
other keys alone, and an iteration visits the stored entries and nothing else, in ascending order
of the keys.  The order is a parameter of the contract.

A program holding a database holds a `KVStore.DB`: an implementation with its contract, in some
state.  The type of the states is a parameter, so that a database is a value like any other
that a monadic program can pass on.  What is proved of a model over `KVStore.DB` holds for every
implementation, and rests on the contract only:

* `DB.Get_Set`, `DB.Get_Delete` — reads after writes;
* `DB.mem_Iterate`, `DB.Iterate_sorted` — an iteration;
* `DB.mem_IteratePrefix`, `DB.IteratePrefix_eq` — an iteration restricted to the keys with a
  prefix, which what is stored determines.

`ofAList` is one implementation, which keeps the entries in an `AList` and sorts them for an
iteration; it meets the contract for every strict total order of the keys (`ofAList_lawful`),
and `DB.emptyAList` is an empty database kept so.
-/

/-- The operations of a key-value database whose states are `σ`. -/
structure KVStore (σ κ ν : Type) where
  Get : σ → κ → Option ν
  Set : σ → κ → ν → σ
  Delete : σ → κ → σ
  /-- The entries, in the order an iterator over the whole database visits them. -/
  Iterate : σ → List (κ × ν)

namespace KVStore

variable {σ κ ν : Type}

/-- The contract of a key-value database whose keys are ordered by `lt`. -/
structure Lawful (store : KVStore σ κ ν) (lt : κ → κ → Prop) : Prop where
  /-- `Get` after a `Set` of the key returns the value set. -/
  Get_Set_self : ∀ s k v, store.Get (store.Set s k v) k = some v
  /-- A `Set` leaves the other keys alone. -/
  Get_Set_of_ne : ∀ s k k' v, k' ≠ k → store.Get (store.Set s k v) k' = store.Get s k'
  /-- `Get` after a `Delete` of the key returns nothing. -/
  Get_Delete_self : ∀ s k, store.Get (store.Delete s k) k = none
  /-- A `Delete` leaves the other keys alone. -/
  Get_Delete_of_ne : ∀ s k k', k' ≠ k → store.Get (store.Delete s k) k' = store.Get s k'
  /-- An iteration visits the stored entries and nothing else. -/
  mem_Iterate : ∀ s k v, (k, v) ∈ store.Iterate s ↔ store.Get s k = some v
  /-- An iteration visits the keys in ascending order, each once. -/
  Iterate_sorted : ∀ s, (store.Iterate s).Pairwise fun a b => lt a.1 b.1

/-- A database: an implementation with its contract, in some state. -/
structure DB (σ κ ν : Type) (lt : κ → κ → Prop) where
  store : KVStore σ κ ν
  lawful : store.Lawful lt
  state : σ

namespace DB

variable {lt : κ → κ → Prop}

def Get (db : DB σ κ ν lt) (k : κ) : Option ν :=
  db.store.Get db.state k

def Set (db : DB σ κ ν lt) (k : κ) (v : ν) : DB σ κ ν lt :=
  { db with state := db.store.Set db.state k v }

def Delete (db : DB σ κ ν lt) (k : κ) : DB σ κ ν lt :=
  { db with state := db.store.Delete db.state k }

def Iterate (db : DB σ κ ν lt) : List (κ × ν) :=
  db.store.Iterate db.state

section Laws

variable (db : DB σ κ ν lt)

lemma mem_Iterate {k : κ} {v : ν} : (k, v) ∈ db.Iterate ↔ db.Get k = some v :=
  db.lawful.mem_Iterate db.state k v

lemma Iterate_sorted : db.Iterate.Pairwise fun a b => lt a.1 b.1 :=
  db.lawful.Iterate_sorted db.state

variable [DecidableEq κ]

@[simp] lemma Get_Set (k k' : κ) (v : ν) :
    (db.Set k v).Get k' = if k' = k then some v else db.Get k' := by
  by_cases h : k' = k
  · subst h
    rw [if_pos rfl]
    exact db.lawful.Get_Set_self db.state k' v
  · rw [if_neg h]
    exact db.lawful.Get_Set_of_ne db.state k k' v h

@[simp] lemma Get_Delete (k k' : κ) :
    (db.Delete k).Get k' = if k' = k then none else db.Get k' := by
  by_cases h : k' = k
  · subst h
    rw [if_pos rfl]
    exact db.lawful.Get_Delete_self db.state k'
  · rw [if_neg h]
    exact db.lawful.Get_Delete_of_ne db.state k k' h

end Laws

/-- The entries whose key starts with `p`, in the order of the keys. -/
def IteratePrefix {α : Type} [BEq α] {lt : List α → List α → Prop} (db : DB σ (List α) ν lt)
    (p : List α) : List (List α × ν) :=
  db.Iterate.filter fun e => p.isPrefixOf e.1

lemma mem_IteratePrefix {α : Type} [BEq α] [LawfulBEq α] {lt : List α → List α → Prop}
    (db : DB σ (List α) ν lt) (p k : List α) (v : ν) :
    (k, v) ∈ db.IteratePrefix p ↔ p <+: k ∧ db.Get k = some v := by
  rw [IteratePrefix, List.mem_filter, mem_Iterate, List.isPrefixOf_iff_prefix, and_comm]

/-- A prefix iteration is determined by what is stored: under an asymmetric order of the keys, a
sorted list that holds exactly the stored entries with the prefix is the iteration. -/
lemma IteratePrefix_eq {α : Type} [BEq α] [LawfulBEq α] {lt : List α → List α → Prop}
    (asymm : ∀ a b, lt a b → ¬ lt b a) (db : DB σ (List α) ν lt) (p : List α)
    {l : List (List α × ν)} (hl : l.Pairwise fun a b => lt a.1 b.1)
    (hmem : ∀ k v, (k, v) ∈ l ↔ p <+: k ∧ db.Get k = some v) : db.IteratePrefix p = l := by
  have hnodup : ∀ {l : List (List α × ν)}, l.Pairwise (fun a b => lt a.1 b.1) → l.Nodup :=
    fun h => h.imp fun {a b} hab (heq : a = b) => asymm _ _ hab (heq ▸ hab)
  have hsorted : (db.IteratePrefix p).Pairwise fun a b => lt a.1 b.1 :=
    db.Iterate_sorted.filter _
  refine List.Perm.eq_of_pairwise (fun a b _ _ hab hba => absurd hba (asymm _ _ hab)) hsorted hl ?_
  refine (List.perm_ext_iff_of_nodup (hnodup hsorted) (hnodup hl)).mpr fun ⟨k, v⟩ => ?_
  rw [mem_IteratePrefix, hmem]

end DB

section OfAList

variable [DecidableEq κ] (lt : κ → κ → Prop) [DecidableRel lt]

/-- A database that keeps its entries in an `AList`, and sorts them by `lt` for an iteration. -/
def ofAList : KVStore (AList fun _ : κ => ν) κ ν where
  Get s k := s.lookup k
  Set s k v := s.insert k v
  Delete s k := s.erase k
  Iterate s := (s.entries.map fun e => (e.1, e.2)).insertionSort fun a b => ¬ lt b.1 a.1

variable {lt}

/-- Sorting by "not after" puts distinct keys in ascending order, for a strict total order. -/
lemma pairwise_lt_of_insertionSort (asymm : ∀ a b, lt a b → ¬ lt b a)
    (trans : ∀ a b c, lt a b → lt b c → lt a c) (total : ∀ a b, a ≠ b → lt a b ∨ lt b a)
    {l : List (κ × ν)} (hl : l.Pairwise fun a b => a.1 ≠ b.1) :
    (l.insertionSort fun a b => ¬ lt b.1 a.1).Pairwise fun a b => lt a.1 b.1 := by
  -- "not after" is total and transitive, so the sorted list is ordered by it
  have : Std.Total fun a b : κ × ν => ¬ lt b.1 a.1 :=
    ⟨fun a b => (em (lt b.1 a.1)).symm.imp_right (asymm _ _)⟩
  have : IsTrans (κ × ν) fun a b => ¬ lt b.1 a.1 := ⟨fun a b c hab hbc hca => by
    by_cases hcb : c.1 = b.1
    · exact hab (hcb ▸ hca)
    · rcases total _ _ hcb with h | h
      · exact hbc h
      · exact hab (trans _ _ _ h hca)⟩
  have hle := List.pairwise_insertionSort (fun a b : κ × ν => ¬ lt b.1 a.1) l
  have hne : (l.insertionSort fun a b => ¬ lt b.1 a.1).Pairwise fun a b => a.1 ≠ b.1 :=
    ((List.perm_insertionSort _ l).pairwise_iff fun h => Ne.symm h).mpr hl
  exact (hle.and hne).imp fun {a b} ⟨hab, hne⟩ => (total _ _ hne).resolve_right hab

/-- An `AList` kept in order by a strict total order meets the contract. -/
theorem ofAList_lawful (asymm : ∀ a b, lt a b → ¬ lt b a)
    (trans : ∀ a b c, lt a b → lt b c → lt a c) (total : ∀ a b, a ≠ b → lt a b ∨ lt b a) :
    (ofAList lt : KVStore _ κ ν).Lawful lt where
  Get_Set_self s k v := AList.lookup_insert s
  Get_Set_of_ne _ _ _ _ h := AList.lookup_insert_ne h
  Get_Delete_self s k := AList.lookup_erase k s
  Get_Delete_of_ne _ _ _ h := AList.lookup_erase_ne h
  mem_Iterate s k v := by
    simp only [ofAList, List.mem_insertionSort, List.mem_map]
    rw [← Option.mem_def, AList.mem_lookup_iff]
    constructor
    · rintro ⟨⟨k', v'⟩, he, hkv⟩
      cases hkv
      exact he
    · exact fun he => ⟨_, he, rfl⟩
  Iterate_sorted s := by
    refine pairwise_lt_of_insertionSort asymm trans total ?_
    exact List.pairwise_map.mpr (List.nodupKeys_iff_pairwise.mp s.nodupKeys)

/-- An empty database kept as an `AList`. -/
def DB.emptyAList (asymm : ∀ a b, lt a b → ¬ lt b a) (trans : ∀ a b c, lt a b → lt b c → lt a c)
    (total : ∀ a b, a ≠ b → lt a b ∨ lt b a) : DB (AList fun _ : κ => ν) κ ν lt :=
  ⟨ofAList lt, ofAList_lawful asymm trans total, ∅⟩

@[simp] lemma DB.Get_emptyAList (asymm : ∀ a b, lt a b → ¬ lt b a)
    (trans : ∀ a b c, lt a b → lt b c → lt a c) (total : ∀ a b, a ≠ b → lt a b ∨ lt b a) (k : κ) :
    (DB.emptyAList asymm trans total : DB _ κ ν lt).Get k = none :=
  @AList.lookup_empty _ (fun _ => ν) _ k

end OfAList

end KVStore
