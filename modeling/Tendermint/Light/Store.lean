import Tendermint.Types.VoteSet
import Tendermint.Lib.Except

/-!
# The light client's store (`light/store/db/db.go`)

A light client keeps the signed headers and validator sets it trusts in a key-value database,
which several stores may share, each under its own prefix: the header of height `h` under
`sh/<prefix>/<h>` (`shKey`) and the validator set under `vs/<prefix>/<h>` (`vsKey`).  Beside
them a store keeps a `uint16` count of its pairs, in memory and under `sizeKey`, which `New`
reads back.  `Prune` deletes pairs from the lowest height up until the count is down to its
argument.

The database is any with the contract of tm-db (`KVStore.DB`), and the model uses nothing else
of it.  It keys the database by `Key`, the parts that `shKey`, `vsKey` and `sizeKey` format, and
lists the headers of a store by height (`heightsOf`, read off an iteration): that is the range the
iterators scan and the order they scan it in, since heights are written with 20 digits and are
positive, and the keys of two stores whose prefixes hold no `/` never fall in each other's range.
The database does not fail, and each call runs alone; `memDB` is an empty one.

What a store holds is read off the database.  Each call changes `heightsOf` of its own prefix only
(`run_heightsOf_other`), and as it says (`Save_ok`, `Delete_ok`, `heightsOf_Prune`); the readers return the greatest,
the least and the greatest-below of those heights (`readers_spec`).  The count does not follow them:
`Save` adds one even when the height is already stored, `Delete` takes one off even when nothing is
deleted, and `sizeKey` has no prefix.  Saving a header twice leaves `Size() = 2` over one header
(`Save_twice_size`).  Where every save is of a new height and every delete of a stored one, the
count is the number of headers over every run of one store (`run_sizeAgrees`), and `Prune n` keeps
exactly the `n` highest (`run_Prune_keeps_highest`).  Whether a run keeps to that is decided along
the run (`properRunDecidable`).
-/

namespace Tendermint

namespace Light

namespace Store

open ExceptRun

variable {σ : Type}

/-- `store.ErrSignedHeaderNotFound`. -/
def ErrSignedHeaderNotFound : String := "signed header not found"

/-- `store.ErrValidatorSetNotFound`. -/
def ErrValidatorSetNotFound : String := "validator set not found"

/-- A key of the database, by the parts `shKey`, `vsKey` and `sizeKey` format into bytes. -/
inductive Key where
  | sh (pfx : String) (height : Int)
  | vs (pfx : String) (height : Int)
  | size
  deriving DecidableEq, Repr

/-- `sizeKey`: the same key for every store of the database. -/
def sizeKey : Key := .size

/-- Where a key stands in the order of the keys: the headers before the count before the
validator sets, and the keys of one kind by prefix, then height. -/
def Key.rank : Key → Lex (Nat × Lex (String × Int))
  | .sh pfx height => toLex (0, toLex (pfx, height))
  | .size => toLex (1, toLex ("", 0))
  | .vs pfx height => toLex (2, toLex (pfx, height))

/-- The order of the keys, as the database iterates them. -/
def Key.Lt (a b : Key) : Prop := a.rank < b.rank

instance (a b : Key) : Decidable (Key.Lt a b) := inferInstanceAs (Decidable (_ < _))

lemma Key.rank_injective : Function.Injective Key.rank := by
  intro a b h
  cases a <;> cases b <;> simp_all [Key.rank]

lemma Key.Lt.asymm {a b : Key} (h : a.Lt b) : ¬ b.Lt a := lt_asymm h

lemma Key.Lt.trans {a b c : Key} (h₁ : a.Lt b) (h₂ : b.Lt c) : a.Lt c := lt_trans h₁ h₂

lemma Key.Lt.total {a b : Key} (h : a ≠ b) : a.Lt b ∨ b.Lt a :=
  lt_or_gt_of_ne (Key.rank_injective.ne h)

/-- The key-value database (`dbm.DB`): any with the contract of tm-db, under the order of the
keys. -/
abbrev DB (σ : Type) := KVStore.DB σ Key Bytes Key.Lt

/-- `dbm.NewMemDB()`: an empty database in memory. -/
def memDB : DB (AList fun _ : Key => Bytes) :=
  KVStore.DB.emptyAList (fun _ _ => Key.Lt.asymm) (fun _ _ _ => Key.Lt.trans)
    (fun _ _ => Key.Lt.total)

/-- `dbs`, without its database, which the stores share and the model passes beside them. -/
structure dbs where
  pfx : String
  size : UInt16
  deriving DecidableEq, Repr

/-- `shKey`. -/
def dbs.shKey (s : dbs) (height : Int) : Key := .sh s.pfx height

/-- `vsKey`. -/
def dbs.vsKey (s : dbs) (height : Int) : Key := .vs s.pfx height

/-- `marshalSize`: two bytes, little-endian. -/
def marshalSize (size : UInt16) : Bytes := [size.toUInt8, (size >>> 8).toUInt8]

/-- `unmarshalSize`: `binary.LittleEndian.Uint16`, which indexes the second byte first and so
panics on fewer than two. -/
def unmarshalSize (bz : Bytes) : Go UInt16 := do
  let b1 ← goIndex bz 1
  let b0 ← goIndex bz 0
  pure (b0.toUInt16 ||| b1.toUInt16 <<< 8)

/-- The count `marshalSize` writes is the count `unmarshalSize` reads. -/
lemma unmarshalSize_marshalSize (size : UInt16) : unmarshalSize (marshalSize size) = .ok size := by
  simp only [unmarshalSize, marshalSize, goIndex]
  show Except.ok (size.toUInt8.toUInt16 ||| (size >>> 8).toUInt8.toUInt16 <<< 8) = _
  congr 1
  apply UInt16.toNat_inj.mp
  have hsize := size.toNat_lt
  simp only [UInt16.toNat_or, UInt16.toNat_shiftLeft, UInt8.toNat_toUInt16, UInt16.toNat_toUInt8,
    UInt16.toNat_shiftRight, show UInt16.toNat 8 % 16 = 8 from rfl]
  -- the high byte shifted back is the count less its low byte, which the `or` adds back
  have hhigh : (size.toNat >>> 8 % 2 ^ 8) <<< 8 % 2 ^ 16 = (size.toNat / 2 ^ 8) <<< 8 := by
    rw [Nat.shiftLeft_eq, Nat.shiftLeft_eq, Nat.shiftRight_eq_div_pow]
    omega
  rw [hhigh, Nat.or_comm, ← Nat.shiftLeft_add_eq_or_of_lt (Nat.mod_lt _ (by norm_num)),
    Nat.shiftLeft_eq]
  omega

/-- `New`: the count is read back from `sizeKey`, whichever store wrote it last. -/
def New (db : DB σ) (pfx : String) : Go dbs :=
  let bz := (db.Get sizeKey).getD []
  if 0 < bz.length then (fun size => ⟨pfx, size⟩) <$> unmarshalSize bz
  else pure ⟨pfx, 0⟩

/-- A store opened where `sizeKey` holds nothing counts nothing. -/
lemma New_empty {db : DB σ} (h : db.Get sizeKey = none) (pfx : String) :
    New db pfx = .ok ⟨pfx, 0⟩ := by
  simp [New, h]
  rfl

/-- A store opened where `sizeKey` holds a count written by `marshalSize` starts from it. -/
lemma New_of_Get_sizeKey {db : DB σ} {size : UInt16} (h : db.Get sizeKey = some (marshalSize size))
    (pfx : String) : New db pfx = .ok ⟨pfx, size⟩ := by
  simp only [New, h, Option.getD_some, marshalSize, List.length_cons, List.length_nil]
  rw [if_pos (by norm_num), ← marshalSize, unmarshalSize_marshalSize]
  rfl

/-- What the store uses of `types.SignedHeader` and `types.ValidatorSet`: the height of a header
and the protobuf encodings of both, each way.  `proto.Marshal` of a header does not fail; a
validator set that is empty has no protobuf form (`ToProto`). -/
structure Codec (SH VS : Type) where
  height : SH → Int
  marshalSignedHeader : SH → Bytes
  marshalValidatorSet : VS → Except String Bytes
  unmarshalSignedHeader : Bytes → Except String SH
  unmarshalValidatorSet : Bytes → Except String VS

section Calls

variable {SH VS : Type} (codec : Codec SH VS)

/-- `SaveSignedHeaderAndValidatorSet`: one batch writes both values and the count plus one. -/
def SaveSignedHeaderAndValidatorSet (s : dbs) (db : DB σ) (sh : SH) (valSet : VS) :
    Go (dbs × DB σ) :=
  if codec.height sh ≤ 0 then throw (.panic "negative or zero height")
  else do
    let valSetBz ← (codec.marshalValidatorSet valSet).mapError
      fun e => .err ("unable to transition validator set to protobuf: " ++ e)
    let height := codec.height sh
    let b := ((db.Set (s.shKey height) (codec.marshalSignedHeader sh)).Set (s.vsKey height)
      valSetBz).Set sizeKey (marshalSize (s.size + 1))
    pure ({ s with size := s.size + 1 }, b)

/-- `DeleteSignedHeaderAndValidatorSet`: one batch deletes both values and writes the count less
one, whether or not they were there. -/
def DeleteSignedHeaderAndValidatorSet (s : dbs) (db : DB σ) (height : Int) : Go (dbs × DB σ) :=
  if height ≤ 0 then throw (.panic "negative or zero height")
  else
    let b := ((db.Delete (s.shKey height)).Delete (s.vsKey height)).Set sizeKey
      (marshalSize (s.size - 1))
    pure ({ s with size := s.size - 1 }, b)

/-- `Size`. -/
def Size (s : dbs) : UInt16 := s.size

/-- The body shared by `SignedHeader` and `ValidatorSet`: the value under `key height`, decoded,
or `notFound` when the database holds no bytes there. -/
def loadAt {α : Type} (db : DB σ) (key : Int → Key) (notFound : String)
    (unmarshal : Bytes → Except String α) (height : Int) : Go α :=
  if height ≤ 0 then throw (.panic "negative or zero height")
  else
    let bz := (db.Get (key height)).getD []
    if bz.length = 0 then throw (.err notFound)
    else (unmarshal bz).mapError .err

/-- `SignedHeader`. -/
def SignedHeader (s : dbs) (db : DB σ) (height : Int) : Go SH :=
  loadAt db s.shKey ErrSignedHeaderNotFound codec.unmarshalSignedHeader height

/-- `ValidatorSet`. -/
def ValidatorSet (s : dbs) (db : DB σ) (height : Int) : Go VS :=
  loadAt db s.vsKey ErrValidatorSetNotFound codec.unmarshalValidatorSet height

/-- A lookup succeeds only where the database holds a value, at a positive height. -/
lemma loadAt_ok {α : Type} {db : DB σ} {key : Int → Key} {notFound : String}
    {unmarshal : Bytes → Except String α} {height : Int} {a : α}
    (h : loadAt db key notFound unmarshal height = .ok a) :
    0 < height ∧ (db.Get (key height)).isSome := by
  unfold loadAt at h
  by_cases hpos : height ≤ 0
  · rw [if_pos hpos] at h
    cases h
  rw [if_neg hpos] at h
  refine ⟨by omega, ?_⟩
  cases hget : db.Get (key height) with
  | none =>
    simp only [hget, Option.getD_none, List.length_nil, if_true] at h
    cases h
  | some bz => rfl

end Calls

/-! ## The headers of a store -/

/-- The height of an entry that is a header of the store with prefix `pfx`, in the range the
iterators scan, `shKey(1)` up to `shKey(1<<63-1)`. -/
def shHeight (pfx : String) : Key × Bytes → Option Int
  | (.sh q height, _) => if q = pfx ∧ 0 < height then some height else none
  | _ => none

/-- The heights of the store's headers, in the order `db.Iterator` scans them. -/
def heightsOf (db : DB σ) (pfx : String) : List Int :=
  ((db.Iterate.filterMap (shHeight pfx)).dedup).insertionSort (· ≤ ·)

lemma shHeight_eq_some {pfx : String} {e : Key × Bytes} {height : Int} :
    shHeight pfx e = some height ↔ e.1 = .sh pfx height ∧ 0 < height := by
  obtain ⟨key, v⟩ := e
  cases key with
  | sh q h =>
    simp only [shHeight, Key.sh.injEq]
    split_ifs with hq
    · simp only [Option.some.injEq]
      constructor
      · rintro rfl
        exact ⟨⟨hq.1, rfl⟩, hq.2⟩
      · rintro ⟨⟨-, rfl⟩, -⟩
        rfl
    · simp only [false_iff]
      rintro ⟨⟨rfl, rfl⟩, hpos⟩
      exact hq ⟨rfl, hpos⟩
  | vs q h => simp [shHeight]
  | size => simp [shHeight]

lemma mem_heightsOf {db : DB σ} {pfx : String} {height : Int} :
    height ∈ heightsOf db pfx ↔ 0 < height ∧ (db.Get (.sh pfx height)).isSome := by
  simp only [heightsOf, List.mem_insertionSort, List.mem_dedup, List.mem_filterMap,
    shHeight_eq_some, Option.isSome_iff_exists]
  constructor
  · rintro ⟨⟨key, v⟩, he, rfl, hpos⟩
    exact ⟨hpos, v, db.mem_Iterate.mp he⟩
  · rintro ⟨hpos, v, hv⟩
    exact ⟨(_, v), db.mem_Iterate.mpr hv, rfl, hpos⟩

/-- The iterator scans each height once, upwards. -/
lemma heightsOf_pairwise (db : DB σ) (pfx : String) : (heightsOf db pfx).Pairwise (· < ·) := by
  have hle : (heightsOf db pfx).Pairwise (· ≤ ·) := List.pairwise_insertionSort _ _
  have hnodup : (heightsOf db pfx).Nodup :=
    (List.perm_insertionSort _ _).nodup_iff.mpr (List.nodup_dedup _)
  exact (hle.and hnodup).imp fun h => lt_of_le_of_ne h.1 h.2

/-- `heightsOf` is fixed by which heights it holds. -/
lemma heightsOf_eq {db : DB σ} {pfx : String} {l : List Int} (hl : l.Pairwise (· < ·))
    (h : ∀ height, height ∈ heightsOf db pfx ↔ height ∈ l) : heightsOf db pfx = l :=
  (heightsOf_pairwise db pfx).eq_of_mem_iff hl h

/-- A database that holds the same headers of a prefix lists the same heights. -/
lemma heightsOf_congr {db db' : DB σ} {pfx : String}
    (h : ∀ height, (db'.Get (.sh pfx height)).isSome = (db.Get (.sh pfx height)).isSome) :
    heightsOf db' pfx = heightsOf db pfx :=
  heightsOf_eq (heightsOf_pairwise db pfx) fun height => by
    rw [mem_heightsOf, mem_heightsOf, h height]

/-- A database with no header of the prefix lists no height. -/
lemma heightsOf_empty {db : DB σ} {pfx : String} (h : ∀ height, db.Get (.sh pfx height) = none) :
    heightsOf db pfx = [] :=
  heightsOf_eq List.Pairwise.nil fun height => by simp [mem_heightsOf, h]

lemma mem_heightsOf_Set {db : DB σ} {pfx : String} {key : Key} {value : Bytes} {height : Int} :
    height ∈ heightsOf (db.Set key value) pfx ↔
      height ∈ heightsOf db pfx ∨ (key = .sh pfx height ∧ 0 < height) := by
  simp only [mem_heightsOf, KVStore.DB.Get_Set]
  by_cases hk : Key.sh pfx height = key
  · subst hk
    simp only [if_true, Option.isSome_some, and_true, true_and]
    tauto
  · simp [hk, Ne.symm hk]

lemma mem_heightsOf_Delete {db : DB σ} {pfx : String} {key : Key} {height : Int} :
    height ∈ heightsOf (db.Delete key) pfx ↔ height ∈ heightsOf db pfx ∧ key ≠ .sh pfx height := by
  simp only [mem_heightsOf, KVStore.DB.Get_Delete]
  by_cases hk : Key.sh pfx height = key
  · subst hk
    simp
  · simp [hk, Ne.symm hk]

/-- The members of a list with no repeats past its first `m` are those not among them. -/
lemma mem_drop_iff_of_nodup {α : Type} {l : List α} (hl : l.Nodup) (m : Nat) (a : α) :
    a ∈ l.drop m ↔ a ∈ l ∧ a ∉ l.take m := by
  have hsplit : (l.take m ++ l.drop m).Nodup := by rwa [List.take_append_drop]
  constructor
  · intro ha
    exact ⟨List.mem_of_mem_drop ha, fun ht => List.disjoint_of_nodup_append hsplit ht ha⟩
  · rintro ⟨ha, hnt⟩
    rw [← List.take_append_drop m l, List.mem_append] at ha
    exact ha.resolve_left hnt

/-- Two lists without repeats, one holding the other's members and one more, differ by one in
length. -/
lemma length_of_mem_iff_insert {l l' : List Int} (hl : l.Nodup) (hl' : l'.Nodup) {a : Int}
    (ha : a ∉ l) (h : ∀ x, x ∈ l' ↔ x ∈ l ∨ x = a) : l'.length = l.length + 1 := by
  have hperm : l'.Perm (a :: l) :=
    (List.perm_ext_iff_of_nodup hl' (List.nodup_cons.mpr ⟨ha, hl⟩)).mpr fun x => by
      rw [h x, List.mem_cons, or_comm]
  simpa using hperm.length_eq

/-- Two lists without repeats, one holding the other's members but one, differ by one in
length. -/
lemma length_of_mem_iff_erase {l l' : List Int} (hl : l.Nodup) (hl' : l'.Nodup) {a : Int}
    (ha : a ∈ l) (h : ∀ x, x ∈ l' ↔ x ∈ l ∧ x ≠ a) : l'.length = l.length - 1 := by
  have hperm : l'.Perm (l.erase a) :=
    (List.perm_ext_iff_of_nodup hl' (hl.erase a)).mpr fun x => by
      rw [h x, hl.mem_erase_iff, and_comm]
  rw [hperm.length_eq, List.length_erase_of_mem ha]

lemma heightsOf_nodup (db : DB σ) (pfx : String) : (heightsOf db pfx).Nodup :=
  (heightsOf_pairwise db pfx).imp ne_of_lt

section Calls

variable {SH VS : Type} (codec : Codec SH VS)

/-- A save succeeds exactly for a positive height and a validator set with a protobuf form, and
then writes both values and the count plus one. -/
lemma Save_eq_ok {s : dbs} {db : DB σ} {sh : SH} {valSet : VS} {r : dbs × DB σ} :
    SaveSignedHeaderAndValidatorSet codec s db sh valSet = .ok r ↔
      0 < codec.height sh ∧ ∃ valSetBz, codec.marshalValidatorSet valSet = .ok valSetBz ∧
        r = ({ s with size := s.size + 1 },
          ((db.Set (s.shKey (codec.height sh)) (codec.marshalSignedHeader sh)).Set
            (s.vsKey (codec.height sh)) valSetBz).Set sizeKey (marshalSize (s.size + 1))) := by
  rw [SaveSignedHeaderAndValidatorSet, ite_throw_eq_ok, not_le]
  apply and_congr_right
  intro _
  cases hvs : codec.marshalValidatorSet valSet with
  | error e => simp [Except.mapError]
  | ok valSetBz =>
    simp only [Except.mapError, ok_bind, Except.ok.injEq, exists_eq_left']
    exact ⟨fun h => (Except.ok.inj h).symm, fun h => h ▸ rfl⟩

/-- What a save does to the headers of every prefix: the store's own gains the height. -/
lemma Save_ok {s s' : dbs} {db db' : DB σ} {sh : SH} {valSet : VS}
    (h : SaveSignedHeaderAndValidatorSet codec s db sh valSet = .ok (s', db')) :
    s' = { s with size := s.size + 1 } ∧ db'.Get sizeKey = some (marshalSize (s.size + 1)) ∧
      ∀ p height, height ∈ heightsOf db' p ↔
        height ∈ heightsOf db p ∨ (p = s.pfx ∧ height = codec.height sh) := by
  obtain ⟨hpos, valSetBz, -, hr⟩ := (Save_eq_ok codec).mp h
  simp only [Prod.mk.injEq] at hr
  obtain ⟨rfl, rfl⟩ := hr
  refine ⟨rfl, by simp, fun p height => ?_⟩
  simp only [mem_heightsOf_Set, sizeKey, dbs.vsKey, dbs.shKey, reduceCtorEq, false_and, or_false,
    Key.sh.injEq]
  constructor
  · rintro (h | ⟨⟨rfl, rfl⟩, -⟩)
    · exact .inl h
    · exact .inr ⟨rfl, rfl⟩
  · rintro (h | ⟨rfl, rfl⟩)
    · exact .inl h
    · exact .inr ⟨⟨rfl, rfl⟩, hpos⟩

/-- A delete succeeds exactly for a positive height, and then deletes both values and writes
the count less one. -/
lemma Delete_eq_ok {s : dbs} {db : DB σ} {height : Int} {r : dbs × DB σ} :
    DeleteSignedHeaderAndValidatorSet s db height = .ok r ↔
      0 < height ∧ r = ({ s with size := s.size - 1 },
        ((db.Delete (s.shKey height)).Delete (s.vsKey height)).Set sizeKey
          (marshalSize (s.size - 1))) := by
  rw [DeleteSignedHeaderAndValidatorSet, ite_throw_eq_ok, not_le]
  exact and_congr_right fun _ => ⟨fun h => (Except.ok.inj h).symm, fun h => h ▸ rfl⟩

/-- What a delete does to the headers of every prefix: the store's own loses the height. -/
lemma Delete_ok {s s' : dbs} {db db' : DB σ} {height : Int}
    (h : DeleteSignedHeaderAndValidatorSet s db height = .ok (s', db')) :
    s' = { s with size := s.size - 1 } ∧ db'.Get sizeKey = some (marshalSize (s.size - 1)) ∧
      ∀ p height', height' ∈ heightsOf db' p ↔
        height' ∈ heightsOf db p ∧ ¬ (p = s.pfx ∧ height' = height) := by
  obtain ⟨-, hr⟩ := Delete_eq_ok.mp h
  simp only [Prod.mk.injEq] at hr
  obtain ⟨rfl, rfl⟩ := hr
  refine ⟨rfl, by simp, fun p height' => ?_⟩
  simp only [mem_heightsOf_Set, mem_heightsOf_Delete, sizeKey, dbs.vsKey, dbs.shKey, reduceCtorEq,
    false_and, or_false, ne_eq, not_false_eq_true, and_true, Key.sh.injEq]
  constructor
  · rintro ⟨h, hne⟩
    exact ⟨h, fun ⟨hp, hh⟩ => hne ⟨hp.symm, hh.symm⟩⟩
  · rintro ⟨h, hne⟩
    exact ⟨h, fun ⟨hp, hh⟩ => hne ⟨hp.symm, hh.symm⟩⟩

/-- A header is read only where the store holds one. -/
lemma SignedHeader_ok {s : dbs} {db : DB σ} {height : Int} {sh : SH}
    (h : SignedHeader codec s db height = .ok sh) : height ∈ heightsOf db s.pfx :=
  mem_heightsOf.mpr (loadAt_ok h)

end Calls

/-! ## Reading the heights back -/

/-- `LastSignedHeaderHeight`: the first header of the reverse scan, or `-1`. -/
def LastSignedHeaderHeight (s : dbs) (db : DB σ) : Int :=
  ((heightsOf db s.pfx).reverse.head?).getD (-1)

/-- `FirstSignedHeaderHeight`: the first header of the scan, or `-1`. -/
def FirstSignedHeaderHeight (s : dbs) (db : DB σ) : Int :=
  ((heightsOf db s.pfx).head?).getD (-1)

/-- The head of a list whose entries each stand in `r` to the later ones stands in `q` to all
of it, where `q` is reflexive and holds wherever `r` does. -/
lemma head_of_pairwise {r q : Int → Int → Prop} (hq : ∀ a, q a a) (hr : ∀ a b, r a b → q a b)
    {a : Int} {t : List Int} (hl : (a :: t).Pairwise r) {b : Int} (hb : b ∈ a :: t) : q a b := by
  rcases List.mem_cons.mp hb with rfl | hb
  · exact hq b
  · exact hr a b (List.rel_of_pairwise_cons hl hb)

/-- The last height is the greatest the store holds, or `-1` when it holds none. -/
lemma LastSignedHeaderHeight_spec (s : dbs) (db : DB σ) :
    (heightsOf db s.pfx = [] ∧ LastSignedHeaderHeight s db = -1) ∨
      (LastSignedHeaderHeight s db ∈ heightsOf db s.pfx ∧
        ∀ height ∈ heightsOf db s.pfx, height ≤ LastSignedHeaderHeight s db) := by
  have hdesc : (heightsOf db s.pfx).reverse.Pairwise (· > ·) :=
    List.pairwise_reverse.mpr (heightsOf_pairwise db s.pfx)
  unfold LastSignedHeaderHeight
  cases hrev : (heightsOf db s.pfx).reverse with
  | nil => exact .inl ⟨List.reverse_eq_nil_iff.mp hrev, rfl⟩
  | cons a t =>
    rw [hrev] at hdesc
    refine .inr ⟨?_, fun height hmem => ?_⟩
    · rw [← List.mem_reverse, hrev]
      exact List.mem_cons_self
    · rw [← List.mem_reverse, hrev] at hmem
      exact head_of_pairwise (q := (· ≥ ·)) le_refl (fun a b h => h.le) hdesc hmem

/-- The first height is the least the store holds, or `-1` when it holds none. -/
lemma FirstSignedHeaderHeight_spec (s : dbs) (db : DB σ) :
    (heightsOf db s.pfx = [] ∧ FirstSignedHeaderHeight s db = -1) ∨
      (FirstSignedHeaderHeight s db ∈ heightsOf db s.pfx ∧
        ∀ height ∈ heightsOf db s.pfx, FirstSignedHeaderHeight s db ≤ height) := by
  have hasc := heightsOf_pairwise db s.pfx
  unfold FirstSignedHeaderHeight
  cases hl : heightsOf db s.pfx with
  | nil => exact .inl ⟨rfl, rfl⟩
  | cons a t =>
    rw [hl] at hasc
    exact .inr ⟨List.mem_cons_self, fun height hmem =>
      head_of_pairwise (q := (· ≤ ·)) le_refl (fun a b h => h.le) hasc hmem⟩

section Before

variable {SH VS : Type} (codec : Codec SH VS)

/-- `SignedHeaderBefore`: the header at the first height of the reverse scan below `height`. -/
def SignedHeaderBefore (s : dbs) (db : DB σ) (height : Int) : Go SH :=
  if height ≤ 0 then throw (.panic "negative or zero height")
  else match (((heightsOf db s.pfx).filter (· < height)).reverse.head?) with
    | some existingHeight => SignedHeader codec s db existingHeight
    | none => throw (.err ErrSignedHeaderNotFound)

/-- The header before `height` is read at the greatest height the store holds below it; there is
none when the store holds no height below it. -/
lemma SignedHeaderBefore_spec (s : dbs) (db : DB σ) {height : Int} (hpos : 0 < height) :
    ((∀ h ∈ heightsOf db s.pfx, height ≤ h) ∧
        SignedHeaderBefore codec s db height = throw (.err ErrSignedHeaderNotFound)) ∨
      ∃ below ∈ heightsOf db s.pfx, below < height ∧
        (∀ h ∈ heightsOf db s.pfx, h < height → h ≤ below) ∧
        SignedHeaderBefore codec s db height = SignedHeader codec s db below := by
  have hdesc : ((heightsOf db s.pfx).filter (· < height)).reverse.Pairwise (· > ·) :=
    List.pairwise_reverse.mpr ((heightsOf_pairwise db s.pfx).filter _)
  unfold SignedHeaderBefore
  rw [if_neg (not_le.mpr hpos)]
  cases hrev : ((heightsOf db s.pfx).filter (· < height)).reverse with
  | nil =>
    refine .inl ⟨fun h hmem => not_lt.mp fun hlt => ?_, rfl⟩
    have : h ∈ ((heightsOf db s.pfx).filter (· < height)).reverse := by
      simpa using ⟨hmem, hlt⟩
    rw [hrev] at this
    cases this
  | cons below t =>
    rw [hrev] at hdesc
    have hbelow : below ∈ (heightsOf db s.pfx).filter (· < height) := by
      rw [← List.mem_reverse, hrev]
      exact List.mem_cons_self
    simp only [List.mem_filter, decide_eq_true_eq] at hbelow
    refine .inr ⟨below, hbelow.1, hbelow.2, fun h hmem hlt => ?_, rfl⟩
    have hh : h ∈ below :: t := by
      rw [← hrev]
      simpa using ⟨hmem, hlt⟩
    exact head_of_pairwise (q := (· ≥ ·)) le_refl (fun a b h => h.le) hdesc hh

end Before

/-! ## Pruning -/

/-- The loop of `Prune` over the headers in ascending order: while `numToPrune` is positive it
deletes the pair at the next height and counts it in `pruned`. -/
def pruneLoop (s : dbs) : List Int → UInt16 → DB σ → Nat → DB σ × Nat
  | [], _, b, pruned => (b, pruned)
  | height :: rest, numToPrune, b, pruned =>
    if 0 < numToPrune then
      pruneLoop s rest (numToPrune - 1) ((b.Delete (s.shKey height)).Delete (s.vsKey height))
        (pruned + 1)
    else (b, pruned)

/-- `Prune`: with more pairs counted than `size`, the loop deletes the excess from the lowest
height up, and the count less what it deleted is written back. -/
def Prune (s : dbs) (db : DB σ) (size : UInt16) : dbs × DB σ :=
  if s.size ≤ size then (s, db)
  else
    let r := pruneLoop s (heightsOf db s.pfx) (s.size - size) db 0
    let s' : dbs := { s with size := s.size - r.2.toUInt16 }
    (s', r.1.Set sizeKey (marshalSize s'.size))

lemma toNat_sub_one {k : UInt16} (hk : 0 < k) : (k - 1).toNat = k.toNat - 1 := by
  have hpos : 0 < k.toNat := UInt16.lt_iff_toNat_lt.mp hk
  rw [UInt16.toNat_sub_of_le _ _ (UInt16.le_iff_toNat_le.mpr (by simp; omega))]
  rfl

/-- The loop deletes as many pairs as it may and the list holds. -/
lemma pruneLoop_snd (s : dbs) : ∀ (l : List Int) (k : UInt16) (b : DB σ) (n : Nat),
    (pruneLoop s l k b n).2 = n + min k.toNat l.length
  | [], k, b, n => by simp [pruneLoop]
  | height :: rest, k, b, n => by
    rw [pruneLoop]
    split_ifs with hk
    · rw [pruneLoop_snd s rest (k - 1), toNat_sub_one hk, List.length_cons]
      have : 0 < k.toNat := UInt16.lt_iff_toNat_lt.mp hk
      omega
    · have : k.toNat = 0 := by
        simpa [UInt16.lt_iff_toNat_lt] using hk
      simp [this]

/-- The loop deletes the headers at the first `k` heights of its list. -/
lemma pruneLoop_Get_sh (s : dbs) (p : String) (height : Int) : ∀ (l : List Int) (k : UInt16)
    (b : DB σ) (n : Nat), (pruneLoop s l k b n).1.Get (.sh p height) =
      if p = s.pfx ∧ height ∈ l.take k.toNat then none else b.Get (.sh p height)
  | [], k, b, n => by simp [pruneLoop]
  | h :: rest, k, b, n => by
    rw [pruneLoop]
    by_cases hk : 0 < k
    · rw [if_pos hk]
      have hpos : 0 < k.toNat := UInt16.lt_iff_toNat_lt.mp hk
      obtain ⟨j, hj⟩ : ∃ j, k.toNat = j + 1 := ⟨k.toNat - 1, by omega⟩
      rw [pruneLoop_Get_sh s p height rest (k - 1), toNat_sub_one hk, hj, List.take_succ_cons,
        Nat.add_sub_cancel]
      simp only [KVStore.DB.Get_Delete, dbs.shKey, dbs.vsKey, List.mem_cons, reduceCtorEq,
        if_false,
        Key.sh.injEq]
      -- deleted now, deleted later in the loop, or left as it was
      split_ifs <;> tauto
    · rw [if_neg hk]
      have hzero : k.toNat = 0 := by
        simpa [UInt16.lt_iff_toNat_lt] using hk
      simp [hzero]

/-- Below its count, `Prune` deletes the store's headers at the lowest `count - size` heights. -/
lemma heightsOf_Prune (s : dbs) (db : DB σ) {size : UInt16} (h : size < s.size) :
    heightsOf (Prune s db size).2 s.pfx = (heightsOf db s.pfx).drop (s.size - size).toNat := by
  simp only [Prune, if_neg (UInt16.not_le.mpr h)]
  refine heightsOf_eq ((heightsOf_pairwise db s.pfx).drop) fun height => ?_
  rw [mem_drop_iff_of_nodup (heightsOf_nodup db s.pfx), mem_heightsOf, mem_heightsOf,
    KVStore.DB.Get_Set, if_neg (by simp [sizeKey]), pruneLoop_Get_sh]
  by_cases hin : height ∈ (heightsOf db s.pfx).take (s.size - size).toNat
  · simp [hin]
  · simp [hin]

/-- `Prune` leaves the headers of every other prefix alone. -/
lemma heightsOf_Prune_other (s : dbs) (db : DB σ) (size : UInt16) {p : String} (hp : p ≠ s.pfx) :
    heightsOf (Prune s db size).2 p = heightsOf db p := by
  unfold Prune
  split_ifs
  · rfl
  · refine heightsOf_congr fun height => ?_
    rw [KVStore.DB.Get_Set, if_neg (by simp [sizeKey]), pruneLoop_Get_sh, if_neg fun h => hp h.1]

/-- Below its count, `Prune` takes off the count the pairs it deleted, at most the excess, and
writes the new count to `sizeKey`. -/
lemma Prune_size (s : dbs) (db : DB σ) {size : UInt16} (h : size < s.size) :
    (Prune s db size).1 =
        { s with size := s.size - (min (s.size - size).toNat (heightsOf db s.pfx).length).toUInt16 } ∧
      (Prune s db size).2.Get sizeKey = some (marshalSize (Prune s db size).1.size) := by
  simp only [Prune, if_neg (UInt16.not_le.mpr h)]
  refine ⟨?_, by simp⟩
  rw [pruneLoop_snd, Nat.zero_add]

/-! ## Runs of one store -/

/-- A call on a store. -/
inductive Call (SH VS : Type) where
  | save (sh : SH) (valSet : VS)
  | delete (height : Int)
  | prune (size : UInt16)
  | reopen

/-- The count is the number of the store's headers, and reopening the store reads it back. -/
structure SizeAgrees (st : dbs × DB σ) : Prop where
  count : st.1.size.toNat = (heightsOf st.2 st.1.pfx).length
  persisted : New st.2 st.1.pfx = .ok st.1

section Runs

variable {SH VS : Type} (codec : Codec SH VS)

/-- One call, on the store and the database under it. -/
def step (st : dbs × DB σ) : Call SH VS → Go (dbs × DB σ)
  | .save sh valSet => SaveSignedHeaderAndValidatorSet codec st.1 st.2 sh valSet
  | .delete height => DeleteSignedHeaderAndValidatorSet st.1 st.2 height
  | .prune size => pure (Prune st.1 st.2 size)
  | .reopen => (fun s => (s, st.2)) <$> New st.2 st.1.pfx

/-- The calls one after another, up to the first that fails. -/
def run : dbs × DB σ → List (Call SH VS) → Go (dbs × DB σ)
  | st, [] => pure st
  | st, c :: cs => step codec st c >>= fun st' => run st' cs

/-- A reopen reads the store back from the database and leaves the database alone. -/
lemma step_reopen_eq {s s' : dbs} {db db' : DB σ}
    (h : step codec (s, db) (.reopen : Call SH VS) = .ok (s', db')) :
    New db s.pfx = .ok s' ∧ db' = db := by
  cases hnew : New db s.pfx with
  | error e => simp [step, hnew] at h
  | ok s'' =>
    simp only [step, hnew, Functor.map, Except.map, Except.ok.injEq, Prod.mk.injEq] at h
    exact ⟨by rw [h.1], h.2.symm⟩

/-- A call through one store leaves the headers of every other prefix of the database alone. -/
lemma heightsOf_step_other {st st' : dbs × DB σ} {c : Call SH VS} (h : step codec st c = .ok st')
    {p : String} (hp : p ≠ st.1.pfx) : heightsOf st'.2 p = heightsOf st.2 p := by
  obtain ⟨s, db⟩ := st
  obtain ⟨s', db'⟩ := st'
  cases c with
  | save sh valSet =>
    obtain ⟨-, -, hmem⟩ := Save_ok codec h
    exact heightsOf_eq (heightsOf_pairwise db p) fun height => by simp [hmem, hp]
  | delete height =>
    obtain ⟨-, -, hmem⟩ := Delete_ok h
    exact heightsOf_eq (heightsOf_pairwise db p) fun height => by simp [hmem, hp]
  | prune size =>
    have h' : Prune s db size = (s', db') := Except.ok.inj h
    rw [← h']
    exact heightsOf_Prune_other s db size hp
  | reopen =>
    obtain ⟨-, rfl⟩ := step_reopen_eq codec h
    rfl

/-- `New` opens the store under the prefix it is given. -/
lemma New_pfx {db : DB σ} {pfx : String} {s : dbs} (h : New db pfx = .ok s) : s.pfx = pfx := by
  unfold New at h
  dsimp only at h
  split_ifs at h
  · cases hu : unmarshalSize ((db.Get sizeKey).getD []) with
    | error e => simp [hu, Functor.map, Except.map] at h
    | ok size =>
      simp only [hu, Functor.map, Except.map, Except.ok.injEq] at h
      rw [← h]
  · cases h
    rfl

/-- A call keeps the store's prefix. -/
lemma step_pfx {st st' : dbs × DB σ} {c : Call SH VS} (h : step codec st c = .ok st') :
    st'.1.pfx = st.1.pfx := by
  obtain ⟨s, db⟩ := st
  obtain ⟨s', db'⟩ := st'
  cases c with
  | save sh valSet =>
    obtain ⟨rfl, -, -⟩ := Save_ok codec h
    rfl
  | delete height =>
    obtain ⟨rfl, -, -⟩ := Delete_ok h
    rfl
  | prune size =>
    have h' : Prune s db size = (s', db') := Except.ok.inj h
    rw [← h']
    unfold Prune
    split_ifs <;> rfl
  | reopen => exact New_pfx (step_reopen_eq codec h).1

/-- The run keeps to what the count assumes: it saves only heights the store does not hold,
while the count has room, and deletes only heights it holds. -/
def Proper (st : dbs × DB σ) : Call SH VS → Prop
  | .save sh _ => codec.height sh ∉ heightsOf st.2 st.1.pfx ∧
      (heightsOf st.2 st.1.pfx).length + 1 < 2 ^ 16
  | .delete height => height ∈ heightsOf st.2 st.1.pfx
  | .prune _ => True
  | .reopen => True

/-- Every call of the run is proper in the state it meets. -/
def ProperRun : dbs × DB σ → List (Call SH VS) → Prop
  | _, [] => True
  | st, c :: cs => Proper codec st c ∧ ∀ st', step codec st c = .ok st' → ProperRun st' cs

instance properDecidable (st : dbs × DB σ) : (c : Call SH VS) → Decidable (Proper codec st c)
  | .save _ _ => inferInstanceAs (Decidable (_ ∉ _ ∧ _ < _))
  | .delete _ => inferInstanceAs (Decidable (_ ∈ _))
  | .prune _ => isTrue trivial
  | .reopen => isTrue trivial

/-- Whether a run is proper is decided along the run: each call in the state the run reaches. -/
instance properRunDecidable : (st : dbs × DB σ) → (calls : List (Call SH VS)) →
    Decidable (ProperRun codec st calls)
  | _, [] => isTrue trivial
  | st, c :: cs =>
    match h : step codec st c with
    | .ok st' =>
      have := properRunDecidable st' cs
      decidable_of_iff (Proper codec st c ∧ ProperRun codec st' cs) (by simp [ProperRun, h])
    | .error _ => decidable_of_iff (Proper codec st c) (by simp [ProperRun, h])

lemma Save_sizeAgrees {st st' : dbs × DB σ} {sh : SH} {valSet : VS} (hinv : SizeAgrees st)
    (hfresh : codec.height sh ∉ heightsOf st.2 st.1.pfx)
    (hroom : (heightsOf st.2 st.1.pfx).length + 1 < 2 ^ 16)
    (h : SaveSignedHeaderAndValidatorSet codec st.1 st.2 sh valSet = .ok st') : SizeAgrees st' := by
  obtain ⟨s, db⟩ := st
  obtain ⟨s', db'⟩ := st'
  obtain ⟨rfl, hsize, hmem⟩ := Save_ok codec h
  have hlen : (heightsOf db' s.pfx).length = (heightsOf db s.pfx).length + 1 :=
    length_of_mem_iff_insert (heightsOf_nodup db s.pfx) (heightsOf_nodup db' s.pfx) hfresh
      fun x => by simp [hmem]
  have hcount := hinv.count
  refine ⟨?_, New_of_Get_sizeKey hsize s.pfx⟩
  show (s.size + 1).toNat = (heightsOf db' s.pfx).length
  rw [UInt16.toNat_add, hlen]
  simp only at hcount hroom
  rw [hcount]
  exact Nat.mod_eq_of_lt hroom

lemma Delete_sizeAgrees {st st' : dbs × DB σ} {height : Int} (hinv : SizeAgrees st)
    (hstored : height ∈ heightsOf st.2 st.1.pfx)
    (h : DeleteSignedHeaderAndValidatorSet st.1 st.2 height = .ok st') : SizeAgrees st' := by
  obtain ⟨s, db⟩ := st
  obtain ⟨s', db'⟩ := st'
  obtain ⟨rfl, hsize, hmem⟩ := Delete_ok h
  have hlen : (heightsOf db' s.pfx).length = (heightsOf db s.pfx).length - 1 :=
    length_of_mem_iff_erase (heightsOf_nodup db s.pfx) (heightsOf_nodup db' s.pfx) hstored
      fun x => by simp [hmem]
  have hcount : s.size.toNat = (heightsOf db s.pfx).length := hinv.count
  have hpos : 0 < s.size := UInt16.lt_iff_toNat_lt.mpr (by
    have := List.length_pos_of_mem (show height ∈ heightsOf db s.pfx from hstored)
    simp only [UInt16.toNat_zero]
    omega)
  refine ⟨?_, New_of_Get_sizeKey hsize s.pfx⟩
  show (s.size - 1).toNat = (heightsOf db' s.pfx).length
  rw [toNat_sub_one hpos, hlen, hcount]

lemma Prune_sizeAgrees {s : dbs} {db : DB σ} (size : UInt16) (hinv : SizeAgrees (s, db)) :
    SizeAgrees (Prune s db size) := by
  by_cases h : size < s.size
  · obtain ⟨hs, hsize⟩ := Prune_size s db h
    have hcount : s.size.toNat = (heightsOf db s.pfx).length := hinv.count
    have hlt : size.toNat < s.size.toNat := UInt16.lt_iff_toNat_lt.mp h
    have hexcess : (s.size - size).toNat = s.size.toNat - size.toNat :=
      UInt16.toNat_sub_of_le _ _ (UInt16.le_of_lt h)
    -- the count is the number of headers, so the loop deletes all of the excess
    have hmin : min (s.size - size).toNat (heightsOf db s.pfx).length = (s.size - size).toNat := by
      omega
    have hnew : (Prune s db size).1 = { s with size := size } := by
      rw [hs, hmin, show (s.size - size).toNat.toUInt16 = s.size - size from UInt16.ofNat_toNat,
        sub_sub_self]
    have hpfx : (Prune s db size).1.pfx = s.pfx := by rw [hnew]
    refine ⟨?_, ?_⟩
    · rw [hpfx, heightsOf_Prune s db h, List.length_drop, hnew]
      show size.toNat = _
      omega
    · rw [hpfx, New_of_Get_sizeKey hsize s.pfx, hnew]
  · simp only [Prune, if_pos (UInt16.not_lt.mp h)]
    exact hinv

/-- A proper call keeps the count equal to the number of headers. -/
lemma step_sizeAgrees {st st' : dbs × DB σ} {c : Call SH VS} (hinv : SizeAgrees st)
    (hc : Proper codec st c) (h : step codec st c = .ok st') : SizeAgrees st' := by
  cases c with
  | save sh valSet => exact Save_sizeAgrees codec hinv hc.1 hc.2 h
  | delete height => exact Delete_sizeAgrees hinv hc h
  | prune size =>
    cases h
    exact Prune_sizeAgrees size hinv
  | reopen =>
    simp only [step, hinv.persisted, Functor.map, Except.map, Except.ok.injEq] at h
    rw [← h]
    exact hinv

/-- Where the count is right, `Prune size` keeps exactly the `size` highest headers, or all of
them when there are fewer. -/
lemma Prune_keeps_highest {s : dbs} {db : DB σ} (size : UInt16) (hinv : SizeAgrees (s, db)) :
    heightsOf (Prune s db size).2 s.pfx =
      (heightsOf db s.pfx).drop ((heightsOf db s.pfx).length - size.toNat) := by
  have hcount : s.size.toNat = (heightsOf db s.pfx).length := hinv.count
  by_cases h : size < s.size
  · rw [heightsOf_Prune s db h, UInt16.toNat_sub_of_le _ _ (UInt16.le_of_lt h), hcount]
  · have hle : s.size.toNat ≤ size.toNat := UInt16.le_iff_toNat_le.mp (UInt16.not_lt.mp h)
    simp only [Prune, if_pos (UInt16.not_lt.mp h)]
    rw [show (heightsOf db s.pfx).length - size.toNat = 0 by omega, List.drop_zero]

/-- Over a run that keeps to the contract, the count is the number of headers in every state,
and reopening the store reads it back. -/
lemma run_sizeAgrees : ∀ (calls : List (Call SH VS)) {st st' : dbs × DB σ}, SizeAgrees st →
    ProperRun codec st calls → run codec st calls = .ok st' → SizeAgrees st'
  | [], _, _, hinv, _, h => by
    cases h
    exact hinv
  | c :: cs, st, st', hinv, ⟨hc, hrest⟩, h => by
    obtain ⟨st₁, h₁, h'⟩ := bind_eq_ok h
    exact run_sizeAgrees cs (step_sizeAgrees codec hinv hc h₁) (hrest st₁ h₁) h'

end Runs

/-- A codec to run the store on: a header is its height, written as its low byte, and every
validator set has the one-byte form `[1]`. -/
def heightCodec : Codec Int Unit where
  height := id
  marshalSignedHeader height := [height.toNat.toUInt8]
  marshalValidatorSet _ := .ok [1]
  unmarshalSignedHeader bz := .ok ((bz.headD 0).toNat : Int)
  unmarshalValidatorSet _ := .ok ()

/-- Three saves, a reopen, a delete and a prune to one header: the highest is what is left. -/
def heightCalls : List (Call Int Unit) :=
  [.save 3 (), .save 5 (), .reopen, .save 4 (), .delete 5, .prune 1]

/-- A database that another store, under the prefix `other`, already holds a header in. -/
def sharedDB : DB (AList fun _ : Key => Bytes) := memDB.Set (.sh "other" 2) [2]

/-- A store of the headers at heights `3` and `5`. -/
def threeFiveDB : DB (AList fun _ : Key => Bytes) :=
  ((memDB.Set (.sh "light" 3) [3]).Set (.vs "light" 3) [1]).Set (.sh "light" 5) [5]

section Twice

variable {SH VS : Type} (codec : Codec SH VS)

/-- The count is not the number of headers.  A store opened on an empty database that saves the
same header twice counts two pairs, yet holds one header, the only one it can read. -/
theorem Save_twice_size (db₀ : DB σ) (hempty : ∀ key, db₀.Get key = none) (pfx : String) (sh : SH)
    (valSet : VS) (valSetBz : Bytes) (hh : 0 < codec.height sh)
    (hvs : codec.marshalValidatorSet valSet = .ok valSetBz) :
    ∃ s db, (New db₀ pfx >>= fun s => run codec (s, db₀) [.save sh valSet, .save sh valSet]) =
        .ok (s, db) ∧
      Size s = 2 ∧ heightsOf db pfx = [codec.height sh] ∧
      ∀ height v, SignedHeader codec s db height = .ok v → height = codec.height sh := by
  have hsave : ∀ (s : dbs) (db : DB σ),
      ∃ r, SaveSignedHeaderAndValidatorSet codec s db sh valSet = .ok r :=
    fun s db => ⟨_, (Save_eq_ok codec).mpr ⟨hh, valSetBz, hvs, rfl⟩⟩
  obtain ⟨⟨s₁, db₁⟩, h₁⟩ := hsave ⟨pfx, 0⟩ db₀
  obtain ⟨⟨s₂, db₂⟩, h₂⟩ := hsave s₁ db₁
  obtain ⟨rfl, -, hmem₁⟩ := Save_ok codec h₁
  obtain ⟨rfl, -, hmem₂⟩ := Save_ok codec h₂
  -- the second save writes over the first: one height, counted twice
  have hheights : heightsOf db₂ pfx = [codec.height sh] :=
    heightsOf_eq (List.pairwise_singleton _ _) fun height => by
      simp [hmem₂, hmem₁, mem_heightsOf, hempty]
  refine ⟨⟨pfx, 0 + 1 + 1⟩, db₂, ?_, rfl, hheights, fun height v hv => ?_⟩
  · rw [New_empty (hempty _), ok_bind]
    simp only [run, step, h₁, h₂, ok_bind]
    rfl
  · have hmem : height ∈ heightsOf db₂ pfx := SignedHeader_ok codec hv
    rw [hheights] at hmem
    simpa using hmem

theorem Save_twice_size_one :
    (∀ key, memDB.Get key = none) ∧ 0 < heightCodec.height 1 ∧
      heightCodec.marshalValidatorSet () = .ok [1] ∧
      ∃ s db, (New memDB "light" >>= fun s =>
          run heightCodec (s, memDB) [.save 1 (), .save 1 ()]) = .ok (s, db) ∧
        Size s = 2 ∧ heightsOf db "light" = [heightCodec.height 1] ∧
        ∀ height v, SignedHeader heightCodec s db height = .ok v → height = heightCodec.height 1 :=
  have hempty : ∀ key, memDB.Get key = none := KVStore.DB.Get_emptyAList _ _ _
  ⟨hempty, by decide, rfl, Save_twice_size heightCodec memDB hempty "light" 1 () [1] (by decide) rfl⟩

end Twice

end Store

end Light

end Tendermint
