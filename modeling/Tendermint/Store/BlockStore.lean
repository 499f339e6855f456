import Tendermint.Types.PartSet
import Tendermint.Types.Commit

/-!
# The block store (store/store.go)

`BlockStore` keeps the blocks of heights `base .. height` in a key-value database: under each
height its `BlockMeta` ("H:"), its parts ("P:"), the commit of the height before ("C:") and the
commit seen for it ("SC:"), with an index from block hash to height ("BH:").  The window
`(base, height)` is kept in memory and saved under "blockStore", from which `NewBlockStore`
reads it back after a restart.

The blocks' entries are kept in a tm-db database, of which the model uses the contract only
(`KVStore.DB`), under keys `dbKey` holding the decoded values `dbValue`; the window saved under
"blockStore" is kept beside it.  `SaveBlock`
and `PruneBlocks` are modelled by the writes they make, one `storeOp` each, in order: a reader
can look at the store between any two of them, and a crash after any of them leaves the
database as those before it made it.  `exec` runs such a list.

What the model shows (`PruneBlocks_prunes_below`, `PruneBlocks_publishes_pruned_base`):
`PruneBlocks(h)` deletes the block metas of the heights `[base, h)` and ends with `Base() = h`;
but when it prunes a thousand heights or more, the base it publishes at its first flush is the
last height that flush deletes, so between that flush and the next a reader sees `Base()` at a
height with no block, and a node that crashes there restarts with it.
-/

namespace Tendermint.Store

/-- `types.BlockMeta`, the part of it the store reads: the block's `BlockID`. -/
structure BlockMeta where
  BlockID : BlockID
  deriving DecidableEq, Repr

/-- `tmstore.BlockStoreState`. -/
structure BlockStoreState where
  Base : Int
  Height : Int
  deriving DecidableEq, Repr

/-- What `SaveBlock` reads of a `types.Block`: its height, its hash and its last commit. -/
structure Block where
  Height : Int
  Hash : Bytes
  LastCommit : Option Commit

/-- The keys of the blocks: `calcBlockMetaKey` ("H:"), `calcBlockPartKey` ("P:"),
`calcBlockCommitKey` ("C:"), `calcSeenCommitKey` ("SC:") and `calcBlockHashKey` ("BH:"). -/
inductive dbKey where
  | blockMeta (height : Int)
  | part (height : Int) (index : Nat)
  | commit (height : Int)
  | seenCommit (height : Int)
  | hash (hash : Bytes)
  deriving DecidableEq, Repr

/-- The values under those keys, decoded: a commit written from a `nil` one reads back as
`nil`. -/
inductive dbValue where
  | blockMeta (blockMeta : BlockMeta)
  | part (part : Part)
  | commit (commit : Option Commit)
  | height (height : Int)

/-- Where a key stands in the order of the keys: by prefix, "BH:" < "C:" < "H:" < "P:" < "SC:",
then by its fields.  Nothing in store.go iterates, so no result depends on the order within a
prefix. -/
def dbKey.rank : dbKey → Lex (Nat × Lex (Int × Lex (Nat × List Nat)))
  | .hash b => toLex (0, toLex (0, toLex (0, b.map UInt8.toNat)))
  | .commit height => toLex (1, toLex (height, toLex (0, [])))
  | .blockMeta height => toLex (2, toLex (height, toLex (0, [])))
  | .part height index => toLex (3, toLex (height, toLex (index, [])))
  | .seenCommit height => toLex (4, toLex (height, toLex (0, [])))

/-- The order of the keys, as the database iterates them. -/
def dbKey.Lt (a b : dbKey) : Prop := a.rank < b.rank

instance (a b : dbKey) : Decidable (dbKey.Lt a b) := inferInstanceAs (Decidable (_ < _))

lemma dbKey.rank_injective : Function.Injective dbKey.rank := by
  intro a b h
  cases a <;> cases b <;> simp_all [dbKey.rank, List.map_inj_right fun _ _ => UInt8.toNat_inj.mp]

lemma dbKey.Lt.asymm {a b : dbKey} (h : a.Lt b) : ¬ b.Lt a := lt_asymm h

lemma dbKey.Lt.trans {a b c : dbKey} (h₁ : a.Lt b) (h₂ : b.Lt c) : a.Lt c := lt_trans h₁ h₂

lemma dbKey.Lt.total {a b : dbKey} (h : a ≠ b) : a.Lt b ∨ b.Lt a :=
  lt_or_gt_of_ne (dbKey.rank_injective.ne h)

/-- The database: the entries of the blocks in a tm-db database, of which the model uses the
contract only, and the window saved under "blockStore", a key no block's entry reaches. -/
structure DB (σ : Type) where
  blocks : KVStore.DB σ dbKey dbValue dbKey.Lt
  state : Option BlockStoreState

/-- `BlockStore`, without its mutex. -/
structure BlockStore (σ : Type) where
  db : DB σ
  base : Int
  height : Int

/-- One write of `SaveBlock` or `PruneBlocks`, to the database or to the store's memory. -/
inductive storeOp where
  | setMeta (height : Int) (blockMeta : BlockMeta)
  | setHash (hash : Bytes) (height : Int)
  | setPart (height : Int) (index : Nat) (part : Part)
  | setCommit (height : Int) (commit : Option Commit)
  | setSeenCommit (height : Int) (commit : Option Commit)
  /-- one key of a batch being written -/
  | delete (key : dbKey)
  /-- `bs.base = base` under the lock -/
  | setBase (base : Int)
  /-- `bs.height = height; if bs.base == 0 { bs.base = height }` under the lock -/
  | setHeight (height : Int)
  /-- `saveState`: the window in memory, written with `SetSync` -/
  | saveState

variable {σ : Type}

/-- A write of one block entry. -/
def DB.set (db : DB σ) (key : dbKey) (value : dbValue) : DB σ :=
  { db with blocks := db.blocks.Set key value }

/-- A delete of one block entry. -/
def DB.delete (db : DB σ) (key : dbKey) : DB σ :=
  { db with blocks := db.blocks.Delete key }

namespace BlockStore

/-- One write. -/
def apply (bs : BlockStore σ) : storeOp → BlockStore σ
  | .setMeta h m => { bs with db := bs.db.set (.blockMeta h) (.blockMeta m) }
  | .setHash hash h => { bs with db := bs.db.set (.hash hash) (.height h) }
  | .setPart h i p => { bs with db := bs.db.set (.part h i) (.part p) }
  | .setCommit h c => { bs with db := bs.db.set (.commit h) (.commit c) }
  | .setSeenCommit h c => { bs with db := bs.db.set (.seenCommit h) (.commit c) }
  | .delete k => { bs with db := bs.db.delete k }
  | .setBase base => { bs with base }
  | .setHeight height => { bs with height, base := if bs.base = 0 then height else bs.base }
  | .saveState => { bs with db := { bs.db with state := some ⟨bs.base, bs.height⟩ } }

/-- The writes, one after another. -/
def exec (bs : BlockStore σ) (ops : List storeOp) : BlockStore σ := ops.foldl apply bs

/-- `LoadBlockStoreState`: the zero state when nothing was saved; a saved state with a height and
no base, from before bases existed, has base 1. -/
def LoadBlockStoreState (db : DB σ) : BlockStoreState :=
  match db.state with
  | none => ⟨0, 0⟩
  | some bsj => if bsj.Height > 0 ∧ bsj.Base = 0 then { bsj with Base := 1 } else bsj

def NewBlockStore (db : DB σ) : BlockStore σ :=
  let bs := LoadBlockStoreState db
  { db, base := bs.Base, height := bs.Height }

def Base (bs : BlockStore σ) : Int := bs.base

def Height (bs : BlockStore σ) : Int := bs.height

def Size (bs : BlockStore σ) : Int := if bs.height = 0 then 0 else bs.height - bs.base + 1

def LoadBlockMeta (bs : BlockStore σ) (height : Int) : Option BlockMeta :=
  match bs.db.blocks.Get (.blockMeta height) with
  | some (.blockMeta blockMeta) => some blockMeta
  | _ => none

def LoadBlockPart (bs : BlockStore σ) (height : Int) (index : Nat) : Option Part :=
  match bs.db.blocks.Get (.part height index) with
  | some (.part part) => some part
  | _ => none

/-- A missing entry and one written from a `nil` commit both read as `nil`. -/
def LoadBlockCommit (bs : BlockStore σ) (height : Int) : Option Commit :=
  match bs.db.blocks.Get (.commit height) with
  | some (.commit commit) => commit
  | _ => none

def LoadSeenCommit (bs : BlockStore σ) (height : Int) : Option Commit :=
  match bs.db.blocks.Get (.seenCommit height) with
  | some (.commit commit) => commit
  | _ => none

/-- The parts' bytes in order; a missing part is dereferenced (`part.Bytes`) and panics. -/
def readBlockParts (bs : BlockStore σ) (height : Int) : List Nat → Go Bytes
  | [] => pure []
  | i :: is =>
    match bs.LoadBlockPart height i with
    | none => throw (.panic nilDereference)
    | some part => do
      let rest ← bs.readBlockParts height is
      pure (part.bytes ++ rest)

/-- `LoadBlock`, up to the bytes that `proto.Unmarshal` and `BlockFromProto` then decode. -/
def LoadBlock (bs : BlockStore σ) (height : Int) : Go (Option Bytes) :=
  match bs.LoadBlockMeta height with
  | none => pure none
  | some blockMeta => do
    let buf ← bs.readBlockParts height (List.range blockMeta.BlockID.partSetHeader.total.toNat)
    pure (some buf)

def LoadBlockByHash (bs : BlockStore σ) (hash : Bytes) : Go (Option Bytes) :=
  match bs.db.blocks.Get (.hash hash) with
  | some (.height height) => bs.LoadBlock height
  | _ => pure none

/-- `SaveBlock`: its writes, in order, after the checks that make it panic. -/
def SaveBlock (bs : BlockStore σ) (block : Block) (blockParts : PartSet)
    (seenCommit : Option Commit) : Go (List storeOp) := do
  let height := block.Height
  let hash := block.Hash
  if bs.Base > 0 ∧ height ≠ bs.Height + 1 then
    throw (.panic ("BlockStore can only save contiguous blocks. Wanted " ++
      toString (bs.Height + 1) ++ ", got " ++ toString height))
  if !blockParts.IsComplete then
    throw (.panic "BlockStore can only save complete block part sets")
  let blockMeta : BlockMeta := ⟨⟨hash, blockParts.Header⟩⟩
  let partOps ← (List.range blockParts.total.toNat).mapM fun (i : Nat) => do
    match ← goIndex blockParts.parts (i : Int) with
    | none => throw (.panic "unable to make part into proto: nil part")
    | some part => pure (storeOp.setPart height i part)
  pure ([.setMeta height blockMeta, .setHash hash height] ++ partOps ++
    [.setCommit (height - 1) block.LastCommit, .setSeenCommit height seenCommit,
     .setHeight height, .saveState])

/-- `PruneBlocks` as it goes: the store, the writes made so far, the batch not yet written, and
the count of pruned heights. -/
structure pruneState (σ : Type) where
  bs : BlockStore σ
  ops : List storeOp
  batch : List dbKey
  pruned : Nat

/-- `flush`: the base is published and saved first, then the batch is written. -/
def flush (st : pruneState σ) (base : Int) : pruneState σ :=
  let ops := [storeOp.setBase base, .saveState] ++ st.batch.map .delete
  { st with bs := st.bs.exec ops, ops := st.ops ++ ops, batch := [] }

/-- One height of the loop of `PruneBlocks`; every thousand pruned heights the batch is flushed,
with this height as the base. -/
def pruneStep (st : pruneState σ) (h : Int) : pruneState σ :=
  match st.bs.LoadBlockMeta h with
  | none => st
  | some blockMeta =>
    let batch := st.batch ++
      [.blockMeta h, .hash blockMeta.BlockID.hash, .commit h, .seenCommit h] ++
      (List.range blockMeta.BlockID.partSetHeader.total.toNat).map (.part h)
    let st := { st with batch, pruned := st.pruned + 1 }
    if st.pruned % 1000 = 0 ∧ st.pruned > 0 then flush st h else st

/-- `PruneBlocks`: the count of pruned heights, and the writes made, in order. -/
def PruneBlocks (bs : BlockStore σ) (height : Int) : Except String (Nat × List storeOp) :=
  if height ≤ 0 then .error "height must be greater than 0"
  else if height > bs.height then
    .error ("cannot prune beyond the latest height " ++ toString bs.height)
  else if height < bs.base then
    .error ("cannot prune to height " ++ toString height ++ ", it is lower than base height " ++
      toString bs.base)
  else
    let hs := (List.range (height - bs.base).toNat).map fun i : Nat => bs.base + i
    let st := hs.foldl pruneStep ⟨bs, [], [], 0⟩
    let st := flush st height
    .ok (st.pruned, st.ops)


/-! ## Running the writes -/

variable {bs : BlockStore σ}

lemma exec_append (bs : BlockStore σ) (l₁ l₂ : List storeOp) :
    bs.exec (l₁ ++ l₂) = (bs.exec l₁).exec l₂ := List.foldl_append

/-- A written batch leaves the window and the saved state, and deletes its keys. -/
lemma exec_deletes (ks : List dbKey) : ∀ bs : BlockStore σ,
    (bs.exec (ks.map .delete)).base = bs.base ∧ (bs.exec (ks.map .delete)).height = bs.height ∧
      (bs.exec (ks.map .delete)).db.state = bs.db.state ∧
      ∀ k, (bs.exec (ks.map .delete)).db.blocks.Get k =
        if k ∈ ks then none else bs.db.blocks.Get k := by
  induction ks with
  | nil => intro bs; simp [exec]
  | cons key ks ih =>
    intro bs
    obtain ⟨hb, hh, hs, hm⟩ := ih (bs.apply (.delete key))
    simp only [List.map_cons, exec, List.foldl_cons] at hb hh hs hm ⊢
    refine ⟨hb, hh, hs, fun k => ?_⟩
    rw [hm k]
    -- the head of the batch deletes `key`, the rest the others
    by_cases hk : k = key <;> simp [apply, DB.delete, hk]

/-! ## `PruneBlocks` -/

/-- What a step of the loop wrote is kept: the writes only grow. -/
lemma pruneStep_ops (st : pruneState σ) (h : Int) : ∃ l, (pruneStep st h).ops = st.ops ++ l := by
  unfold pruneStep
  split
  · exact ⟨[], by simp⟩
  · dsimp only
    split_ifs
    · exact ⟨_, rfl⟩
    · exact ⟨[], by simp⟩

lemma foldl_pruneStep_ops (hs : List Int) : ∀ st : pruneState σ,
    ∃ l, (hs.foldl pruneStep st).ops = st.ops ++ l := by
  induction hs with
  | nil => intro st; exact ⟨[], by simp⟩
  | cons h hs ih =>
    intro st
    obtain ⟨l₁, h₁⟩ := pruneStep_ops st h
    obtain ⟨l₂, h₂⟩ := ih (pruneStep st h)
    exact ⟨l₁ ++ l₂, by rw [List.foldl_cons, h₂, h₁, List.append_assoc]⟩

/-- A stored height before the thousandth only goes to the batch. -/
lemma pruneStep_batch {st : pruneState σ} {h : Int} {m : BlockMeta}
    (hm : st.bs.LoadBlockMeta h = some m) (hp : st.pruned + 1 < 1000) :
    pruneStep st h =
      let batch := st.batch ++ [.blockMeta h, .hash m.BlockID.hash, .commit h, .seenCommit h] ++
        (List.range m.BlockID.partSetHeader.total.toNat).map (.part h)
      { st with batch, pruned := st.pruned + 1 } := by
  have hnot : ¬ ((st.pruned + 1) % 1000 = 0 ∧ st.pruned + 1 > 0) := by
    rw [Nat.mod_eq_of_lt hp]
    omega
  simp only [pruneStep, hm]
  exact if_neg hnot

/-- Below a thousand pruned heights nothing is written: the heights only go to the batch. -/
lemma foldl_pruneStep_unflushed (hs : List Int) : ∀ st : pruneState σ,
    (∀ h ∈ hs, (st.bs.LoadBlockMeta h).isSome) → st.pruned + hs.length < 1000 →
    ∃ batch, hs.foldl pruneStep st = { st with batch, pruned := st.pruned + hs.length } := by
  induction hs with
  | nil =>
    intro st _ _
    exact ⟨st.batch, rfl⟩
  | cons h hs ih =>
    intro st hstored hlt
    obtain ⟨m, hm⟩ := Option.isSome_iff_exists.mp (hstored h List.mem_cons_self)
    have hstep := pruneStep_batch hm (by simp at hlt; omega)
    obtain ⟨batch, hrest⟩ := ih (pruneStep st h)
      (fun h' hh' => by rw [hstep]; exact hstored h' (List.mem_cons_of_mem _ hh'))
      (by rw [hstep]; simp at hlt ⊢; omega)
    refine ⟨batch, ?_⟩
    rw [List.foldl_cons, hrest, hstep, List.length_cons]
    simp only [pruneState.mk.injEq, true_and]
    omega

/-- The heights the loop of `PruneBlocks` visits: `n` of them from `b` on. -/
lemma mem_map_range_add {b k : Int} {n : Nat} :
    k ∈ (List.range n).map (fun i : Nat => b + i) ↔ b ≤ k ∧ k < b + n := by
  rw [List.mem_map]
  constructor
  · rintro ⟨i, hi, rfl⟩
    have := List.mem_range.mp hi
    omega
  · intro hk
    exact ⟨(k - b).toNat, List.mem_range.mpr (by omega), by omega⟩

/-- The heights of the loop, with the thousandth one apart. -/
lemma range_map_split (base : Int) {n : Nat} (hn : 1000 ≤ n) :
    (List.range n).map (fun i : Nat => base + i) =
      (List.range 999).map (fun i : Nat => base + i) ++
        (base + 999) :: (List.range (n - 1000)).map fun i : Nat => base + 1000 + i := by
  obtain ⟨m, rfl⟩ : ∃ m, n = 999 + (1 + m) := ⟨n - 1000, by omega⟩
  rw [List.range_add, @List.range_add 1 m, List.range_one, show 999 + (1 + m) - 1000 = m by omega]
  simp only [List.map_append, List.map_map, List.singleton_append, List.map_cons]
  refine congrArg _ (congrArg₂ _ (by push_cast; ring) (List.map_congr_left fun k _ => ?_))
  simp only [Function.comp_apply]
  push_cast
  ring

/-- The thousandth pruned height flushes the batch, with itself as the base. -/
lemma pruneStep_flush {st : pruneState σ} {h : Int} {m : BlockMeta}
    (hm : st.bs.LoadBlockMeta h = some m) (hp : st.pruned + 1 = 1000) :
    pruneStep st h =
      let batch := st.batch ++ [.blockMeta h, .hash m.BlockID.hash, .commit h, .seenCommit h] ++
        (List.range m.BlockID.partSetHeader.total.toNat).map (.part h)
      flush { st with batch, pruned := 1000 } h := by
  simp only [pruneStep, hm, hp]
  rfl

/-- `PruneBlocks` past its checks: the loop over `[base, height)`, then the last flush. -/
lemma PruneBlocks_ok {height : Int} (h0 : 0 < height) (hle : height ≤ bs.height)
    (hge : bs.base ≤ height) :
    bs.PruneBlocks height =
      .ok ((flush (((List.range (height - bs.base).toNat).map fun i : Nat => bs.base + i).foldl
        pruneStep ⟨bs, [], [], 0⟩) height).pruned,
        (flush (((List.range (height - bs.base).toNat).map fun i : Nat => bs.base + i).foldl
        pruneStep ⟨bs, [], [], 0⟩) height).ops) := by
  unfold PruneBlocks
  rw [if_neg (by omega), if_neg (by omega), if_neg (by omega)]

/-- What a flush writes: the base it publishes, saved with the height, and the batch. -/
lemma exec_flush (bs : BlockStore σ) (b : Int) (batch : List dbKey) :
    let bs' := bs.exec ([.setBase b, .saveState] ++ batch.map .delete)
    bs'.base = b ∧ bs'.height = bs.height ∧ bs'.db.state = some ⟨b, bs.height⟩ ∧
      ∀ k, bs'.db.blocks.Get k = if k ∈ batch then none else bs.db.blocks.Get k := by
  obtain ⟨hb, hh, hs, hm⟩ := exec_deletes batch (bs.exec [.setBase b, .saveState])
  rw [exec_append]
  exact ⟨hb, hh, hs, hm⟩

/-- The first flush of `PruneBlocks` publishes a pruned base.  Pruning at least a thousand heights
of a store that holds them, the first flush comes at the thousandth height, `base + 999`, and
publishes it as the base in the same batch that deletes it.  Once that batch is written, a reader
sees `Base() = base + 999` below `Height()` with no block meta there, and a node that crashes
then restarts from a saved state with that base. -/
theorem PruneBlocks_publishes_pruned_base {bs : BlockStore σ} {height : Int} (hbase : 0 < bs.base)
    (hheight : bs.base + 1000 ≤ height) (hle : height ≤ bs.height)
    (hstored : ∀ k, bs.base ≤ k → k < bs.base + 1000 → (bs.LoadBlockMeta k).isSome) :
    ∃ pruned ops, bs.PruneBlocks height = .ok (pruned, ops) ∧
      ∃ j, (bs.exec (ops.take j)).Base = bs.base + 999 ∧
        (bs.exec (ops.take j)).Height = bs.height ∧
        (bs.exec (ops.take j)).LoadBlockMeta (bs.base + 999) = none ∧
        (NewBlockStore (bs.exec (ops.take j)).db).Base = bs.base + 999 ∧
        (NewBlockStore (bs.exec (ops.take j)).db).Height = bs.height := by
  have hn : 1000 ≤ (height - bs.base).toNat := by omega
  -- the first 999 heights only fill the batch
  obtain ⟨batch₉, h₉⟩ := foldl_pruneStep_unflushed
    ((List.range 999).map fun i : Nat => bs.base + i) ⟨bs, [], [], 0⟩
    (fun h hh => by
      obtain ⟨h₁, h₂⟩ := mem_map_range_add.mp hh
      exact hstored _ (by omega) (by omega))
    (by simp)
  simp only [List.length_map, List.length_range, Nat.zero_add] at h₉
  -- the thousandth height flushes, with itself as the base
  obtain ⟨m, hm⟩ := Option.isSome_iff_exists.mp (hstored (bs.base + 999) (by omega) (by omega))
  have hflush := @pruneStep_flush _ ⟨bs, [], batch₉, 999⟩ _ _ hm rfl
  generalize hbatch : batch₉ ++
    [.blockMeta (bs.base + 999), .hash m.BlockID.hash, .commit (bs.base + 999),
      .seenCommit (bs.base + 999)] ++
    (List.range m.BlockID.partSetHeader.total.toNat).map (.part (bs.base + 999)) = batch at hflush
  have hmem : dbKey.blockMeta (bs.base + 999) ∈ batch := by
    rw [← hbatch]
    simp
  have hops : (pruneStep ⟨bs, [], batch₉, 999⟩ (bs.base + 999)).ops =
      [storeOp.setBase (bs.base + 999), .saveState] ++ batch.map .delete := by
    rw [hflush, flush]
    simp
  -- the rest of the run only appends
  obtain ⟨rest, hrest⟩ := foldl_pruneStep_ops
    ((List.range ((height - bs.base).toNat - 1000)).map fun i : Nat => bs.base + 1000 + i)
    (pruneStep ⟨bs, [], batch₉, 999⟩ (bs.base + 999))
  refine ⟨_, _, PruneBlocks_ok (by omega) hle (by omega), (batch.map storeOp.delete).length + 2, ?_⟩
  have htake : (flush (((List.range (height - bs.base).toNat).map fun i : Nat => bs.base + i).foldl
      pruneStep ⟨bs, [], [], 0⟩) height).ops.take ((batch.map storeOp.delete).length + 2) =
      [storeOp.setBase (bs.base + 999), .saveState] ++ batch.map .delete := by
    rw [range_map_split _ hn, List.foldl_append, h₉, List.foldl_cons]
    simp only [flush, hrest, hops, List.append_assoc]
    simp
  rw [htake]
  obtain ⟨hb, hh, hs, hmetas⟩ := exec_flush bs (bs.base + 999) batch
  have hbase' : bs.base + 999 ≠ 0 := by omega
  refine ⟨hb, hh, by simp only [LoadBlockMeta, hmetas, if_pos hmem], ?_, ?_⟩
  all_goals
    simp only [NewBlockStore, LoadBlockStoreState, hs, Base, Height]
    simp [hbase']

/-- An empty database of blocks, in memory. -/
def memBlocks : KVStore.DB (AList fun _ : dbKey => dbValue) dbKey dbValue dbKey.Lt :=
  KVStore.DB.emptyAList (fun _ _ => dbKey.Lt.asymm) (fun _ _ _ => dbKey.Lt.trans)
    (fun _ _ => dbKey.Lt.total)

/-- A database of blocks with the block meta `m` written at each of `heights`. -/
def withMetas (blocks : KVStore.DB σ dbKey dbValue dbKey.Lt) (heights : List Int)
    (m : BlockMeta) : KVStore.DB σ dbKey dbValue dbKey.Lt :=
  heights.foldl (fun blocks h => blocks.Set (.blockMeta h) (.blockMeta m)) blocks

lemma Get_withMetas (m : BlockMeta) (k : Int) : ∀ (heights : List Int)
    (blocks : KVStore.DB σ dbKey dbValue dbKey.Lt),
    (withMetas blocks heights m).Get (.blockMeta k) =
      if k ∈ heights then some (.blockMeta m) else blocks.Get (.blockMeta k)
  | [], _ => by simp [withMetas]
  | h :: heights, blocks => by
    rw [withMetas, List.foldl_cons, ← withMetas, Get_withMetas m k heights]
    by_cases hk : k = h <;> by_cases hmem : k ∈ heights <;> simp [hk, hmem]

/-- A store of the heights 1 .. 1001, each with its block meta. -/
def thousandBlocks : BlockStore (AList fun _ : dbKey => dbValue) :=
  { db := ⟨withMetas memBlocks ((List.range 1001).map fun i : Nat => (i : Int) + 1)
      ⟨⟨[], ⟨0, []⟩⟩⟩, some ⟨1, 1001⟩⟩,
    base := 1, height := 1001 }

theorem PruneBlocks_publishes_pruned_base_thousand :
    ∃ pruned ops, thousandBlocks.PruneBlocks 1001 = .ok (pruned, ops) ∧
      ∃ j, (thousandBlocks.exec (ops.take j)).Base = 1000 ∧
        (thousandBlocks.exec (ops.take j)).Height = 1001 ∧
        (thousandBlocks.exec (ops.take j)).LoadBlockMeta 1000 = none ∧
        (NewBlockStore (thousandBlocks.exec (ops.take j)).db).Base = 1000 ∧
        (NewBlockStore (thousandBlocks.exec (ops.take j)).db).Height = 1001 :=
  @PruneBlocks_publishes_pruned_base _ thousandBlocks 1001 (by decide) (by decide) (by decide)
    fun k h₁ h₂ => by
      have hk : k ∈ (List.range 1001).map fun i : Nat => (i : Int) + 1 := by
        simp only [thousandBlocks] at h₁ h₂
        exact List.mem_map.mpr ⟨(k - 1).toNat, List.mem_range.mpr (by omega), by omega⟩
      simp [LoadBlockMeta, thousandBlocks, Get_withMetas, hk]

/-! ## What `PruneBlocks` deletes -/

/-- The block meta a reader sees at `k` once the batch is written. -/
def pruneState.metaAfter (st : pruneState σ) (k : Int) : Option BlockMeta :=
  if dbKey.blockMeta k ∈ st.batch then none else st.bs.LoadBlockMeta k

lemma LoadBlockMeta_exec_flush (bs : BlockStore σ) (b : Int) (batch : List dbKey) (k : Int) :
    (bs.exec ([.setBase b, .saveState] ++ batch.map .delete)).LoadBlockMeta k =
      if dbKey.blockMeta k ∈ batch then none else bs.LoadBlockMeta k := by
  obtain ⟨-, -, -, hm⟩ := exec_flush bs b batch
  unfold LoadBlockMeta
  rw [hm]
  split_ifs <;> rfl

/-- A flush writes the batch, which a reader already counted as written. -/
lemma metaAfter_flush (st : pruneState σ) (b k : Int) :
    (flush st b).metaAfter k = st.metaAfter k := by
  simp only [pruneState.metaAfter, flush, List.not_mem_nil, if_false]
  exact LoadBlockMeta_exec_flush _ _ _ _

/-- A step of the loop takes the meta of its height away and leaves the others. -/
lemma metaAfter_pruneStep (st : pruneState σ) (h k : Int) :
    (pruneStep st h).metaAfter k = if k = h then none else st.metaAfter k := by
  unfold pruneStep
  split
  · next hnone =>
    by_cases hk : k = h
    · subst hk
      simp [pruneState.metaAfter, hnone]
    · rw [if_neg hk]
  · next m hm =>
    -- the batch now holds the meta of `h`; a flush does not change what a reader sees
    have hbatch : ∀ st' : pruneState σ, st'.bs = st.bs →
        st'.batch = st.batch ++ [.blockMeta h, .hash m.BlockID.hash, .commit h, .seenCommit h] ++
          (List.range m.BlockID.partSetHeader.total.toNat).map (.part h) →
        st'.metaAfter k = if k = h then none else st.metaAfter k := by
      intro st' hbs hb
      by_cases hk : k = h
      · simp [pruneState.metaAfter, hb, hk]
      · simp [pruneState.metaAfter, hb, hbs, hk]
    dsimp only
    split
    · rw [metaAfter_flush]
      exact hbatch _ rfl rfl
    · exact hbatch _ rfl rfl

lemma metaAfter_foldl_pruneStep (hs : List Int) : ∀ (st : pruneState σ) (k : Int),
    (hs.foldl pruneStep st).metaAfter k = if k ∈ hs then none else st.metaAfter k := by
  induction hs with
  | nil => intro st k; simp
  | cons h hs ih =>
    intro st k
    rw [List.foldl_cons, ih, metaAfter_pruneStep]
    by_cases hk : k = h <;> simp [hk]

/-- The store a state of the loop holds is the first store with the writes made so far, and its
height is the first store's. -/
lemma pruneStep_exec {bs₀ : BlockStore σ} {st : pruneState σ}
    (hst : st.bs = bs₀.exec st.ops ∧ st.bs.height = bs₀.height) (h : Int) :
    (pruneStep st h).bs = bs₀.exec (pruneStep st h).ops ∧
      (pruneStep st h).bs.height = bs₀.height := by
  unfold pruneStep
  split
  · exact hst
  · dsimp only
    split_ifs
    · simp only [flush]
      refine ⟨by rw [exec_append, exec_append, ← hst.1, exec_append], ?_⟩
      rw [(exec_flush _ _ _).2.1]
      exact hst.2
    · exact hst

lemma foldl_pruneStep_exec (bs₀ : BlockStore σ) (hs : List Int) : ∀ st : pruneState σ,
    st.bs = bs₀.exec st.ops ∧ st.bs.height = bs₀.height →
    (hs.foldl pruneStep st).bs = bs₀.exec (hs.foldl pruneStep st).ops ∧
      (hs.foldl pruneStep st).bs.height = bs₀.height := by
  induction hs with
  | nil => intro st hst; exact hst
  | cons h hs ih =>
    intro st hst
    exact ih _ (pruneStep_exec hst h)

/-- `PruneBlocks(height)` deletes the block metas of exactly the heights `[base, height)`, and
ends with the window `(height, Height())` in memory and saved, which a restart reads back. -/
theorem PruneBlocks_prunes_below {height : Int} {pruned : Nat} {ops : List storeOp}
    (h : bs.PruneBlocks height = .ok (pruned, ops)) :
    (bs.exec ops).Base = height ∧ (bs.exec ops).Height = bs.Height ∧
      (NewBlockStore (bs.exec ops).db).Base = height ∧
      (NewBlockStore (bs.exec ops).db).Height = bs.Height ∧
      ∀ k, (bs.exec ops).LoadBlockMeta k =
        if bs.base ≤ k ∧ k < height then none else bs.LoadBlockMeta k := by
  unfold PruneBlocks at h
  split_ifs at h with h0 hgt hlt
  cases h
  -- the loop over `[base, height)`, then the last flush
  generalize hhs : (List.range (height - bs.base).toNat).map (fun i : Nat => bs.base + i) = hs
  have hmem : ∀ k, k ∈ hs ↔ bs.base ≤ k ∧ k < height := fun k => by
    rw [← hhs, mem_map_range_add]
    omega
  obtain ⟨hexec, hheight⟩ := foldl_pruneStep_exec bs hs ⟨bs, [], [], 0⟩ ⟨rfl, rfl⟩
  have hview := metaAfter_foldl_pruneStep hs ⟨bs, [], [], 0⟩
  generalize hs.foldl pruneStep (⟨bs, [], [], 0⟩ : pruneState σ) = st at hexec hheight hview
  have hops : (flush st height).ops =
      st.ops ++ ([.setBase height, .saveState] ++ st.batch.map .delete) := rfl
  rw [hops, exec_append, ← hexec]
  obtain ⟨hb, hh, hstate, -⟩ := exec_flush st.bs height st.batch
  have hne : height ≠ 0 := by omega
  refine ⟨hb, hh.trans hheight, ?_, ?_, fun k => ?_⟩
  · simp only [NewBlockStore, Base]
    rw [LoadBlockStoreState, hstate]
    simp [hne]
  · simp only [NewBlockStore, Height]
    rw [LoadBlockStoreState, hstate]
    simp [hne, hheight]
  · -- what a reader sees after the last flush is what the loop left for it
    rw [LoadBlockMeta_exec_flush, ← pruneState.metaAfter, hview]
    by_cases hk : k ∈ hs
    · rw [if_pos hk, if_pos ((hmem k).mp hk)]
    · rw [if_neg hk, if_neg ((hmem k).not.mp hk)]
      simp [pruneState.metaAfter]

theorem PruneBlocks_prunes_below_thousand :
    ∃ pruned ops, thousandBlocks.PruneBlocks 1001 = .ok (pruned, ops) ∧
      (thousandBlocks.exec ops).Base = 1001 ∧ (thousandBlocks.exec ops).Height = 1001 ∧
      (NewBlockStore (thousandBlocks.exec ops).db).Base = 1001 ∧
      (NewBlockStore (thousandBlocks.exec ops).db).Height = 1001 ∧
      ∀ k, (thousandBlocks.exec ops).LoadBlockMeta k =
        if 1 ≤ k ∧ k < 1001 then none else thousandBlocks.LoadBlockMeta k := by
  obtain ⟨pruned, ops, h⟩ : ∃ pruned ops, thousandBlocks.PruneBlocks 1001 = .ok (pruned, ops) :=
    ⟨_, _, PruneBlocks_ok (by decide) (by decide) (by decide)⟩
  exact ⟨pruned, ops, h, PruneBlocks_prunes_below h⟩

end BlockStore

end Tendermint.Store
