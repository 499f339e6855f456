import Tendermint.Types.Basic
import Tendermint.Lib.Bufio
import Tendermint.Lib.Except

/-!
# A group of rotating files (`libs/autofile/group.go`)

A `Group` writes to a head file through a buffer.  `RotateFile` renames the head to the next
numbered file, and `checkTotalSizeLimit` deletes the oldest numbered files while the group is
over its size limit.  The group keeps the smallest and largest index, the head counted as the
largest, in `minIndex` and `maxIndex`; `OpenGroup` reads them off the directory
(`readGroupInfo`).  A `GroupReader` opens the file at an index, creating it when it is
missing.

**Writes and rotations.**  Every operation but `checkTotalSizeLimit` keeps the two indices
equal to the ones the directory gives (`IndicesMatch`): a write touches only the head, and a
rotation adds the file one above the largest (`RotateFile_indicesMatch`).  Over any run of
them from `OpenGroup` the indices are right (`run_indicesMatch`), and nothing written is lost:
the numbered files, the head and the buffer hold the directory's bytes followed by every byte
written, in order, and the buffer never overflows (`run_contents`).

**Deletion.**  `checkTotalSizeLimit` deletes files and leaves `minIndex` as it was:

* **`checkTotalSizeLimit_stale_MinIndex`** — from every group whose indices match its
  directory and which is over a positive size limit, the check deletes the file at `MinIndex`,
  which then names neither a file on disk nor the head, and a reader opened there creates it
  again, empty.

The directory holds the group's files only; a file is its index and its bytes, the head its
bytes, empty when it is absent.  Disks do not fail.
-/

namespace Tendermint

namespace autofile

/-- The size of `headBuf`. -/
def headBufSize : Nat := 4096 * 10

/-- `maxFilesToRemove`. -/
def maxFilesToRemove : Nat := 4

/-- A `Group` on its directory: the head file behind `headBuf` (the writer's output), the
numbered files by index, the limits, and the indices the group keeps. -/
structure Group where
  headBuf : bufio.Writer UInt8
  files : List (Int × Bytes)
  headSizeLimit : Int
  totalSizeLimit : Int
  minIndex : Int
  maxIndex : Int

/-- `GroupInfo`. -/
structure GroupInfo where
  MinIndex : Int
  MaxIndex : Int
  TotalSize : Int
  HeadSize : Int
  deriving DecidableEq, Repr

namespace Group

/-- The indices of the numbered files. -/
def indices (g : Group) : List Int := g.files.map (·.1)

/-- `readGroupInfo`: the smallest and the largest numbered file, the head one above them, and
the sizes. -/
def readGroupInfo (g : Group) : GroupInfo :=
  let headSize : Int := g.headBuf.wr.length
  let totalSize := headSize + (g.files.map fun f => (f.2.length : Int)).sum
  match g.indices.min?, g.indices.max? with
  | some minIndex, some maxIndex => ⟨minIndex, maxIndex + 1, totalSize, headSize⟩
  -- no numbered files: the head is index 0
  | _, _ => ⟨0, 0, totalSize, headSize⟩

/-- `MinIndex`. -/
def MinIndex (g : Group) : Int := g.minIndex

/-- `MaxIndex`. -/
def MaxIndex (g : Group) : Int := g.maxIndex

/-- `Write`. -/
def Write (g : Group) (p : Bytes) : Group := { g with headBuf := g.headBuf.Write p }

/-- `WriteLine`. -/
def WriteLine (g : Group) (line : String) : Group := g.Write (line ++ "\n").toUTF8.data.toList

/-- `FlushAndSync`. -/
def FlushAndSync (g : Group) : Group := { g with headBuf := g.headBuf.Flush }

/-- `RotateFile`: the flushed head is renamed to the file at `maxIndex`, which it replaces;
the next write creates a new head. -/
def RotateFile (g : Group) : Group :=
  let headBuf := g.headBuf.Flush
  { g with
    headBuf := { headBuf with wr := [] }
    files := g.files.filter (·.1 ≠ g.maxIndex) ++ [(g.maxIndex, headBuf.wr)]
    maxIndex := g.maxIndex + 1 }

/-- `checkHeadSizeLimit`: the head's size is the size of the file, without the buffer. -/
def checkHeadSizeLimit (g : Group) : Group :=
  let limit := g.headSizeLimit
  if limit = 0 then g
  else if g.headBuf.wr.length ≥ limit then g.RotateFile
  else g

/-- The loop of `checkTotalSizeLimit` over `i`, with the total size left. -/
def removeFiles (gInfo : GroupInfo) (limit : Int) : List Nat → Int → Group → Group
  | [], _, g => g
  | i :: is, totalSize, g =>
    let index := gInfo.MinIndex + i
    if totalSize < limit then g
    -- the head: the group may grow without bound
    else if index = gInfo.MaxIndex then g
    else match g.files.lookup index with
      -- `os.Stat` fails: on to the next index
      | none => removeFiles gInfo limit is totalSize g
      | some content =>
        removeFiles gInfo limit is (totalSize - content.length)
          { g with files := g.files.filter (·.1 ≠ index) }

/-- `checkTotalSizeLimit`: the oldest files go, at most `maxFilesToRemove` of them, while the
group is over its limit. -/
def checkTotalSizeLimit (g : Group) : Group :=
  let limit := g.totalSizeLimit
  if limit = 0 then g
  else
    let gInfo := g.readGroupInfo
    removeFiles gInfo limit (List.range maxFilesToRemove) gInfo.TotalSize g

end Group

/-- `OpenGroup` on a directory holding the head and the numbered files. -/
def OpenGroup (head : Bytes) (files : List (Int × Bytes)) (headSizeLimit totalSizeLimit : Int) :
    Group :=
  let g : Group := ⟨⟨head, [], headBufSize⟩, files, headSizeLimit, totalSizeLimit, 0, 0⟩
  let gInfo := g.readGroupInfo
  { g with minIndex := gInfo.MinIndex, maxIndex := gInfo.MaxIndex }

/-- A `GroupReader`: the index of its file, and the bytes of that file it has still to read. -/
structure GroupReader where
  curIndex : Int
  cur : Option Bytes

namespace Group

/-- `GroupReader.openFile`: the file at `index`, the head at `maxIndex`; `os.O_CREATE` creates
a missing file, empty. -/
def openFile (g : Group) (gr : GroupReader) (index : Int) : Except String (GroupReader × Group) :=
  if index > g.maxIndex then throw "EOF"
  else if index = g.maxIndex then pure ({ gr with curIndex := index, cur := some g.headBuf.wr }, g)
  else match g.files.lookup index with
    | some content => pure ({ gr with curIndex := index, cur := some content }, g)
    | none => pure ({ gr with curIndex := index, cur := some [] },
        { g with files := g.files ++ [(index, [])] })

/-- `NewReader`. -/
def NewReader (g : Group) (index : Int) : Except String (GroupReader × Group) :=
  g.openFile ⟨0, none⟩ index

/-! ## The indices the group keeps -/

/-- The group's indices are the ones its directory gives. -/
def IndicesMatch (g : Group) : Prop :=
  g.minIndex = g.readGroupInfo.MinIndex ∧ g.maxIndex = g.readGroupInfo.MaxIndex

instance (g : Group) : Decidable g.IndicesMatch := inferInstanceAs (Decidable (_ ∧ _))

lemma readGroupInfo_of_nil {g : Group} (h : g.files = []) :
    g.readGroupInfo.MinIndex = 0 ∧ g.readGroupInfo.MaxIndex = 0 := by
  simp [readGroupInfo, indices, h]

lemma readGroupInfo_of_min_max {g : Group} {m M : Int} (hm : g.indices.min? = some m)
    (hM : g.indices.max? = some M) :
    g.readGroupInfo.MinIndex = m ∧ g.readGroupInfo.MaxIndex = M + 1 := by
  simp [readGroupInfo, hm, hM]

/-- The indices the directory gives depend on the numbered files alone. -/
lemma readGroupInfo_indices {g g' : Group} (h : g'.files = g.files) :
    g'.readGroupInfo.MinIndex = g.readGroupInfo.MinIndex ∧
      g'.readGroupInfo.MaxIndex = g.readGroupInfo.MaxIndex := by
  simp only [readGroupInfo, indices, h]
  cases (g.files.map (·.1)).min? <;> cases (g.files.map (·.1)).max? <;> simp

lemma indicesMatch_of_files {g g' : Group} (hg : g.IndicesMatch) (h : g'.files = g.files)
    (hmin : g'.minIndex = g.minIndex) (hmax : g'.maxIndex = g.maxIndex) : g'.IndicesMatch := by
  obtain ⟨h₁, h₂⟩ := readGroupInfo_indices h
  exact ⟨hmin.trans (hg.1.trans h₁.symm), hmax.trans (hg.2.trans h₂.symm)⟩

/-- When the indices match, every numbered file is below `maxIndex`. -/
lemma lt_maxIndex {g : Group} (hg : g.IndicesMatch) {i : Int} (hi : i ∈ g.indices) :
    i < g.maxIndex := by
  obtain ⟨M, hM⟩ := Option.isSome_iff_exists.mp (List.isSome_max?_of_mem hi)
  have hle := (List.max?_eq_some_iff.mp hM).2 i hi
  obtain ⟨m, hm⟩ := Option.isSome_iff_exists.mp (List.isSome_min?_of_mem hi)
  rw [hg.2, (readGroupInfo_of_min_max hm hM).2]
  omega

/-- When the indices match no file is at `maxIndex`, so a rotation's rename replaces none. -/
lemma filter_maxIndex {g : Group} (hg : g.IndicesMatch) :
    g.files.filter (·.1 ≠ g.maxIndex) = g.files := by
  refine List.filter_eq_self.mpr fun f hf => ?_
  have := lt_maxIndex hg (List.mem_map_of_mem hf)
  simpa using this.ne

/-- A rotation adds the file one above the largest, which keeps the indices right. -/
theorem RotateFile_indicesMatch {g : Group} (hg : g.IndicesMatch) : g.RotateFile.IndicesMatch := by
  have hind : g.RotateFile.indices = g.indices ++ [g.maxIndex] := by
    simp only [RotateFile, indices, filter_maxIndex hg, List.map_append, List.map_cons,
      List.map_nil]
  cases hfiles : g.files with
  | nil =>
    -- the first rotation: the head becomes file 0
    obtain ⟨h₁, h₂⟩ := readGroupInfo_of_nil hfiles
    have hmax : g.maxIndex = 0 := hg.2.trans h₂
    have hmin : g.minIndex = 0 := hg.1.trans h₁
    have hind' : g.RotateFile.indices = [0] := by
      rw [hind, show g.indices = [] by simp [indices, hfiles], hmax]
      rfl
    obtain ⟨h₁', h₂'⟩ := readGroupInfo_of_min_max (hind' ▸ List.min?_singleton)
      (hind' ▸ List.max?_singleton)
    refine ⟨?_, ?_⟩
    · show g.minIndex = _
      rw [h₁', hmin]
    · show g.maxIndex + 1 = _
      rw [h₂', hmax]
  | cons f fs =>
    have hne : g.indices ≠ [] := by simp [indices, hfiles]
    obtain ⟨m, hm⟩ := Option.isSome_iff_exists.mp (List.isSome_min?_of_ne_nil hne)
    obtain ⟨M, hM⟩ := Option.isSome_iff_exists.mp (List.isSome_max?_of_ne_nil hne)
    obtain ⟨h₁, h₂⟩ := readGroupInfo_of_min_max hm hM
    obtain ⟨hmmem, hmle⟩ := List.min?_eq_some_iff.mp hm
    obtain ⟨hMmem, hMle⟩ := List.max?_eq_some_iff.mp hM
    have hmM := hMle m hmmem
    -- the smallest file stays the smallest, and the new one is the largest
    have hm' : g.RotateFile.indices.min? = some m := by
      rw [hind, List.min?_eq_some_iff]
      refine ⟨List.mem_append_left _ hmmem, fun b hb => ?_⟩
      rcases List.mem_append.mp hb with hb | hb
      · exact hmle b hb
      · rw [List.mem_singleton.mp hb, hg.2, h₂]
        omega
    have hM' : g.RotateFile.indices.max? = some (M + 1) := by
      rw [hind, List.max?_eq_some_iff, hg.2, h₂]
      refine ⟨List.mem_append_right _ (List.mem_singleton_self _), fun b hb => ?_⟩
      rcases List.mem_append.mp hb with hb | hb
      · have := hMle b hb
        omega
      · rw [List.mem_singleton.mp hb]
    obtain ⟨h₁', h₂'⟩ := readGroupInfo_of_min_max hm' hM'
    refine ⟨?_, ?_⟩
    · rw [h₁']
      exact hg.1.trans h₁
    · rw [h₂']
      simp only [RotateFile, hg.2, h₂]

/-- A group as `OpenGroup` leaves it has the indices of its directory. -/
lemma OpenGroup_indicesMatch (head : Bytes) (files : List (Int × Bytes))
    (headSizeLimit totalSizeLimit : Int) :
    (OpenGroup head files headSizeLimit totalSizeLimit).IndicesMatch := by
  obtain ⟨h₁, h₂⟩ := @readGroupInfo_indices ⟨⟨head, [], headBufSize⟩, files, headSizeLimit,
    totalSizeLimit, 0, 0⟩ (OpenGroup head files headSizeLimit totalSizeLimit) rfl
  exact ⟨h₁.symm, h₂.symm⟩

/-! ## Runs of writes and rotations -/

/-- The operations on a group, readers apart, as `processTicks` and the group's users run
them. -/
inductive Op where
  | Write (p : Bytes)
  | WriteLine (line : String)
  | FlushAndSync
  | RotateFile
  | checkHeadSizeLimit
  | checkTotalSizeLimit

/-- One operation. -/
def step (g : Group) : Op → Group
  | .Write p => g.Write p
  | .WriteLine line => g.WriteLine line
  | .FlushAndSync => g.FlushAndSync
  | .RotateFile => g.RotateFile
  | .checkHeadSizeLimit => g.checkHeadSizeLimit
  | .checkTotalSizeLimit => g.checkTotalSizeLimit

/-- The operation that deletes files. -/
def Op.Deletes : Op → Bool
  | .checkTotalSizeLimit => true
  | _ => false

/-- Every operation that deletes nothing keeps the indices right. -/
theorem step_indicesMatch {g : Group} (hg : g.IndicesMatch) :
    ∀ op : Op, op.Deletes = false → (g.step op).IndicesMatch
  | .Write _, _ => indicesMatch_of_files hg rfl rfl rfl
  | .WriteLine _, _ => indicesMatch_of_files hg rfl rfl rfl
  | .FlushAndSync, _ => indicesMatch_of_files hg rfl rfl rfl
  | .RotateFile, _ => RotateFile_indicesMatch hg
  | .checkHeadSizeLimit, _ => by
    simp only [step, checkHeadSizeLimit]
    split_ifs
    · exact hg
    · exact RotateFile_indicesMatch hg
    · exact hg

/-- Over every run of operations that delete nothing, the indices a group keeps are those of
its directory. -/
theorem run_indicesMatch (head : Bytes) (files : List (Int × Bytes))
    (headSizeLimit totalSizeLimit : Int) (ops : List Op) (hops : ∀ op ∈ ops, op.Deletes = false) :
    (ops.foldl step (OpenGroup head files headSizeLimit totalSizeLimit)).IndicesMatch := by
  -- the invariant is carried from the opened group through each operation
  suffices ∀ g : Group, g.IndicesMatch → (ops.foldl step g).IndicesMatch from
    this _ (OpenGroup_indicesMatch head files headSizeLimit totalSizeLimit)
  induction ops with
  | nil => exact fun _ hg => hg
  | cons op ops ih =>
    intro g hg
    exact ih (fun o ho => hops o (List.mem_cons_of_mem _ ho)) _
      (step_indicesMatch hg op (hops op List.mem_cons_self))

/-- Writes and rotations on a group opened on two files and a head, with a head limit of one
byte: the head is rotated into file `2`, and again by `checkHeadSizeLimit` into file `3`. -/
def rotations : List Op := [.Write [3], .RotateFile, .Write [4], .FlushAndSync, .checkHeadSizeLimit]

theorem run_indicesMatch_rotations :
    (∀ op ∈ rotations, op.Deletes = false) ∧
      (rotations.foldl step (OpenGroup [5] [(0, [1]), (1, [2])] 1 0)).IndicesMatch ∧
      (rotations.foldl step (OpenGroup [5] [(0, [1]), (1, [2])] 1 0)).MaxIndex = 4 :=
  ⟨by decide, run_indicesMatch [5] [(0, [1]), (1, [2])] 1 0 rotations (by decide), by decide⟩

/-! ## Nothing written is lost -/

/-- What the group holds, in order: the numbered files as the group keeps them, the head file,
and the buffer in front of it. -/
def contents (g : Group) : Bytes := g.files.flatMap (·.2) ++ g.headBuf.wr ++ g.headBuf.buf

/-- The bytes an operation writes. -/
def Op.bytes : Op → Bytes
  | .Write p => p
  | .WriteLine line => (line ++ "\n").toUTF8.data.toList
  | _ => []

lemma Write_contents (g : Group) (p : Bytes) : (g.Write p).contents = g.contents ++ p := by
  simp only [contents, Write, List.append_assoc, bufio.Writer.Write_contents]

lemma FlushAndSync_contents (g : Group) : g.FlushAndSync.contents = g.contents := by
  simp only [contents, FlushAndSync, List.append_assoc, bufio.Writer.Flush_contents]

/-- A rotation moves the flushed head to the end of the numbered files. -/
lemma RotateFile_contents {g : Group} (hg : g.IndicesMatch) : g.RotateFile.contents = g.contents := by
  simp only [contents, RotateFile, filter_maxIndex hg, List.flatMap_append, List.flatMap_cons,
    List.flatMap_nil, bufio.Writer.Flush_wr, bufio.Writer.Flush_buf, List.append_nil,
    List.append_assoc]

/-- One operation that deletes nothing appends what it writes. -/
lemma step_contents {g : Group} (hg : g.IndicesMatch) :
    ∀ op : Op, op.Deletes = false → (g.step op).contents = g.contents ++ op.bytes
  | .Write p, _ => Write_contents g p
  | .WriteLine line, _ => Write_contents g _
  | .FlushAndSync, _ => (FlushAndSync_contents g).trans (List.append_nil _).symm
  | .RotateFile, _ => (RotateFile_contents hg).trans (List.append_nil _).symm
  | .checkHeadSizeLimit, _ => by
    simp only [step, checkHeadSizeLimit, Op.bytes, List.append_nil]
    split_ifs
    · rfl
    · exact RotateFile_contents hg
    · rfl

/-- The buffer holds at most its size. -/
def BufFits (g : Group) : Prop := g.headBuf.buf.length ≤ g.headBuf.size

lemma Write_bufFits {g : Group} (hg : g.BufFits) (p : Bytes) : (g.Write p).BufFits := by
  unfold BufFits Write
  rw [bufio.Writer.Write_size]
  exact bufio.Writer.Write_buf_length _ _ hg

/-- Every operation that deletes nothing keeps the buffer's size, and a buffer that fits. -/
lemma step_bufFits {g : Group} (hg : g.BufFits) :
    ∀ op : Op, op.Deletes = false → (g.step op).headBuf.size = g.headBuf.size ∧ (g.step op).BufFits
  | .Write p, _ => ⟨bufio.Writer.Write_size _ _, Write_bufFits hg p⟩
  | .WriteLine _, _ => ⟨bufio.Writer.Write_size _ _, Write_bufFits hg _⟩
  | .FlushAndSync, _ => ⟨rfl, by simp [BufFits, step, FlushAndSync]⟩
  | .RotateFile, _ => ⟨rfl, by simp [BufFits, step, RotateFile]⟩
  | .checkHeadSizeLimit, _ => by
    simp only [step, checkHeadSizeLimit]
    split_ifs
    · exact ⟨rfl, hg⟩
    · exact ⟨rfl, by simp [BufFits, RotateFile]⟩
    · exact ⟨rfl, hg⟩
  | .checkTotalSizeLimit, h => absurd h (by decide)

/-- **Nothing written is lost, reordered or duplicated.**  Over every run of operations that
delete nothing, from a group as `OpenGroup` leaves it, the numbered files in the order the group
keeps them, the head file and the buffer spell the directory's bytes followed by every byte
written, and the buffer never holds more than its size. -/
theorem run_contents (head : Bytes) (files : List (Int × Bytes))
    (headSizeLimit totalSizeLimit : Int) (ops : List Op) (hops : ∀ op ∈ ops, op.Deletes = false) :
    (ops.foldl step (OpenGroup head files headSizeLimit totalSizeLimit)).contents =
        files.flatMap (·.2) ++ head ++ ops.flatMap Op.bytes ∧
      (ops.foldl step (OpenGroup head files headSizeLimit totalSizeLimit)).headBuf.buf.length ≤
        headBufSize := by
  -- carried through each operation: the indices match, which rotations need, and the buffer fits
  suffices ∀ g : Group, g.IndicesMatch → g.BufFits →
      (ops.foldl step g).contents = g.contents ++ ops.flatMap Op.bytes ∧
        (ops.foldl step g).headBuf.size = g.headBuf.size ∧ (ops.foldl step g).BufFits by
    obtain ⟨hc, hsize, hfits⟩ := this _ (OpenGroup_indicesMatch head files headSizeLimit
      totalSizeLimit) (by simp [BufFits, OpenGroup])
    refine ⟨by rw [hc]; simp [contents, OpenGroup], ?_⟩
    unfold BufFits at hfits
    rw [hsize] at hfits
    exact hfits
  induction ops with
  | nil => exact fun g _ hfits => ⟨by simp, rfl, hfits⟩
  | cons op ops ih =>
    intro g hg hfits
    have hop := hops op List.mem_cons_self
    obtain ⟨hsize₁, hfits₁⟩ := step_bufFits hfits op hop
    obtain ⟨hc, hsize, hfits'⟩ := ih (fun o ho => hops o (List.mem_cons_of_mem _ ho)) _
      (step_indicesMatch hg op hop) hfits₁
    refine ⟨?_, hsize.trans hsize₁, hfits'⟩
    rw [List.foldl_cons, hc, step_contents hg op hop, List.flatMap_cons, List.append_assoc]

theorem run_contents_rotations :
    (∀ op ∈ rotations, op.Deletes = false) ∧
      (rotations.foldl step (OpenGroup [5] [(0, [1]), (1, [2])] 1 0)).contents = [1, 2, 5, 3, 4] ∧
      (rotations.foldl step (OpenGroup [5] [(0, [1]), (1, [2])] 1 0)).headBuf.buf.length ≤
        headBufSize := by
  have hops : ∀ op ∈ rotations, op.Deletes = false := by decide
  obtain ⟨hc, hfits⟩ := run_contents [5] [(0, [1]), (1, [2])] 1 0 rotations hops
  exact ⟨hops, hc.trans rfl, hfits⟩

/-! ## Deleting the oldest files -/

/-- The loop of `checkTotalSizeLimit` deletes files and touches nothing else. -/
lemma removeFiles_eq (gInfo : GroupInfo) (limit : Int) :
    ∀ (is : List Nat) (totalSize : Int) (g : Group), ∃ files : List (Int × Bytes),
      (∀ f ∈ files, f ∈ g.files) ∧ removeFiles gInfo limit is totalSize g = { g with files := files }
  | [], _, g => ⟨g.files, fun _ h => h, rfl⟩
  | i :: is, totalSize, g => by
    rw [removeFiles]
    split_ifs
    · exact ⟨g.files, fun _ h => h, rfl⟩
    · exact ⟨g.files, fun _ h => h, rfl⟩
    · split
      · exact removeFiles_eq gInfo limit is totalSize g
      · -- the deleted file's index is filtered out, and the rest of the loop deletes more
        obtain ⟨files, hsub, heq⟩ := removeFiles_eq gInfo limit is _
          { g with files := g.files.filter (·.1 ≠ gInfo.MinIndex + i) }
        exact ⟨files, fun f hf => (List.mem_filter.mp (hsub f hf)).1, heq⟩

/-- Over a positive limit that the group reaches, `checkTotalSizeLimit` deletes the file at
`MinIndex` and leaves `MinIndex` as it was: it names neither a file on disk nor the head, and a
reader opened there creates the file again, empty. -/
theorem checkTotalSizeLimit_stale_MinIndex (g : Group) (hg : g.IndicesMatch)
    (hfiles : g.files ≠ []) (hpos : 0 < g.totalSizeLimit)
    (hfull : g.totalSizeLimit ≤ g.readGroupInfo.TotalSize) :
    g.checkTotalSizeLimit.MinIndex ∉ g.checkTotalSizeLimit.indices ∧
      g.checkTotalSizeLimit.MinIndex < g.checkTotalSizeLimit.MaxIndex ∧
      ∃ r g', g.checkTotalSizeLimit.NewReader g.checkTotalSizeLimit.MinIndex = .ok (r, g') ∧
        (g.checkTotalSizeLimit.MinIndex, ([] : Bytes)) ∈ g'.files := by
  -- the smallest numbered file `m`, below the head at `M + 1`
  have hne : g.indices ≠ [] := by simpa [indices] using hfiles
  obtain ⟨m, hm⟩ := Option.isSome_iff_exists.mp (List.isSome_min?_of_ne_nil hne)
  obtain ⟨M, hM⟩ := Option.isSome_iff_exists.mp (List.isSome_max?_of_ne_nil hne)
  obtain ⟨h₁, h₂⟩ := readGroupInfo_of_min_max hm hM
  have hmmem := (List.min?_eq_some_iff.mp hm).1
  have hmM := (List.max?_eq_some_iff.mp hM).2 m hmmem
  obtain ⟨content, hlookup⟩ : ∃ c, g.files.lookup m = some c := by
    obtain ⟨f, hf, rfl⟩ := List.mem_map.mp hmmem
    exact Option.isSome_iff_exists.mp (List.lookup_isSome_iff.mpr ⟨f, hf, by simp⟩)
  -- the first round deletes it, and the loop after it deletes only more
  have hfirst : g.checkTotalSizeLimit = removeFiles g.readGroupInfo g.totalSizeLimit [1, 2, 3]
      (g.readGroupInfo.TotalSize - content.length) { g with files := g.files.filter (·.1 ≠ m) } := by
    rw [checkTotalSizeLimit, if_neg (by omega)]
    show removeFiles _ _ (0 :: [1, 2, 3]) _ _ = _
    rw [removeFiles, if_neg (by omega), if_neg (by rw [h₁, h₂]; omega)]
    simp only [h₁, Nat.cast_zero, add_zero, hlookup]
  obtain ⟨files, hsub, heq⟩ := removeFiles_eq g.readGroupInfo g.totalSizeLimit [1, 2, 3]
    (g.readGroupInfo.TotalSize - content.length) { g with files := g.files.filter (·.1 ≠ m) }
  have hres := hfirst.trans heq
  generalize g.checkTotalSizeLimit = g₁ at hres ⊢
  have hfiles₁ : g₁.files = files := by rw [hres]
  have hmin : g₁.MinIndex = m := by
    rw [hres]
    exact hg.1.trans h₁
  have hmax : g₁.maxIndex = M + 1 := by
    rw [hres]
    exact hg.2.trans h₂
  have hgone : m ∉ g₁.indices := by
    intro hmem
    obtain ⟨f, hf, hfm⟩ := List.mem_map.mp hmem
    have := (List.mem_filter.mp (hsub f (hfiles₁ ▸ hf))).2
    simp [hfm] at this
  refine ⟨hmin ▸ hgone, by rw [hmin, MaxIndex, hmax]; omega, ?_⟩
  -- below the head and with no file there, the reader creates one
  have hnone : g₁.files.lookup m = none :=
    List.lookup_eq_none_iff.mpr fun p hp => by
      rw [bne_iff_ne]
      exact fun h => hgone (List.mem_map.mpr ⟨p, hp, h.symm⟩)
  rw [hmin]
  refine ⟨⟨m, some []⟩, { g₁ with files := g₁.files ++ [(m, [])] }, ?_, by simp⟩
  rw [NewReader, openFile, if_neg (by rw [hmax]; omega), if_neg (by rw [hmax]; omega), hnone]
  rfl

end Group

/-- Two one-byte files, `0` and `1`, and an empty head, the group limited to two bytes. -/
def twoFileGroup : Group := OpenGroup [] [(0, [1]), (1, [2])] 0 2

/-- The check deletes file `0` and keeps file `1`; `MinIndex` stays `0`. -/
theorem checkTotalSizeLimit_stale_MinIndex_twoFiles :
    (twoFileGroup.checkTotalSizeLimit.MinIndex ∉ twoFileGroup.checkTotalSizeLimit.indices ∧
      twoFileGroup.checkTotalSizeLimit.MinIndex < twoFileGroup.checkTotalSizeLimit.MaxIndex ∧
      ∃ r g', twoFileGroup.checkTotalSizeLimit.NewReader
          twoFileGroup.checkTotalSizeLimit.MinIndex = .ok (r, g') ∧
        (twoFileGroup.checkTotalSizeLimit.MinIndex, ([] : Bytes)) ∈ g'.files) ∧
      twoFileGroup.checkTotalSizeLimit.indices = [1] ∧
      twoFileGroup.checkTotalSizeLimit.MinIndex = 0 :=
  ⟨Group.checkTotalSizeLimit_stale_MinIndex twoFileGroup (by decide) (by decide) (by decide)
    (by decide), by decide, by decide⟩

end autofile

end Tendermint
