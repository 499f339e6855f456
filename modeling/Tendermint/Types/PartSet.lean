import Tendermint.Crypto.Merkle
import Tendermint.Libs.Bits

/-!
# Part sets (`types/part_set.go`)

A proposed block travels as a `PartSet`: its bytes cut into parts, each with a Merkle proof
against the root hash the proposal's `PartSetHeader` carries.  The receiver starts from the
header (`NewPartSetFromHeader`), adds the parts as they come (`AddPart`), and once all are in,
reads the block back (`GetReader`).

`Inv` is what every set reachable this way satisfies: one slot per part of the header, a count
equal to the number of filled slots, and a well-formed bit array.  `AddPart` keeps it and never
panics (`AddPart_inv`), so along any run of `AddPart` calls it holds (`addParts_inv`), and a
complete set reads back the parts in slot order (`GetReader_of_complete`).

What `AddPart` checks is that the part's proof verifies the part's bytes against the root.  The
proof authenticates the leaf at the proof's own index, and `AddPart` never compares that index
with `part.Index`: the parts of a set, each put in another's slot, are all accepted, and the
complete set then reads back other bytes than the data (`AddPart_swappedParts`).  The part count
of `NewPartSetFromData` is computed in `uint32` and wraps when the data and the part size are
large together; the set is then empty, complete at once, and `GetReader` panics
(`NewPartSetFromData_wraps`).
-/

namespace Tendermint

open ExceptRun Bits

/-- `types.Part`. -/
structure Part where
  index : UInt32
  bytes : Bytes
  proof : Merkle.Proof
  deriving DecidableEq, Repr

/-- `types.PartSet`, without its mutex. -/
structure PartSet where
  total : UInt32
  hash : Bytes
  parts : List (Option Part)
  partsBitArray : Option Bits.BitArray
  count : UInt32
  deriving DecidableEq, Repr

/-- `ErrPartSetUnexpectedIndex`. -/
def ErrPartSetUnexpectedIndex : String := "error part set unexpected index"

/-- `ErrPartSetInvalidProof`. -/
def ErrPartSetInvalidProof : String := "error part set invalid proof"

/-- Go's `s[lo:hi]`, which panics unless `lo ≤ hi ≤ len(s)`. -/
def goSlice {α : Type} (s : List α) (lo hi : Nat) : Go (List α) :=
  if lo ≤ hi ∧ hi ≤ s.length then pure ((s.drop lo).take (hi - lo))
  else throw (.panic "runtime error: slice bounds out of range")

/-- `NewPartSetFromHeader`: one empty slot per part of the header. -/
def NewPartSetFromHeader (header : PartSetHeader) : PartSet :=
  { total := header.total, hash := header.hash, parts := List.replicate header.total.toNat none,
    partsBitArray := Bits.NewBitArray header.total.toNat, count := 0 }

/-- The loop of `NewPartSetFromData` that sets the bits `0 .. n-1`. -/
def setAllTrue (bA : Option Bits.BitArray) (n : Nat) : Go (Option Bits.BitArray) :=
  (List.range n).foldlM (fun bA i => do
    let (_, bA') ← Bits.SetIndex bA i true
    pure bA') bA

/-- The bytes of part `i`: `data[i*partSize : MinInt(len(data), int((i+1)*partSize))]`, the
products in `uint32`. -/
def partBytes (data : Bytes) (partSize i : UInt32) : Go Bytes :=
  goSlice data (i * partSize).toNat (min data.length ((i + 1) * partSize).toNat)

namespace PartSet

/-- `Header`. -/
def Header (ps : PartSet) : PartSetHeader := ⟨ps.total, ps.hash⟩

/-- `IsComplete`. -/
def IsComplete (ps : PartSet) : Bool := ps.count == ps.total

/-- The parts in slot order, read from a `PartSetReader` until `io.EOF`; a `nil` slot is a nil
pointer dereference once the reader gets to it. -/
def readParts : List (Option Part) → Go Bytes
  | [] => pure []
  | none :: _ => throw (.panic "runtime error: invalid memory address or nil pointer dereference")
  | some part :: rest => do
    let bs ← readParts rest
    pure (part.bytes ++ bs)

/-- What `ioutil.ReadAll(ps.GetReader())` returns: `GetReader` panics on an incomplete set, and
`NewPartSetReader` starts at `parts[0]`. -/
def GetReader (ps : PartSet) : Go Bytes :=
  if !ps.IsComplete then throw (.panic "Cannot GetReader() on incomplete PartSet")
  else do
    let _ ← goIndex ps.parts 0
    readParts ps.parts

section Hash

variable (tmhash : Bytes → Bytes)

/-- `AddPart`, on a non-`nil` set.  Go's `(bool, error)` is `.ok added` or `.error err`. -/
def AddPart (ps : PartSet) (part : Part) : Go (Except String Bool × PartSet) :=
  if part.index ≥ ps.total then pure (.error ErrPartSetUnexpectedIndex, ps)
  else do
    let existing ← goIndex ps.parts part.index.toNat
    if existing.isSome then pure (.ok false, ps)
    else match part.proof.Verify tmhash ps.hash part.bytes with
      | .error _ => pure (.error ErrPartSetInvalidProof, ps)
      | .ok () => do
        let (_, partsBitArray) ← Bits.SetIndex ps.partsBitArray part.index.toNat true
        pure (.ok true, { ps with parts := ps.parts.set part.index.toNat (some part),
                                  partsBitArray := partsBitArray, count := ps.count + 1 })

/-- A run of `AddPart` calls, as the consensus state makes them for the block parts it
receives. -/
def addParts : PartSet → List Part → Go (List (Except String Bool) × PartSet)
  | ps, [] => pure ([], ps)
  | ps, part :: rest => do
    let (r, ps') ← ps.AddPart tmhash part
    let (rs, ps'') ← addParts ps' rest
    pure (r :: rs, ps'')

end Hash

end PartSet

/-- `NewPartSetFromData`: `total` is computed in `uint32`, and a zero part size is Go's integer
division panic. -/
def NewPartSetFromData (tmhash : Bytes → Bytes) (data : Bytes) (partSize : UInt32) :
    Go PartSet :=
  if partSize = 0 then throw (.panic "runtime error: integer divide by zero")
  else do
    let total : UInt32 := (data.length.toUInt32 + partSize - 1) / partSize
    let partsBytes ← (List.range total.toNat).mapM fun i => partBytes data partSize i.toUInt32
    let partsBitArray ← setAllTrue (Bits.NewBitArray total.toNat) total.toNat
    let (root, proofs) := Merkle.ProofsFromByteSlices tmhash partsBytes
    pure { total := total, hash := root,
           parts := (partsBytes.zip proofs).mapIdx fun i bp => some ⟨i.toUInt32, bp.1, bp.2⟩,
           partsBitArray := partsBitArray, count := total }

namespace PartSet

/-! ## The invariant of a received part set -/

/-- One slot per part, the count of filled slots, and a bit array of the right shape. -/
structure Inv (ps : PartSet) : Prop where
  parts_length : ps.parts.length = ps.total.toNat
  count_eq : ps.count.toNat = ps.parts.countP Option.isSome
  bitArray : ∀ a, ps.partsBitArray = some a → WellFormed a

lemma NewPartSetFromHeader_inv (header : PartSetHeader) : (NewPartSetFromHeader header).Inv where
  parts_length := by simp [NewPartSetFromHeader]
  count_eq := by simp [NewPartSetFromHeader, List.countP_replicate]
  bitArray := fun _ h => NewBitArray_wellFormed h

/-- Filling an empty slot adds one to the filled slots. -/
lemma countP_set_some {l : List (Option Part)} {i : Nat} (hi : l[i]? = some none) (p : Part) :
    (l.set i (some p)).countP Option.isSome = l.countP Option.isSome + 1 := by
  induction l generalizing i with
  | nil => simp at hi
  | cons o l ih =>
    cases i with
    | zero =>
      obtain rfl : o = none := by simpa using hi
      simp
    | succ i =>
      simp only [List.getElem?_cons_succ] at hi
      simp only [List.set_cons_succ, List.countP_cons, ih hi]
      omega

section Hash

variable (tmhash : Bytes → Bytes)

/-- `AddPart` accepts a part into any empty slot it names, as soon as the part's proof verifies
its bytes against the set's hash: the proof's own index is not looked at. -/
lemma AddPart_of_verify {ps : PartSet} (h : ps.Inv) {part : Part}
    (hlt : part.index.toNat < ps.total.toNat) (hslot : ps.parts[part.index.toNat]? = some none)
    (hv : part.proof.Verify tmhash ps.hash part.bytes = .ok ()) :
    ∃ ps', ps.AddPart tmhash part = .ok (.ok true, ps') ∧ ps'.Inv ∧ ps'.total = ps.total ∧
      ps'.hash = ps.hash ∧ ps'.parts = ps.parts.set part.index.toNat (some part) := by
  have hlen : part.index.toNat < ps.parts.length := h.parts_length ▸ hlt
  have hcount : ps.count.toNat < ps.total.toNat := by
    have hfull := List.countP_le_length (p := Option.isSome)
      (l := ps.parts.set part.index.toNat (some part))
    rw [countP_set_some hslot, List.length_set, ← h.count_eq, h.parts_length] at hfull
    omega
  obtain ⟨ok, bA', hset, hwf⟩ := SetIndex_ok h.bitArray (Int.natCast_nonneg part.index.toNat) true
  have hget : goIndex ps.parts (part.index.toNat : Int) = .ok none := by
    rw [goIndex_of_lt (by omega) (by simpa using hlen)]
    have hnone : ps.parts[part.index.toNat] = none := by
      simpa [List.getElem?_eq_getElem hlen] using hslot
    simp only [Int.toNat_natCast, hnone]
  refine ⟨{ ps with parts := ps.parts.set part.index.toNat (some part), partsBitArray := bA',
                    count := ps.count + 1 }, ?_, ⟨by simp [h.parts_length], ?_, hwf⟩,
    rfl, rfl, rfl⟩
  · rw [AddPart, if_neg (by simpa [UInt32.le_iff_toNat_le] using hlt), hget, ok_bind]
    simp only [Option.isSome_none, Bool.false_eq_true, if_false, hv, hset, ok_bind]
    rfl
  · rw [countP_set_some hslot, UInt32.toNat_add, UInt32.toNat_one, ← h.count_eq]
    have := ps.total.toNat_lt
    omega

/-- What one `AddPart` does on a set with the invariant: it does not panic and keeps the
invariant, and it either leaves the set as it was or fills the empty slot `part.Index` with a
part whose proof verifies against the set's hash. -/
lemma AddPart_inv {ps : PartSet} (h : ps.Inv) (part : Part) :
    ∃ r ps', ps.AddPart tmhash part = .ok (r, ps') ∧ ps'.Inv ∧ ps'.total = ps.total ∧
      ps'.hash = ps.hash ∧
      (ps' = ps ∨
        (r = .ok true ∧ ps.parts[part.index.toNat]? = some none ∧
          part.proof.Verify tmhash ps.hash part.bytes = .ok () ∧
          ps'.parts = ps.parts.set part.index.toNat (some part))) := by
  by_cases hidx : ps.total ≤ part.index
  · exact ⟨.error ErrPartSetUnexpectedIndex, ps, by rw [AddPart, if_pos hidx]; rfl, h, rfl, rfl,
      Or.inl rfl⟩
  have hlt : part.index.toNat < ps.total.toNat := by
    simpa [UInt32.le_iff_toNat_le] using hidx
  have hlen : part.index.toNat < ps.parts.length := h.parts_length ▸ hlt
  have hget : goIndex ps.parts (part.index.toNat : Int) = .ok ps.parts[part.index.toNat] :=
    goIndex_of_lt (by omega) (by simpa using hlen)
  cases hslot : ps.parts[part.index.toNat] with
  | some p =>
    -- the slot is taken: `(false, nil)`
    refine ⟨.ok false, ps, ?_, h, rfl, rfl, Or.inl rfl⟩
    rw [AddPart, if_neg hidx, hget, ok_bind, hslot]
    rfl
  | none =>
    have hnone : ps.parts[part.index.toNat]? = some none := by
      rw [List.getElem?_eq_getElem hlen, hslot]
    cases hv : part.proof.Verify tmhash ps.hash part.bytes with
    | error e =>
      refine ⟨.error ErrPartSetInvalidProof, ps, ?_, h, rfl, rfl, Or.inl rfl⟩
      rw [AddPart, if_neg hidx, hget, ok_bind, hslot]
      simp only [Option.isSome_none, Bool.false_eq_true, if_false, hv]
      rfl
    | ok u =>
      cases u
      obtain ⟨ps', hadd, h', ht, hh, hparts⟩ := AddPart_of_verify tmhash h hlt hnone hv
      exact ⟨_, ps', hadd, h', ht, hh, Or.inr ⟨rfl, hnone, rfl, hparts⟩⟩

/-- The run lemma: along any run of `AddPart` calls from a set with the invariant, nothing
panics and the invariant holds at the end. -/
theorem addParts_inv : ∀ (ps : PartSet) (parts : List Part), ps.Inv →
    ∃ rs ps', addParts tmhash ps parts = .ok (rs, ps') ∧ ps'.Inv ∧ ps'.total = ps.total ∧
      ps'.hash = ps.hash
  | ps, [], h => ⟨[], ps, rfl, h, rfl, rfl⟩
  | ps, part :: rest, h => by
    obtain ⟨r, ps1, hstep, h1, ht1, hh1, -⟩ := AddPart_inv tmhash h part
    obtain ⟨rs, ps2, hrun, h2, ht2, hh2⟩ := addParts_inv ps1 rest h1
    refine ⟨r :: rs, ps2, ?_, h2, ht2.trans ht1, hh2.trans hh1⟩
    simp only [addParts, hstep, ok_bind, hrun]
    rfl

/-- The one part of the data `[0]` under the identity hash, with its proof. -/
def onePart : Part := ⟨0, [0], ⟨1, 0, [0, 0], []⟩⟩

/-- From the header of `onePart`'s set: the part goes in, a second copy finds its slot taken,
and a part past the end is refused; the set is complete. -/
theorem addParts_inv_onePart :
    (NewPartSetFromHeader ⟨1, [0, 0]⟩).Inv ∧
      ∃ rs ps', addParts id (NewPartSetFromHeader ⟨1, [0, 0]⟩)
          [onePart, onePart, { onePart with index := 5 }] = .ok (rs, ps') ∧
        ps'.Inv ∧ ps'.total = (NewPartSetFromHeader ⟨1, [0, 0]⟩).total ∧
        ps'.hash = (NewPartSetFromHeader ⟨1, [0, 0]⟩).hash ∧
        rs = [.ok true, .ok false, .error ErrPartSetUnexpectedIndex] ∧ ps'.IsComplete = true := by
  have h₀ := NewPartSetFromHeader_inv ⟨1, [0, 0]⟩
  obtain ⟨rs, ps', hrun, hinv, ht, hh⟩ :=
    addParts_inv id (NewPartSetFromHeader ⟨1, [0, 0]⟩) [onePart, onePart, { onePart with index := 5 }] h₀
  have hrun' : addParts id (NewPartSetFromHeader ⟨1, [0, 0]⟩)
      [onePart, onePart, { onePart with index := 5 }] =
      .ok ([.ok true, .ok false, .error ErrPartSetUnexpectedIndex],
        ⟨1, [0, 0], [some onePart], some ⟨1, [1]⟩, 1⟩) := by decide +kernel
  rw [hrun'] at hrun
  cases hrun
  exact ⟨h₀, _, _, hrun', hinv, ht, hh, rfl, rfl⟩

end Hash

/-- A complete set has every slot filled. -/
lemma Inv.isSome_of_complete {ps : PartSet} (h : ps.Inv) (hc : ps.IsComplete = true) :
    ∀ o ∈ ps.parts, o.isSome = true := by
  have hct : ps.count = ps.total := by simpa [IsComplete] using hc
  have hall : ps.parts.countP Option.isSome = ps.parts.length := by
    rw [← h.count_eq, h.parts_length, hct]
  exact List.countP_eq_length.mp hall

lemma readParts_of_isSome : ∀ {parts : List (Option Part)}, (∀ o ∈ parts, o.isSome = true) →
    readParts parts = .ok (parts.reduceOption.flatMap Part.bytes)
  | [], _ => rfl
  | none :: _, h => by simp at h
  | some part :: rest, h => by
    rw [readParts, readParts_of_isSome fun o ho => h o (List.mem_cons_of_mem _ ho), ok_bind]
    simp [List.reduceOption_cons_of_some]
    rfl

/-- Reading a complete set of at least one part gives the parts' bytes in slot order. -/
theorem GetReader_of_complete {ps : PartSet} (h : ps.Inv) (hc : ps.IsComplete = true)
    (hpos : 0 < ps.total.toNat) :
    ps.GetReader = .ok (ps.parts.reduceOption.flatMap Part.bytes) := by
  have hlen : 0 < ps.parts.length := by rw [h.parts_length]; exact hpos
  rw [GetReader, hc, Bool.not_true, if_neg Bool.false_ne_true,
    goIndex_of_lt le_rfl (by simpa using hlen), ok_bind]
  exact readParts_of_isSome (h.isSome_of_complete hc)

/-- A set is complete when every slot is filled. -/
lemma Inv.isComplete_of_isSome {ps : PartSet} (h : ps.Inv) (hall : ∀ o ∈ ps.parts, o.isSome = true) :
    ps.IsComplete = true := by
  have hcount : ps.count.toNat = ps.total.toNat := by
    rw [h.count_eq, List.countP_eq_length.mpr hall, h.parts_length]
  simp [IsComplete, UInt32.toNat_inj.mp hcount]

/-! ## What the checks of `AddPart` let through -/

/-- The two parts of `[0, 1]` cut one byte each, each put in the other's slot: both are
accepted, whatever `tmhash` is, and the complete set reads back `[1, 0]`. -/
theorem AddPart_swappedParts (tmhash : Bytes → Bytes) :
    ∃ ps p0 p1, NewPartSetFromData tmhash [0, 1] 1 = .ok ps ∧ ps.parts = [some p0, some p1] ∧
      ∃ ps1 ps2,
        (NewPartSetFromHeader ps.Header).AddPart tmhash { p1 with index := 0 } =
          .ok (.ok true, ps1) ∧
        ps1.AddPart tmhash { p0 with index := 1 } = .ok (.ok true, ps2) ∧
        ps2.IsComplete = true ∧ ps2.GetReader = .ok [1, 0] := by
  -- the honest proofs of the two parts
  obtain ⟨q0, hq0, -, -, hv0⟩ := Merkle.ProofsFromByteSlices_verify tmhash [[0], [1]] 0 (by simp)
  obtain ⟨q1, hq1, -, -, hv1⟩ := Merkle.ProofsFromByteSlices_verify tmhash [[0], [1]] 1 (by simp)
  have hlen := Merkle.ProofsFromByteSlices_length tmhash [[0], [1]]
  have hrun : NewPartSetFromData tmhash [0, 1] 1 =
      match Merkle.ProofsFromByteSlices tmhash [[0], [1]] with
      | (root, proofs) =>
        .ok { total := 2, hash := root,
              parts := ([[0], [1]].zip proofs).mapIdx fun i bp => some ⟨i.toUInt32, bp.1, bp.2⟩,
              partsBitArray := some ⟨2, [3]⟩, count := 2 } := rfl
  generalize Merkle.ProofsFromByteSlices tmhash [[0], [1]] = P at hq0 hq1 hv0 hv1 hlen hrun
  obtain ⟨root, proofs⟩ := P
  obtain ⟨a, b, rfl⟩ : ∃ a b, proofs = [a, b] := by
    match proofs, hlen with
    | [a, b], _ => exact ⟨a, b, rfl⟩
  obtain rfl : a = q0 := by simpa using hq0
  obtain rfl : b = q1 := by simpa using hq1
  simp only at hv0 hv1
  refine ⟨_, ⟨0, [0], a⟩, ⟨1, [1], b⟩, hrun, rfl, ?_⟩
  -- the receiver's set, and the two swapped parts going in
  have h0 := NewPartSetFromHeader_inv ⟨2, root⟩
  obtain ⟨ps1, hadd1, h1, ht1, hh1, hparts1⟩ :=
    @AddPart_of_verify tmhash _ h0 ⟨0, [1], b⟩ (by simp [NewPartSetFromHeader]) rfl hv1
  obtain ⟨ps2, hadd2, h2, ht2, hh2, hparts2⟩ :=
    @AddPart_of_verify tmhash _ h1 ⟨1, [0], a⟩ (by simp [ht1, NewPartSetFromHeader])
      (by rw [hparts1]; rfl) (by rw [hh1]; exact hv0)
  have hall : ps2.parts = [some ⟨0, [1], b⟩, some ⟨1, [0], a⟩] := by
    rw [hparts2, hparts1]
    rfl
  have hc : ps2.IsComplete = true := h2.isComplete_of_isSome (by simp [hall])
  refine ⟨ps1, ps2, hadd1, hadd2, hc, ?_⟩
  rw [GetReader_of_complete h2 hc (by simp [ht2, ht1, NewPartSetFromHeader]), hall]
  rfl

/-- When `len(data) + partSize` passes `2^32`, the part count of `NewPartSetFromData` wraps to
zero: the set has no parts, a receiver's set for its header is complete at once, and reading it
panics. -/
theorem NewPartSetFromData_wraps (tmhash : Bytes → Bytes) (data : Bytes) (partSize : UInt32)
    (hpos : partSize ≠ 0) (hlen : data.length < 2 ^ 32)
    (hwrap : 2 ^ 32 < data.length + partSize.toNat) :
    ∃ ps, NewPartSetFromData tmhash data partSize = .ok ps ∧ ps.total = 0 ∧
      (NewPartSetFromHeader ps.Header).IsComplete = true ∧
      (NewPartSetFromHeader ps.Header).GetReader =
        .error (.panic "runtime error: index out of range") := by
  have hps : 0 < partSize.toNat := by
    have : partSize.toNat ≠ 0 := fun h => hpos (UInt32.toNat_inj.mp h)
    omega
  have htotal : (data.length.toUInt32 + partSize - 1) / partSize = 0 := by
    apply UInt32.toNat_inj.mp
    have hsum : (data.length.toUInt32 + partSize - 1).toNat < partSize.toNat := by
      have := partSize.toNat_lt
      simp only [UInt32.toNat_sub, UInt32.toNat_add, UInt32.toNat_ofNat', UInt32.toNat_one]
      omega
    rw [UInt32.toNat_div, Nat.div_eq_of_lt hsum]
    rfl
  have hrun : NewPartSetFromData tmhash data partSize = .ok ⟨0, Merkle.emptyHash tmhash, [], none, 0⟩ := by
    have hbytes : (List.range (0 : UInt32).toNat).mapM
        (fun i => partBytes data partSize i.toUInt32) = .ok [] := rfl
    have hbits : setAllTrue (Bits.NewBitArray (0 : UInt32).toNat) (0 : UInt32).toNat = .ok none :=
      rfl
    rw [NewPartSetFromData, if_neg hpos]
    simp only [htotal, hbytes, hbits, ok_bind, Merkle.ProofsFromByteSlices_nil]
    rfl
  exact ⟨_, hrun, rfl, rfl, rfl⟩

/-- Two bytes cut in parts of `2^32 - 1` bytes: the count wraps to zero. -/
theorem NewPartSetFromData_wraps_twoBytes :
    (4294967295 : UInt32) ≠ 0 ∧ [0, 0].length < 2 ^ 32 ∧
      2 ^ 32 < [0, 0].length + (4294967295 : UInt32).toNat ∧
      ∃ ps, NewPartSetFromData id [0, 0] 4294967295 = .ok ps ∧ ps.total = 0 ∧
        (NewPartSetFromHeader ps.Header).IsComplete = true ∧
        (NewPartSetFromHeader ps.Header).GetReader =
          .error (.panic "runtime error: index out of range") :=
  ⟨by decide, by decide, by decide,
    NewPartSetFromData_wraps id [0, 0] 4294967295 (by decide) (by decide) (by decide)⟩

end PartSet

end Tendermint
