import Tendermint.Types.VoteSet

/-!
# Bit arrays as words (`libs/bits/bit_array.go`)

`bits.BitArray` stores `Bits` bits in the 64-bit words `Elems`.  The vote set model reads a
bit array as the list of its bits; here it is the Go representation, with the two fields
independent, as `FromProto` fills them from a peer's message.  Bit `i` lives in word `i / 64`,
so an array whose words are fewer than `ceil(Bits / 64)` makes `setIndex` and
`getTrueIndices` index past the words, which is a Go run-time panic.

`WellFormed` is the shape `NewBitArray` gives: `ceil(Bits / 64)` words for a positive `Bits`.
On a well-formed array `setIndex` never panics and keeps the shape (`WellFormed.setIndex_ok`,
`SetIndex_ok`), and `Sub` against any array never panics either (`Sub_ok`).  `FromProto` does
not check the shape (`FromProto_not_wellFormed`).

The bits of the last word past `Bits` are padding.  `Not` complements them and `Update` copies
a longer array's in, while `IsEmpty` reads whole words; and the array of no bits that
`UnmarshalJSON("null")` leaves is written by `MarshalJSON` as `""`, on which `UnmarshalJSON`
panics (`Not_IsEmpty_UnmarshalJSON_panics`).
-/

namespace Tendermint

namespace Bits

open ExceptRun

/-- `bits.BitArray`, and its proto form `tmprotobits.BitArray`, which has the same fields. -/
structure BitArray where
  bits : Int
  elems : List UInt64
  deriving DecidableEq, Repr

/-- Go's `make([]uint64, n)`: a panic for a negative length. -/
def goMake (n : Int) : Go (List UInt64) :=
  if n < 0 then throw (.panic "runtime error: makeslice: len out of range")
  else pure (List.replicate n.toNat 0)

/-- Go's `copy(c, src)`: the first `min(len c, len src)` entries of `c` replaced by those of
`src`. -/
def goCopy (c src : List UInt64) : List UInt64 :=
  List.zipWith (fun _ e => e) c src ++ c.drop src.length

@[simp] lemma goCopy_length (c src : List UInt64) : (goCopy c src).length = c.length := by
  simp [goCopy]
  omega

/-- The number of words of `bits` bits, `(bits+63)/64` with Go's truncating division. -/
def numWords (bits : Int) : Int := (bits + 63).tdiv 64

/-- `NewBitArray`: `nil` for no bits. -/
def NewBitArray (bits : Int) : Option BitArray :=
  if bits ≤ 0 then none
  else some { bits := bits, elems := List.replicate (numWords bits).toNat 0 }

/-- `Size`, on a possibly `nil` array. -/
def Size : Option BitArray → Int
  | none => 0
  | some bA => bA.bits

/-- `uint64(1) << uint(i%64)`: the mask of bit `i` in its word.  Go's shift of a `uint64` by 64
or more is `0`, which is what a negative `i` gives, `uint(i%64)` being huge then. -/
def bitMask (i : Int) : UInt64 :=
  let s := i.tmod 64
  if 0 ≤ s then (1 : UInt64) <<< s.toNat.toUInt64 else 0

/-- The mask `uint64(1) << uint64(j)` of a loop index `j`. -/
def loopMask (j : Nat) : UInt64 := if j < 64 then (1 : UInt64) <<< j.toUInt64 else 0

namespace BitArray

/-- `getIndex`. -/
def getIndex (bA : BitArray) (i : Int) : Go Bool :=
  if i ≥ bA.bits then pure false
  else do
    let e ← goIndex bA.elems (i.tdiv 64)
    pure ((e &&& bitMask i) > 0)

/-- `setIndex`: `false` past the last bit, and otherwise the word of bit `i` updated in place. -/
def setIndex (bA : BitArray) (i : Int) (v : Bool) : Go (Bool × BitArray) :=
  if i ≥ bA.bits then pure (false, bA)
  else do
    let e ← goIndex bA.elems (i.tdiv 64)
    let e' := if v then e ||| bitMask i else e &&& ~~~(bitMask i)
    pure (true, { bA with elems := bA.elems.set (i.tdiv 64).toNat e' })

/-- `copy`. -/
def copy (bA : BitArray) : BitArray := bA

/-- `copyBits`: `ceil(bits / 64)` words, the first ones copied from `bA`. -/
def copyBits (bA : BitArray) (bits : Int) : Go BitArray := do
  let c ← goMake (numWords bits)
  pure { bits := bits, elems := goCopy c bA.elems }

/-- The loop of `Sub` from word `i` on, for `k` more words. -/
def subWords (o : List UInt64) : Nat → Nat → List UInt64 → Go (List UInt64)
  | _, 0, c => pure c
  | i, k + 1, c => do
    let ci ← goIndex c i
    let oi ← goIndex o i
    subWords o (i + 1) k (c.set i (ci &&& ~~~oi))

/-- The set bits of the word `elem`, the first standing for bit `curBit`, over `n` bits. -/
def wordIndices (elem : UInt64) (curBit : Int) (n : Nat) : List Int :=
  (List.range n).filterMap fun j => if (elem &&& loopMask j) > 0 then some (curBit + j) else none

/-- The loop of `getTrueIndices` over all words but the last, from bit `curBit` on. -/
def frontIndices : List UInt64 → Int → List Int × Int
  | [], curBit => ([], curBit)
  | elem :: rest, curBit =>
    let (found, curBit') := frontIndices rest (curBit + 64)
    ((if elem = 0 then [] else wordIndices elem curBit 64) ++ found, curBit')

/-- `getTrueIndices`: the last word is read at `Elems[numElems-1]`, which panics when there
are no words. -/
def getTrueIndices (bA : BitArray) : Go (List Int) := do
  let numElems : Int := bA.elems.length
  let (front, curBit) := frontIndices (bA.elems.take (numElems - 1).toNat) 0
  let lastElem ← goIndex bA.elems (numElems - 1)
  let numFinalBits := bA.bits - curBit
  pure (front ++ wordIndices lastElem curBit numFinalBits.toNat)

/-- The loops of `Or` and `And` from word `i` on, for `k` more words: `c[i] = op c[i] o[i]`. -/
def mergeWords (op : UInt64 → UInt64 → UInt64) (o : List UInt64) :
    Nat → Nat → List UInt64 → Go (List UInt64)
  | _, 0, c => pure c
  | i, k + 1, c => do
    let ci ← goIndex c i
    let oi ← goIndex o i
    mergeWords op o (i + 1) k (c.set i (op ci oi))

/-- `and`: the copy over the fewer bits, each of its words masked by `o`'s. -/
def and (bA o : BitArray) : Go BitArray := do
  let c ← bA.copyBits (min bA.bits o.bits)
  let elems ← mergeWords (· &&& ·) o.elems 0 c.elems.length c.elems
  pure { c with elems := elems }

/-- `not`: every word of the copy complemented, the bits past `Bits` in the last word too. -/
def not (bA : BitArray) : BitArray := { bA.copy with elems := bA.copy.elems.map (~~~ ·) }

end BitArray


/-- `SetIndex`, on a possibly `nil` array. -/
def SetIndex : Option BitArray → Int → Bool → Go (Bool × Option BitArray)
  | none, _, _ => pure (false, none)
  | some bA, i, v => do
    let (ok, bA') ← bA.setIndex i v
    pure (ok, some bA')

/-- `Copy`. -/
def Copy : Option BitArray → Option BitArray
  | none => none
  | some bA => some bA.copy

/-- `Sub`: the bits of `bA` that are not set in `o`, over as many words as both have. -/
def Sub : Option BitArray → Option BitArray → Go (Option BitArray)
  | some bA, some o => do
    let c ← bA.copyBits bA.bits
    let elems ← BitArray.subWords o.elems 0 (min bA.elems.length o.elems.length) c.elems
    pure (some { c with elems := elems })
  | _, _ => pure none

/-- `PickRandom`; `draw` stands for `tmrand.Intn`, read modulo the number of set bits. -/
def PickRandom (bA : Option BitArray) (draw : Nat) : Go (Int × Bool) :=
  match bA with
  | none => pure (0, false)
  | some bA => do
    let trueIndices ← bA.getTrueIndices
    match trueIndices with
    | [] => pure (0, false)
    | t :: ts => pure (((t :: ts)[draw % (ts.length + 1)]?).getD 0, true)

/-- `Or`: over the more bits, `o`'s words or-ed into the copy over as many words as both
have. -/
def Or : Option BitArray → Option BitArray → Go (Option BitArray)
  | none, none => pure none
  | none, some o => pure (Copy (some o))
  | some bA, none => pure (Copy (some bA))
  | some bA, some o => do
    let c ← bA.copyBits (max bA.bits o.bits)
    let elems ← BitArray.mergeWords (· ||| ·) o.elems 0 (min bA.elems.length o.elems.length)
      c.elems
    pure (some { c with elems := elems })

/-- `And`. -/
def And : Option BitArray → Option BitArray → Go (Option BitArray)
  | some bA, some o => some <$> bA.and o
  | _, _ => pure none

/-- `Not`. -/
def Not : Option BitArray → Option BitArray
  | none => none
  | some bA => some bA.not

/-- `IsEmpty`: no word has a bit set. -/
def IsEmpty : Option BitArray → Bool
  | none => true
  | some bA => !bA.elems.any (· > 0)

/-- `IsFull`: every word but the last is all ones, and the last has its `(Bits+63)%64+1` low
bits set.  `Elems[:len(Elems)-1]` panics when there are no words. -/
def IsFull : Option BitArray → Go Bool
  | none => pure true
  | some bA =>
    match bA.elems.reverse with
    | [] => throw (.panic "runtime error: slice bounds out of range [:-1]")
    | lastElem :: revFront =>
      if revFront.any (fun elem => ~~~elem ≠ 0) then pure false
      else
        let lastElemBits := ((bA.bits + 63).tmod 64 + 1).toNat
        pure ((lastElem + 1) &&& (loopMask lastElemBits - 1) = 0)

/-- `Update`: `copy(bA.Elems, o.Elems)`, the receiver keeping its `Bits` and its number of
words. -/
def Update : Option BitArray → Option BitArray → Option BitArray
  | some bA, some o => some { bA with elems := goCopy bA.elems o.elems }
  | bA, _ => bA

/-! ## JSON -/

/-- The double quote. -/
def quoteChar : Char := '\x22'

/-- `MarshalJSON`: `x` for a set bit and `_` for a clear one, between quotes. -/
def MarshalJSON : Option BitArray → Go String
  | none => pure "null"
  | some bA => do
    let bits ← (List.range bA.bits.toNat).mapM fun i => do
      let b ← bA.getIndex i
      pure (if b then 'x' else '_')
    pure (String.ofList (quoteChar :: bits ++ [quoteChar]))

/-- The group of ``bitArrayJSONRegexp``, ``\A"([_x]*)"\z``: the characters between a first and a
last quote, when all of them are ``_`` or ``x``. -/
def jsonBits (b : String) : Option (List Char) :=
  match b.toList with
  | [] => none
  | first :: rest =>
    match rest.reverse with
    | [] => none
    | last :: body =>
      if first = quoteChar ∧ last = quoteChar ∧ body.all (fun c => c == '_' || c == 'x') then
        some body.reverse
      else none

/-- The loop of `UnmarshalJSON`: bit `i` set for each `x`. -/
def setJSONBits : Option BitArray → Nat → List Char → Go (Option BitArray)
  | bA, _, [] => pure bA
  | bA, i, c :: rest => do
    let bA ← if c = 'x' then Prod.snd <$> SetIndex bA i true else pure bA
    setJSONBits bA (i + 1) rest

/-- `UnmarshalJSON` into the array `bA`: its new value.  The new array is built by
`NewBitArray(numBits)` and stored by `*bA = *bA2`, which reads through the `nil` that
`NewBitArray(0)` returns. -/
def UnmarshalJSON (bA : BitArray) (b : String) : Go BitArray :=
  if b = "null" then pure { bA with bits := 0, elems := [] }
  else match jsonBits b with
    | none => throw (.err ("bitArray in JSON should be a string of format " ++
        "\"\\\\A\\\"([_x]*)\\\"\\\\z\" but got " ++ b))
    | some bits => do
      let bA2 ← setJSONBits (NewBitArray bits.length) 0 bits
      match bA2 with
      | none => throw (.panic nilDereference)
      | some bA2 => pure bA2

/-- `ToProto`: `nil` for a `nil` array and for one without words. -/
def ToProto : Option BitArray → Option BitArray
  | none => none
  | some bA => if bA.elems.length = 0 then none else some bA

/-- `FromProto` on the array `bA`: `Bits` is copied, and `Elems` when the proto has any.  A
`nil` proto leaves `bA` as it was (Go only clears its local copy of the pointer). -/
def FromProto (bA : BitArray) : Option BitArray → BitArray
  | none => bA
  | some p => { bits := p.bits, elems := if p.elems.length > 0 then p.elems else bA.elems }

/-! ## Well-formed arrays -/

/-- The shape `NewBitArray` gives: a positive number of bits, in exactly the words they need. -/
structure WellFormed (bA : BitArray) : Prop where
  bits_pos : 0 < bA.bits
  length_eq : bA.elems.length = (numWords bA.bits).toNat

lemma NewBitArray_wellFormed {bits : Int} {bA : BitArray} (h : NewBitArray bits = some bA) :
    WellFormed bA := by
  unfold NewBitArray at h
  split at h
  · cases h
  · rename_i hb
    cases h
    exact ⟨show 0 < bits by omega, by simp⟩

/-- The word of a bit below `Bits` is among the words of a well-formed array. -/
lemma WellFormed.word_lt {bA : BitArray} (h : WellFormed bA) {i : Int} (h0 : 0 ≤ i)
    (hi : i < bA.bits) : (i.tdiv 64).toNat < bA.elems.length := by
  rw [h.length_eq, numWords, Int.tdiv_eq_ediv_of_nonneg h0,
    Int.tdiv_eq_ediv_of_nonneg (by omega)]
  omega

lemma WellFormed.setIndex_ok {bA : BitArray} (h : WellFormed bA) {i : Int} (h0 : 0 ≤ i)
    (v : Bool) : ∃ ok bA', bA.setIndex i v = .ok (ok, bA') ∧ WellFormed bA' := by
  unfold BitArray.setIndex
  by_cases hi : i ≥ bA.bits
  · rw [if_pos hi]
    exact ⟨false, bA, rfl, h⟩
  · have hw := h.word_lt h0 (by omega)
    rw [if_neg hi, goIndex_of_lt (Int.tdiv_nonneg h0 (by decide)) hw, ok_bind]
    exact ⟨true, _, rfl, h.bits_pos, by simpa using h.length_eq⟩

/-- Marking a bit of a well-formed array never panics, and keeps it well formed. -/
lemma SetIndex_ok {bA : Option BitArray} (h : ∀ a, bA = some a → WellFormed a) {i : Int}
    (h0 : 0 ≤ i) (v : Bool) :
    ∃ ok bA', SetIndex bA i v = .ok (ok, bA') ∧ ∀ a, bA' = some a → WellFormed a := by
  cases bA with
  | none => exact ⟨false, none, rfl, fun _ h => by cases h⟩
  | some a =>
    obtain ⟨ok, a', ha, hwf⟩ := (h a rfl).setIndex_ok h0 v
    refine ⟨ok, some a', ?_, fun b hb => by cases hb; exact hwf⟩
    simp [SetIndex, ha, pure, Except.pure]

lemma subWords_ok (o : List UInt64) :
    ∀ (i k : Nat) (ws : List UInt64), i + k ≤ ws.length → i + k ≤ o.length →
      ∃ ws', BitArray.subWords o i k ws = .ok ws' ∧ ws'.length = ws.length
  | _, 0, ws, _, _ => ⟨ws, rfl, rfl⟩
  | i, k + 1, ws, hws, ho => by
    have hwi : i < ws.length := by omega
    have hoi : i < o.length := by omega
    obtain ⟨ws', hrun, hlen⟩ := subWords_ok o (i + 1) k (ws.set i (ws[i] &&& ~~~o[i]))
      (by simp; omega) (by omega)
    refine ⟨ws', ?_, by simpa using hlen⟩
    simp only [BitArray.subWords]
    rw [goIndex_of_lt (by omega) (by simp; omega), ok_bind,
      goIndex_of_lt (by omega) (by simp; omega), ok_bind]
    simpa using hrun

/-- `Sub` of a well-formed array never panics, whatever the other array, and its result has
the shape of the first. -/
lemma Sub_ok {bA : BitArray} (h : WellFormed bA) (o : Option BitArray) :
    ∃ c, Sub (some bA) o = .ok c ∧ ∀ a, c = some a → WellFormed a := by
  cases o with
  | none => exact ⟨none, rfl, fun _ h => by cases h⟩
  | some o =>
    have hn : 0 ≤ numWords bA.bits := by
      unfold numWords
      exact Int.tdiv_nonneg (by have := h.bits_pos; omega) (by decide)
    have hmake : goMake (numWords bA.bits) = .ok (List.replicate (numWords bA.bits).toNat 0) := by
      simp [goMake, hn, pure, Except.pure]
    have hcopy : bA.copyBits bA.bits =
        .ok ⟨bA.bits, goCopy (List.replicate (numWords bA.bits).toNat 0) bA.elems⟩ := by
      simp only [BitArray.copyBits, hmake, ok_bind]
      rfl
    have hlenc : (goCopy (List.replicate (numWords bA.bits).toNat 0) bA.elems).length =
        (numWords bA.bits).toNat := by
      simp
    obtain ⟨c', hsub, hlen⟩ := subWords_ok o.elems 0 (min bA.elems.length o.elems.length) _
      (by rw [hlenc, ← h.length_eq]; omega) (by omega)
    refine ⟨some ⟨bA.bits, c'⟩, ?_, fun a ha => ?_⟩
    · simp only [Sub, hcopy, ok_bind, hsub]
      rfl
    · cases ha
      exact ⟨h.bits_pos, by rw [hlen, hlenc]⟩

lemma wordIndices_nonneg {elem : UInt64} {curBit : Int} (h : 0 ≤ curBit) (n : Nat) :
    ∀ x ∈ BitArray.wordIndices elem curBit n, 0 ≤ x := by
  intro x hx
  simp only [BitArray.wordIndices, List.mem_filterMap, List.mem_range] at hx
  obtain ⟨j, -, hj⟩ := hx
  split at hj
  · cases hj
    omega
  · cases hj

lemma frontIndices_nonneg :
    ∀ (words : List UInt64) (curBit : Int), 0 ≤ curBit →
      (∀ x ∈ (BitArray.frontIndices words curBit).1, 0 ≤ x) ∧
        0 ≤ (BitArray.frontIndices words curBit).2
  | [], _, h => ⟨by simp [BitArray.frontIndices], h⟩
  | elem :: rest, curBit, h => by
    obtain ⟨hf, hc⟩ := frontIndices_nonneg rest (curBit + 64) (by omega)
    refine ⟨fun x hx => ?_, hc⟩
    simp only [BitArray.frontIndices, List.mem_append] at hx
    rcases hx with hx | hx
    · split at hx
      · simp at hx
      · exact wordIndices_nonneg h 64 x hx
    · exact hf x hx

/-- `getTrueIndices` reads its last word without a panic on an array with words, and finds bits
at non-negative positions. -/
lemma getTrueIndices_ok {bA : BitArray} (h : bA.elems ≠ []) :
    ∃ l, bA.getTrueIndices = .ok l ∧ ∀ x ∈ l, 0 ≤ x := by
  have hlen : 0 < bA.elems.length := List.length_pos_iff.mpr h
  obtain ⟨hf, hc⟩ := frontIndices_nonneg (bA.elems.take ((bA.elems.length : Int) - 1).toNat) 0
    le_rfl
  have hlast : goIndex bA.elems ((bA.elems.length : Int) - 1) =
      .ok bA.elems[bA.elems.length - 1] := by
    rw [goIndex_of_lt (by omega) (by omega)]
    congr 2
    omega
  set p := BitArray.frontIndices (bA.elems.take ((bA.elems.length : Int) - 1).toNat) 0 with hp
  refine ⟨p.1 ++ BitArray.wordIndices bA.elems[bA.elems.length - 1] p.2 (bA.bits - p.2).toNat,
    ?_, ?_⟩
  · unfold BitArray.getTrueIndices
    dsimp only
    rw [← hp, hlast, ok_bind]
    rfl
  · intro x hx
    simp only [List.mem_append] at hx
    rcases hx with hx | hx
    · exact hf x hx
    · exact wordIndices_nonneg hc _ x hx

lemma WellFormed.elems_ne_nil {bA : BitArray} (h : WellFormed bA) : bA.elems ≠ [] := by
  intro hnil
  have hl := h.length_eq
  have hb := h.bits_pos
  rw [hnil, numWords, Int.tdiv_eq_ediv_of_nonneg (by omega)] at hl
  simp at hl
  omega

/-- `PickRandom` of a well-formed array never panics, and picks a non-negative index. -/
lemma PickRandom_ok {bA : Option BitArray} (h : ∀ a, bA = some a → WellFormed a) (draw : Nat) :
    ∃ i ok, PickRandom bA draw = .ok (i, ok) ∧ 0 ≤ i := by
  cases bA with
  | none => exact ⟨0, false, rfl, le_rfl⟩
  | some a =>
    obtain ⟨l, hl, hnn⟩ := getTrueIndices_ok (h a rfl).elems_ne_nil
    cases l with
    | nil => exact ⟨0, false, by simp [PickRandom, hl, pure, Except.pure], le_rfl⟩
    | cons t ts =>
      refine ⟨_, true, by simp only [PickRandom, hl, ok_bind]; rfl, ?_⟩
      cases hget : (t :: ts)[draw % (ts.length + 1)]? with
      | none => simp
      | some x => exact hnn x (List.mem_of_getElem? hget)

/-- `FromProto` takes the two fields as they come: one bit and no words is accepted. -/
lemma FromProto_not_wellFormed :
    FromProto ⟨0, []⟩ (some ⟨1, []⟩) = ⟨1, []⟩ ∧ ¬ WellFormed ⟨1, []⟩ :=
  ⟨rfl, fun h => by have := h.length_eq; simp [numWords] at this⟩

/-! ## Where the words and the bits part -/

/-- **`IsEmpty` reads the words, and `UnmarshalJSON` panics on what `MarshalJSON` writes.**  Set
the one bit of `NewBitArray(1)` and take `Not`: no bit below `Bits` is set, but the complemented
padding of the word makes `IsEmpty` false.  `UnmarshalJSON("null")` leaves an array of no bits,
which `MarshalJSON` writes as `""`; `UnmarshalJSON` of `""` stores the `nil` of
`NewBitArray(0)` and panics, whatever array it decodes into. -/
theorem Not_IsEmpty_UnmarshalJSON_panics :
    SetIndex (NewBitArray 1) 0 true = .ok (true, some ⟨1, [1]⟩) ∧
      Bits.Not (some ⟨1, [1]⟩) = some ⟨1, [~~~1]⟩ ∧
      (⟨1, [~~~1]⟩ : BitArray).getIndex 0 = .ok false ∧
      Bits.IsEmpty (some ⟨1, [~~~1]⟩) = false ∧
    (∀ bA, UnmarshalJSON bA "null" = .ok ⟨0, []⟩) ∧
      MarshalJSON (some ⟨0, []⟩) = .ok (String.ofList [quoteChar, quoteChar]) ∧
      ∀ bA, UnmarshalJSON bA (String.ofList [quoteChar, quoteChar]) =
        .error (.panic nilDereference) :=
  ⟨rfl, rfl, by decide, by decide, fun _ => rfl, by decide, fun _ => rfl⟩

end Bits

end Tendermint
