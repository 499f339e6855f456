import Tendermint.Types.Basic
import Tendermint.Lib.Except
import Tendermint.Lib.BufferPool

/-!
# Frames of a secret connection (`p2p/conn/secret_connection.go`)

`Write` cuts its data into chunks of at most `dataMaxSize` bytes and sends each as one sealed
frame: a four-byte little-endian length, the chunk, and padding up to `totalFrameSize`, sealed
under the send key and the current send nonce, after which the nonce is incremented.  `Read`
hands out what is left of the last frame first (`recvBuffer`); otherwise it reads one sealed frame
off the connection, opens it under the receive nonce and returns as much of its chunk as the
caller's buffer holds, keeping the rest.

Both borrow their buffers from a process-wide pool (`go-buffer-pool`), a parameter here
(`Lib.BufferPool`): it hands out a buffer at least as long as asked, and says nothing of what
the buffer holds, which may be what another call put back.  `Write` overwrites only the length
and the chunk of its frame, so the padding it seals is whatever the buffer held before: a frame
another connection's `Read` decrypted, for instance, which its deferred `Put`s hand back to the
pool.  What a frame carries is not a function of the key, the nonce and the chunk alone
(`Write_stalePadding`): for every pool, two pool states whose frame buffers differ past the chunk
send different frames.

What the peer's `Read`s return is still the written byte stream, over any pool that keeps its
law: whatever their buffer sizes,
their output is a prefix of the concatenated writes, and all of it once there have been as many
non-empty reads as bytes (`readAll_writeAll`).  The proof is a simulation: a receiver holding the
frames of some chunks, and a remainder of an earlier chunk, has those bytes pending, and a `Read`
hands out a first part of them (`Read_step`).

The AEAD is a pair of functions of the nonce, for one key; the stream theorem assumes that opening
undoes sealing and that sealing adds `aeadSizeOverhead` bytes.
-/

namespace Tendermint

namespace SecretConnection

/-- `dataLenSize`. -/
def dataLenSize : Nat := 4

/-- `dataMaxSize`. -/
def dataMaxSize : Nat := 1024

/-- `totalFrameSize`. -/
def totalFrameSize : Nat := dataMaxSize + dataLenSize

/-- `aeadSizeOverhead`, the Poly1305 tag. -/
def aeadSizeOverhead : Nat := 16

/-- `math.MaxUint64`. -/
def MaxUint64 : UInt64 := 18446744073709551615

/-- `binary.LittleEndian.PutUint32` of a length. -/
def putUint32 (v : Nat) : Bytes :=
  [v.toUInt8, (v >>> 8).toUInt8, (v >>> 16).toUInt8, (v >>> 24).toUInt8]

/-- `binary.LittleEndian.Uint32` of the first four bytes. -/
def uint32 (b : Bytes) : Nat :=
  (b.getD 0 0).toNat + (b.getD 1 0).toNat * 2 ^ 8 + (b.getD 2 0).toNat * 2 ^ 16 +
    (b.getD 3 0).toNat * 2 ^ 24

/-- A ChaCha20-Poly1305 AEAD under one key, by its two functions of the nonce counter. -/
structure Aead where
  Seal : UInt64 → Bytes → Bytes
  Open : UInt64 → Bytes → Option Bytes

/-- `incrNonce`: the counter in the last eight bytes of the nonce, incremented, with a panic
instead of the wrap-around. -/
def incrNonce (counter : UInt64) : Go UInt64 :=
  if counter = MaxUint64 then throw (.panic "can't increase nonce without overflow")
  else pure (counter + 1)

/-! ## Writing -/

variable {σ : Type}

/-- The sending half of a connection, with the state of the process's pool. -/
structure SendState (σ : Type) where
  sendNonce : UInt64
  pool : σ

/-- `PutUint32(frame, len(chunk))` and `copy(frame[dataLenSize:], chunk)` on a pooled array: the
rest of the array keeps what it held. -/
def fillFrame (buf chunk : Bytes) : Bytes :=
  putUint32 chunk.length ++ chunk ++ buf.drop (dataLenSize + chunk.length)

/-- One pass of the loop of `Write`: the sealed frame of one chunk. -/
def writeChunk (pool : BufferPool σ UInt8) (aead : Aead) (chunk : Bytes) (s : SendState σ) :
    Go (Bytes × SendState σ) := do
  let (sealedFrame, st) := pool.Get s.pool (aeadSizeOverhead + totalFrameSize)
  let (frame, st) := pool.Get st totalFrameSize
  let frame := fillFrame frame chunk
  let sealed := aead.Seal s.sendNonce (frame.take totalFrameSize)
  let sendNonce ← incrNonce s.sendNonce
  -- the deferred `Put`s: the sealed buffer, then the frame
  pure (sealed, ⟨sendNonce, pool.Put (pool.Put st (sealed ++ sealedFrame.drop sealed.length)) frame⟩)

/-- `Write`: the sealed frames sent on the connection, chunk by chunk. -/
def Write (pool : BufferPool σ UInt8) (aead : Aead) (data : Bytes) (s : SendState σ) :
    Go (List Bytes × SendState σ) :=
  if dataMaxSize < data.length then do
    let (sealed, s) ← writeChunk pool aead (data.take dataMaxSize) s
    let (frames, s) ← Write pool aead (data.drop dataMaxSize) s
    pure (sealed :: frames, s)
  else if 0 < data.length then do
    let (sealed, s) ← writeChunk pool aead data s
    pure ([sealed], s)
  else pure ([], s)
termination_by data.length
decreasing_by simp only [List.length_drop]; unfold dataMaxSize at *; omega

/-- Successive `Write`s on one connection, stopping at the first failure. -/
def writeAll (pool : BufferPool σ UInt8) (aead : Aead) :
    List Bytes → SendState σ → Go (List Bytes × SendState σ)
  | [], s => pure ([], s)
  | data :: rest, s => do
    let (frames, s) ← Write pool aead data s
    let (frames', s) ← writeAll pool aead rest s
    pure (frames ++ frames', s)

/-! ## Reading -/

/-- The receiving half of a connection, with the state of the process's pool and the bytes the
underlying connection still holds. -/
structure RecvState (σ : Type) where
  recvNonce : UInt64
  recvBuffer : Bytes
  pool : σ
  conn : Bytes

/-- `io.ReadFull(conn, buf)`: exactly `n` bytes, or an error when the connection has fewer. -/
def readFull (conn : Bytes) (n : Nat) : Go (Bytes × Bytes) :=
  if conn = [] then throw (.err "EOF")
  else if conn.length < n then throw (.err "unexpected EOF")
  else pure (conn.take n, conn.drop n)

/-- The chunk of an opened frame: `frame[dataLenSize : dataLenSize+chunkLength]`. -/
def chunkOfFrame (frame : Bytes) : Go Bytes :=
  let chunkLength := uint32 frame
  if chunkLength > dataMaxSize then throw (.err "chunkLength is greater than dataMaxSize")
  else pure ((frame.drop dataLenSize).take chunkLength)

/-- `Read` into a buffer of `len` bytes: the bytes it copies there. -/
def Read (pool : BufferPool σ UInt8) (aead : Aead) (len : Nat) (s : RecvState σ) :
    Go (Bytes × RecvState σ) :=
  if 0 < s.recvBuffer.length then
    let n := min len s.recvBuffer.length
    pure (s.recvBuffer.take n, { s with recvBuffer := s.recvBuffer.drop n })
  else do
    let (sealedFrame, st) := pool.Get s.pool (aeadSizeOverhead + totalFrameSize)
    let (sealed, conn) ← readFull s.conn (aeadSizeOverhead + totalFrameSize)
    let (frame, st) := pool.Get st totalFrameSize
    match aead.Open s.recvNonce sealed with
    | none => throw (.err "failed to decrypt SecretConnection")
    | some plain =>
      let frame := plain ++ frame.drop plain.length
      let recvNonce ← incrNonce s.recvNonce
      let chunk ← chunkOfFrame frame
      let n := min len chunk.length
      -- the deferred `Put`s: the frame, then the sealed buffer
      let st := pool.Put (pool.Put st frame) (sealed ++ sealedFrame.drop sealed.length)
      pure (chunk.take n, ⟨recvNonce, chunk.drop n, st, conn⟩)

/-- Successive `Read`s into buffers of the given sizes, up to the first failure: the bytes each
returned. -/
def readAll (pool : BufferPool σ UInt8) (aead : Aead) : List Nat → RecvState σ → List Bytes
  | [], _ => []
  | len :: lens, s =>
    match Read pool aead len s with
    | .ok (out, s') => out :: readAll pool aead lens s'
    | .error _ => []

/-! ## The frame header -/

lemma uint32_putUint32 {v : Nat} (hv : v < 2 ^ 32) (rest : Bytes) :
    uint32 (putUint32 v ++ rest) = v := by
  simp [uint32, putUint32, Nat.shiftRight_eq_div_pow]
  omega

@[simp] lemma length_putUint32 (v : Nat) : (putUint32 v).length = dataLenSize := rfl

/-- The first `totalFrameSize` bytes of a filled frame: the header, the chunk, then padding. -/
lemma fillFrame_take {buf chunk : Bytes} (hc : chunk.length ≤ dataMaxSize) (rest : Bytes) :
    ∃ tail, (fillFrame buf chunk).take totalFrameSize ++ rest =
      putUint32 chunk.length ++ (chunk ++ tail) := by
  refine ⟨(buf.drop (dataLenSize + chunk.length)).take (dataMaxSize - chunk.length) ++ rest, ?_⟩
  have h4 : (putUint32 chunk.length).length = 4 := rfl
  unfold fillFrame totalFrameSize dataMaxSize dataLenSize at *
  simp only [List.take_append, List.append_assoc, h4]
  rw [List.take_of_length_le (by omega), List.take_of_length_le (by omega)]

/-- The frame a chunk is written into carries the chunk, whatever the buffer held. -/
lemma chunkOfFrame_fillFrame {buf chunk : Bytes} (hc : chunk.length ≤ dataMaxSize)
    (rest : Bytes) : chunkOfFrame ((fillFrame buf chunk).take totalFrameSize ++ rest) = .ok chunk := by
  have hlen : chunk.length < 2 ^ 32 := by unfold dataMaxSize at hc; omega
  obtain ⟨tail, htake⟩ := @fillFrame_take buf chunk hc rest
  unfold chunkOfFrame
  rw [htake, uint32_putUint32 hlen, if_neg (by omega),
    show dataLenSize = (putUint32 chunk.length).length from rfl, List.drop_left,
    List.take_left]
  rfl

/-- A frame is `totalFrameSize` bytes long. -/
lemma length_fillFrame_take {buf chunk : Bytes} (hc : chunk.length ≤ dataMaxSize)
    (hb : totalFrameSize ≤ buf.length) : ((fillFrame buf chunk).take totalFrameSize).length =
      totalFrameSize := by
  unfold fillFrame totalFrameSize dataMaxSize dataLenSize at *
  simp only [List.length_take, List.length_append, length_putUint32, List.length_drop,
    dataLenSize]
  omega

/-! ## Nonces -/

lemma incrNonce_ok {n n' : UInt64} (h : incrNonce n = .ok n') : n ≠ MaxUint64 ∧ n' = n + 1 := by
  unfold incrNonce at h
  split at h
  · cases h
  · cases h
    exact ⟨‹_›, rfl⟩

lemma incrNonce_of_ne {n : UInt64} (h : n ≠ MaxUint64) : incrNonce n = .ok (n + 1) := by
  simp [incrNonce, h, pure, Except.pure]

/-- Below `MaxUint64` the increment does not wrap. -/
lemma toNat_add_one {n : UInt64} (h : n ≠ MaxUint64) : (n + 1).toNat = n.toNat + 1 := by
  have hlt : n.toNat < 2 ^ 64 - 1 := by
    have := n.toNat_lt
    have hne : n.toNat ≠ 2 ^ 64 - 1 := fun he => h (UInt64.toNat_inj.mp (by simpa [MaxUint64] using he))
    omega
  rw [UInt64.toNat_add, UInt64.toNat_one, Nat.mod_eq_of_lt (by omega)]

/-! ## What `Write` sends -/

/-- One pass seals the chunk's frame under the current nonce and moves the nonce on; the frame
buffer is at least a frame long, whatever it holds. -/
lemma writeChunk_ok {pool : BufferPool σ UInt8} (hpool : pool.Lawful) {aead : Aead}
    {chunk sealed : Bytes} {s s' : SendState σ} (h : writeChunk pool aead chunk s = .ok (sealed, s')) :
    s.sendNonce ≠ MaxUint64 ∧ s'.sendNonce = s.sendNonce + 1 ∧
      ∃ buf, totalFrameSize ≤ buf.length ∧
        sealed = aead.Seal s.sendNonce ((fillFrame buf chunk).take totalFrameSize) := by
  unfold writeChunk at h
  obtain ⟨nonce, hnonce, h⟩ := ExceptRun.bind_eq_ok h
  obtain ⟨hne, rfl⟩ := incrNonce_ok hnonce
  cases h
  exact ⟨hne, rfl, _, hpool.length_Get _ _, rfl⟩

/-- `frames` are the sealed frames of `chunks` under the nonces from `n` on, the next nonce being
`n'`: every chunk is non-empty and fits a frame, and every nonce used is below `MaxUint64`. -/
def Sends (aead : Aead) : UInt64 → List Bytes → List Bytes → UInt64 → Prop
  | n, [], [], n' => n' = n
  | n, chunk :: chunks, sealed :: frames, n' =>
    n ≠ MaxUint64 ∧ chunk ≠ [] ∧ chunk.length ≤ dataMaxSize ∧
      (∃ buf, totalFrameSize ≤ buf.length ∧
        sealed = aead.Seal n ((fillFrame buf chunk).take totalFrameSize)) ∧
      Sends aead (n + 1) chunks frames n'
  | _, _, _, _ => False

lemma Sends.append {aead : Aead} {m m' : UInt64} {chunks' frames' : List Bytes}
    (h' : Sends aead m chunks' frames' m') :
    ∀ {n : UInt64} {chunks frames : List Bytes}, Sends aead n chunks frames m →
      Sends aead n (chunks ++ chunks') (frames ++ frames') m'
  | _, [], [], h => by
    rw [Sends] at h
    subst h
    exact h'
  | _, [], _ :: _, h => by simp [Sends] at h
  | _, _ :: _, [], h => by simp [Sends] at h
  | _, _ :: _, _ :: _, h => by
    obtain ⟨hn, hne, hc, hbuf, h⟩ := h
    exact ⟨hn, hne, hc, hbuf, Sends.append h' h⟩

section Write

variable {pool : BufferPool σ UInt8} {aead : Aead}

/-- The last chunk: one pass, and the loop ends. -/
lemma Write_short {data : Bytes} (s : SendState σ) (hle : data.length ≤ dataMaxSize)
    (hpos : 0 < data.length) : Write pool aead data s = (do
      let (sealed, s) ← writeChunk pool aead data s
      pure ([sealed], s)) := by
  rw [Write, if_neg (by omega), if_pos hpos]

/-- A full chunk, then the loop on the rest. -/
lemma Write_long {data : Bytes} (s : SendState σ) (hlt : dataMaxSize < data.length) :
    Write pool aead data s = (do
      let (sealed, s) ← writeChunk pool aead (data.take dataMaxSize) s
      let (frames, s) ← Write pool aead (data.drop dataMaxSize) s
      pure (sealed :: frames, s)) := by
  rw [Write, if_pos hlt]

/-- **`Write` sends its data as frames.**  A successful `Write` cut its data into non-empty chunks
of at most `dataMaxSize` bytes and sent one sealed frame for each, under successive nonces. -/
theorem Write_sends (hpool : pool.Lawful) {data : Bytes} {s s' : SendState σ} {frames : List Bytes}
    (h : Write pool aead data s = .ok (frames, s')) :
    ∃ chunks, chunks.flatten = data ∧ Sends aead s.sendNonce chunks frames s'.sendNonce := by
  by_cases hlt : dataMaxSize < data.length
  · rw [Write_long s hlt] at h
    obtain ⟨⟨sealed, s₁⟩, hchunk, h⟩ := ExceptRun.bind_eq_ok h
    obtain ⟨⟨frames', s₂⟩, hrest, h⟩ := ExceptRun.bind_eq_ok h
    cases h
    obtain ⟨hn, hnext, hbuf⟩ := writeChunk_ok hpool hchunk
    obtain ⟨chunks, hflat, hsends⟩ := Write_sends hpool hrest
    refine ⟨data.take dataMaxSize :: chunks, by simp [hflat], hn, ?_, by simp, hbuf, hnext ▸ hsends⟩
    simp only [ne_eq, List.take_eq_nil_iff, not_or]
    unfold dataMaxSize at *
    exact ⟨by omega, List.ne_nil_of_length_pos (by omega)⟩
  · by_cases hpos : 0 < data.length
    · rw [Write_short s (by omega) hpos] at h
      obtain ⟨⟨sealed, s₁⟩, hchunk, h⟩ := ExceptRun.bind_eq_ok h
      cases h
      obtain ⟨hn, hnext, hbuf⟩ := writeChunk_ok hpool hchunk
      exact ⟨[data], by simp, hn, List.ne_nil_of_length_pos hpos, by omega, hbuf, hnext⟩
    · rw [Write, if_neg hlt, if_neg hpos] at h
      cases h
      exact ⟨[], by simpa using hpos, rfl⟩
termination_by data.length
decreasing_by simp only [List.length_drop]; unfold dataMaxSize at *; omega

/-- Successive `Write`s send the frames of the concatenated data. -/
lemma writeAll_sends (hpool : pool.Lawful) : ∀ {writes : List Bytes} {s s' : SendState σ}
    {frames : List Bytes}, writeAll pool aead writes s = .ok (frames, s') →
      ∃ chunks, chunks.flatten = writes.flatten ∧ Sends aead s.sendNonce chunks frames s'.sendNonce
  | [], _, _, _, h => by
    cases h
    exact ⟨[], rfl, rfl⟩
  | data :: rest, s, s', frames, h => by
    obtain ⟨⟨frames₁, s₁⟩, hw, h⟩ := ExceptRun.bind_eq_ok h
    obtain ⟨⟨frames₂, s₂⟩, hrest, h⟩ := ExceptRun.bind_eq_ok h
    cases h
    obtain ⟨chunks₁, hflat₁, hsends₁⟩ := Write_sends hpool hw
    obtain ⟨chunks₂, hflat₂, hsends₂⟩ := writeAll_sends hpool hrest
    exact ⟨chunks₁ ++ chunks₂, by simp [hflat₁, hflat₂], Sends.append hsends₂ hsends₁⟩

/-- The buffer a pass of `Write` fills as its frame: the second one the pool hands out, after the
sealed buffer. -/
def frameBuffer (pool : BufferPool σ UInt8) (st : σ) : Bytes :=
  (pool.Get (pool.Get st (aeadSizeOverhead + totalFrameSize)).2 totalFrameSize).1

/-- The frame a short chunk is written into keeps the frame buffer's bytes past the chunk. -/
lemma Write_short_frames {chunk : Bytes} (s : SendState σ) (hn : s.sendNonce ≠ MaxUint64)
    (hle : chunk.length ≤ dataMaxSize) (hpos : 0 < chunk.length) :
    (Write pool aead chunk s).map Prod.fst =
      .ok [aead.Seal s.sendNonce ((fillFrame (frameBuffer pool s.pool) chunk).take totalFrameSize)] := by
  rw [Write_short s hle hpos, writeChunk]
  simp only [incrNonce_of_ne hn, ExceptRun.ok_bind]
  rfl

end Write

/-- Every chunk a run of frames carries is non-empty. -/
lemma Sends.ne_nil {aead : Aead} : ∀ {n m : UInt64} {chunks frames : List Bytes},
    Sends aead n chunks frames m → ∀ chunk ∈ chunks, chunk ≠ []
  | _, _, [], _, _ => by simp
  | _, _, _ :: _, [], h => by simp [Sends] at h
  | _, _, _ :: _, _ :: _, h => by
    obtain ⟨-, hne, -, -, h⟩ := h
    intro chunk hmem
    rcases List.mem_cons.mp hmem with rfl | hmem
    · exact hne
    · exact Sends.ne_nil h chunk hmem

/-! ## What `Read` hands out -/

/-- A receiver that has `chunks` still to read: its connection holds their sealed frames, under
the nonces from its own on. -/
def Holds (aead : Aead) (s : RecvState σ) (chunks : List Bytes) : Prop :=
  ∃ frames n', s.conn = frames.flatten ∧ Sends aead s.recvNonce chunks frames n'

section Read

variable {pool : BufferPool σ UInt8} {aead : Aead}

/-- With bytes left over from the last frame, `Read` hands out as many of them as fit. -/
lemma Read_buffer {len : Nat} {s : RecvState σ} (h : s.recvBuffer ≠ []) :
    Read pool aead len s = .ok (s.recvBuffer.take (min len s.recvBuffer.length),
      { s with recvBuffer := s.recvBuffer.drop (min len s.recvBuffer.length) }) := by
  rw [Read, if_pos (List.length_pos_of_ne_nil h)]
  rfl

/-- With nothing left over and no frame on the connection, `Read` fails. -/
lemma Read_eof {len : Nat} {s : RecvState σ} (hb : s.recvBuffer = [])
    (hc : s.conn = []) : ∃ e, Read pool aead len s = .error e := by
  rw [Read, if_neg (by simp [hb])]
  exact ⟨.err "EOF", by simp [readFull, hc, throw, throwThe, MonadExceptOf.throw, bind,
    Except.bind]⟩

variable (hopen : ∀ n p, aead.Open n (aead.Seal n p) = some p)
  (hseal : ∀ n p, (aead.Seal n p).length = p.length + aeadSizeOverhead)
include hopen hseal

/-- With nothing left over, `Read` opens the next frame and hands out as much of its chunk as
fits, keeping the rest.  The frame it opens into comes from the pool, but the chunk is read off
the plaintext, which covers the whole frame. -/
lemma Read_frame {len : Nat} {s : RecvState σ} {chunk : Bytes} {chunks : List Bytes}
    (hb : s.recvBuffer = []) (hs : Holds aead s (chunk :: chunks)) :
    ∃ s', Read pool aead len s = .ok (chunk.take (min len chunk.length), s') ∧
      s'.recvBuffer = chunk.drop (min len chunk.length) ∧ Holds aead s' chunks := by
  obtain ⟨frames, n', hconn, hsends⟩ := hs
  cases frames with
  | nil => simp [Sends] at hsends
  | cons sealed frames =>
    obtain ⟨hn, -, hc, ⟨buf, hbuf, rfl⟩, hrest⟩ := hsends
    have hlen : (aead.Seal s.recvNonce ((fillFrame buf chunk).take totalFrameSize)).length =
        aeadSizeOverhead + totalFrameSize := by
      rw [hseal, length_fillFrame_take hc hbuf, Nat.add_comm]
    -- the connection starts with exactly one sealed frame
    have hread : readFull s.conn (aeadSizeOverhead + totalFrameSize) =
        .ok (aead.Seal s.recvNonce ((fillFrame buf chunk).take totalFrameSize), frames.flatten) := by
      have hne : aead.Seal s.recvNonce ((fillFrame buf chunk).take totalFrameSize) ≠ [] :=
        List.ne_nil_of_length_pos (by rw [hlen]; decide)
      rw [readFull, hconn, List.flatten_cons, if_neg (by simp [hne]),
        if_neg (by simp [hlen]), List.take_left' hlen, List.drop_left' hlen]
      rfl
    rw [Read, if_neg (by simp [hb])]
    split
    rw [hread, ExceptRun.ok_bind]
    dsimp only
    rw [hopen]
    dsimp only
    rw [incrNonce_of_ne hn, ExceptRun.ok_bind, chunkOfFrame_fillFrame hc, ExceptRun.ok_bind]
    exact ⟨_, rfl, rfl, frames, n', rfl, hrest⟩

/-- **One `Read`.**  A receiver with bytes pending hands out a first part of them, non-empty when
the caller's buffer is, and is left with the rest pending. -/
lemma Read_step {len : Nat} {s : RecvState σ} {chunks : List Bytes} (hs : Holds aead s chunks)
    (hne : s.recvBuffer ++ chunks.flatten ≠ []) :
    ∃ out s' chunks', Read pool aead len s = .ok (out, s') ∧ Holds aead s' chunks' ∧
      out ++ (s'.recvBuffer ++ chunks'.flatten) = s.recvBuffer ++ chunks.flatten ∧
      (0 < len → out ≠ []) ∧ out.length ≤ len := by
  by_cases hb : s.recvBuffer = []
  · -- a frame is read: the pending bytes are the chunks, and the first one is not empty
    obtain ⟨frames, n', hconn, hsends⟩ := hs
    cases chunks with
    | nil => simp [hb] at hne
    | cons chunk chunks =>
      have hchunk : chunk ≠ [] := Sends.ne_nil hsends chunk (List.mem_cons_self ..)
      obtain ⟨s', hread, hbuf, hs'⟩ := Read_frame hopen hseal hb ⟨frames, n', hconn, hsends⟩
      refine ⟨_, s', chunks, hread, hs', ?_, fun hlen => ?_, by simp⟩
      · rw [hbuf, hb, ← List.append_assoc, List.take_append_drop]
        simp
      · simp only [ne_eq, List.take_eq_nil_iff, not_or]
        exact ⟨by have := List.length_pos_of_ne_nil hchunk; omega, hchunk⟩
  · -- bytes left over from the last frame are handed out first
    refine ⟨_, _, chunks, Read_buffer hb, hs, ?_, fun hlen => ?_, by simp⟩
    · rw [← List.append_assoc, List.take_append_drop]
    · simp only [ne_eq, List.take_eq_nil_iff, not_or]
      exact ⟨by have := List.length_pos_of_ne_nil hb; omega, hb⟩

/-- **A run of `Read`s.**  Whatever the sizes of the buffers, what a run of `Read`s hands out is
a first part of the pending bytes, and all of them once the run has had as many non-empty
buffers as there are bytes.  Induction on the buffers, with `Read_step` for each. -/
theorem readAll_pending : ∀ (lens : List Nat) {s : RecvState σ} {chunks : List Bytes},
    Holds aead s chunks →
      (readAll pool aead lens s).flatten <+: s.recvBuffer ++ chunks.flatten ∧
      ((s.recvBuffer ++ chunks.flatten).length ≤ (lens.filter (0 < ·)).length →
        (readAll pool aead lens s).flatten = s.recvBuffer ++ chunks.flatten)
  | [], s, chunks, _ => by
    refine ⟨List.nil_prefix, fun hlen => ?_⟩
    simp only [List.filter_nil, List.length_nil, Nat.le_zero, List.length_eq_zero_iff] at hlen
    simp [readAll, hlen]
  | len :: lens, s, chunks, hs => by
    by_cases hne : s.recvBuffer ++ chunks.flatten = []
    · -- nothing pending: the connection is empty and the run stops
      have hb : s.recvBuffer = [] := (List.append_eq_nil_iff.mp hne).1
      obtain ⟨frames, n', hconn, hsends⟩ := hs
      have hchunks : chunks = [] := by
        have hflat := (List.append_eq_nil_iff.mp hne).2
        rw [List.flatten_eq_nil_iff] at hflat
        cases chunks with
        | nil => rfl
        | cons chunk _ =>
          exact absurd (hflat chunk (List.mem_cons_self ..))
            (Sends.ne_nil hsends chunk (List.mem_cons_self ..))
      subst hchunks
      have hframes : frames = [] := by
        cases frames with
        | nil => rfl
        | cons _ _ => simp [Sends] at hsends
      subst hframes
      obtain ⟨e, he⟩ := @Read_eof σ pool aead len s hb hconn
      rw [readAll, he, hb]
      simp
    · obtain ⟨out, s', chunks', hread, hs', hsplit, hpos, hle⟩ := Read_step hopen hseal hs hne
      obtain ⟨ihpre, ihall⟩ := readAll_pending lens hs'
      have hrun : (readAll pool aead (len :: lens) s).flatten =
          out ++ (readAll pool aead lens s').flatten := by
        rw [readAll, hread, List.flatten_cons]
      refine ⟨?_, fun hlen => ?_⟩
      · rw [hrun, ← hsplit]
        exact (List.prefix_append_right_inj out).mpr ihpre
      · -- a non-empty buffer took at least one byte, an empty one took none
        have hrest : (s'.recvBuffer ++ chunks'.flatten).length ≤ (lens.filter (0 < ·)).length := by
          have hlen' := congrArg List.length hsplit
          rw [List.length_append] at hlen'
          by_cases hl : 0 < len
          · have := List.length_pos_of_ne_nil (hpos hl)
            simp only [List.filter_cons, hl, decide_true, if_true, List.length_cons] at hlen
            omega
          · simp only [List.filter_cons, hl, decide_false, Bool.false_eq_true, if_false] at hlen
            omega
        rw [hrun, ihall hrest, hsplit]

end Read

/-! ## The two results -/

/-- An AEAD that appends a zero tag and strips it again: it meets both assumptions of the
stream theorem, and its `Seal` is injective. -/
def tagAead : Aead :=
  ⟨fun _ p => p ++ List.replicate aeadSizeOverhead 0,
    fun _ c => some (c.take (c.length - aeadSizeOverhead))⟩

lemma tagAead_open (n : UInt64) (p : Bytes) : tagAead.Open n (tagAead.Seal n p) = some p := by
  simp [tagAead]

lemma tagAead_seal (n : UInt64) (p : Bytes) :
    (tagAead.Seal n p).length = p.length + aeadSizeOverhead := by
  simp [tagAead]

lemma tagAead_injective (n : UInt64) : Function.Injective (tagAead.Seal n) :=
  fun _ _ h => List.append_cancel_right h

/-- The sealed part of a frame past the chunk is the frame buffer's own. -/
lemma fillFrame_padding (frame chunk : Bytes) :
    ((fillFrame frame chunk).take totalFrameSize).drop (dataLenSize + chunk.length) =
      (frame.take totalFrameSize).drop (dataLenSize + chunk.length) := by
  rw [List.drop_take, List.drop_take, fillFrame, List.drop_left' (by simp [dataLenSize])]

/-- **The padding `Write` seals is the pool's.**  For any pool, two connections with the same
AEAD and nonce that write the same short chunk, from pool states whose frame buffers differ past
the chunk, send different frames: the frame is sealed whole, and `Write` overwrites only its
length and its chunk.  The frame buffer holds what an earlier call put back, such as the frame
another connection's `Read` decrypted into it. -/
theorem Write_stalePadding (pool : BufferPool σ UInt8) {aead : Aead}
    (hinj : ∀ n, Function.Injective (aead.Seal n)) {nonce : UInt64} (hn : nonce ≠ MaxUint64)
    {chunk : Bytes} (hpos : 0 < chunk.length) (hle : chunk.length ≤ dataMaxSize) (st₁ st₂ : σ)
    (hdiff : ((frameBuffer pool st₁).take totalFrameSize).drop (dataLenSize + chunk.length) ≠
      ((frameBuffer pool st₂).take totalFrameSize).drop (dataLenSize + chunk.length)) :
    (Write pool aead chunk ⟨nonce, st₁⟩).map Prod.fst ≠
      (Write pool aead chunk ⟨nonce, st₂⟩).map Prod.fst := by
  rw [Write_short_frames _ hn hle hpos, Write_short_frames _ hn hle hpos]
  intro heq
  -- equal sealed frames are equal frames, whose padding is the frame buffers' own bytes
  have hframe := hinj nonce (List.singleton_inj.mp (Except.ok.inj heq))
  apply hdiff
  rw [← fillFrame_padding _ chunk, ← fillFrame_padding (frameBuffer pool st₂) chunk]
  exact congrArg (List.drop _) hframe

/-- Under the pool that hands back the last buffer put back, the frame buffer is the second
buffer of the free list. -/
theorem Write_stalePadding_tag :
    (BufferPool.lifo : BufferPool (List Bytes) UInt8).Lawful ∧
      (∀ n, Function.Injective (tagAead.Seal n)) ∧ (0 : UInt64) ≠ MaxUint64 ∧
      (Write BufferPool.lifo tagAead [7]
          ⟨0, [List.replicate 1044 0, List.replicate 1028 0]⟩).map Prod.fst ≠
        (Write BufferPool.lifo tagAead [7]
          ⟨0, [List.replicate 1044 0, List.replicate 1028 1]⟩).map Prod.fst := by
  have hbuf : ∀ b : UInt8, frameBuffer BufferPool.lifo
      [List.replicate 1044 0, List.replicate 1028 b] = List.replicate 1028 b := by
    intro b
    rw [frameBuffer, BufferPool.lifo_Get_of_le (by rw [List.length_replicate]; decide),
      BufferPool.lifo_Get_of_le (by rw [List.length_replicate]; decide)]
  refine ⟨BufferPool.lifo_lawful, tagAead_injective, by decide,
    Write_stalePadding BufferPool.lifo tagAead_injective (by decide) (by decide) (by decide) _ _ ?_⟩
  rw [hbuf, hbuf, List.take_replicate, List.take_replicate, List.drop_replicate,
    List.drop_replicate]
  intro h
  have hhead := congrArg List.head? h
  simp [totalFrameSize, dataMaxSize, dataLenSize] at hhead

/-- **The peer reads the written byte stream.**  For successful `Write`s on one end, over any
pool that keeps its law, and any `Read`s on the other, over any pool at all, into buffers of any
sizes, the bytes the `Read`s return are a prefix of the concatenated writes, and all of them once
as many `Read`s had non-empty buffers as there are bytes.  Nonces are never reused: `incrNonce`
moves the counter on by one, or panics. -/
theorem readAll_writeAll {τ : Type} {sendPool : BufferPool σ UInt8} (hpool : sendPool.Lawful)
    {aead : Aead} (hopen : ∀ n p, aead.Open n (aead.Seal n p) = some p)
    (hseal : ∀ n p, (aead.Seal n p).length = p.length + aeadSizeOverhead)
    {writes : List Bytes} {s s' : SendState σ} {frames : List Bytes}
    (hw : writeAll sendPool aead writes s = .ok (frames, s')) (recvPool : BufferPool τ UInt8)
    (st : τ) (lens : List Nat) :
    (∀ n n' : UInt64, incrNonce n = .ok n' → n'.toNat = n.toNat + 1) ∧
      (readAll recvPool aead lens ⟨s.sendNonce, [], st, frames.flatten⟩).flatten <+:
        writes.flatten ∧
      (writes.flatten.length ≤ (lens.filter (0 < ·)).length →
        (readAll recvPool aead lens ⟨s.sendNonce, [], st, frames.flatten⟩).flatten =
          writes.flatten) := by
  obtain ⟨chunks, hflat, hsends⟩ := writeAll_sends hpool hw
  have hs : Holds aead (⟨s.sendNonce, [], st, frames.flatten⟩ : RecvState τ) chunks :=
    ⟨frames, s'.sendNonce, rfl, hsends⟩
  obtain ⟨hpre, hall⟩ := @readAll_pending τ recvPool aead hopen hseal lens _ _ hs
  refine ⟨fun n n' h => ?_, ?_, fun hlen => ?_⟩
  · obtain ⟨hne, rfl⟩ := incrNonce_ok h
    exact toNat_add_one hne
  · simpa [hflat] using hpre
  · simpa [hflat] using hall (by simpa [hflat] using hlen)

theorem readAll_writeAll_tag :
    ∃ frames s', writeAll BufferPool.lifo tagAead [[1, 2, 3]] ⟨0, []⟩ = .ok (frames, s') ∧
      (BufferPool.lifo : BufferPool (List Bytes) UInt8).Lawful ∧
      (∀ n p, tagAead.Open n (tagAead.Seal n p) = some p) ∧
      (∀ n p, (tagAead.Seal n p).length = p.length + aeadSizeOverhead) ∧
      ((∀ n n' : UInt64, incrNonce n = .ok n' → n'.toNat = n.toNat + 1) ∧
        (readAll BufferPool.lifo tagAead [2, 0, 5] ⟨0, [], [], frames.flatten⟩).flatten <+:
          [[1, 2, 3]].flatten ∧
        ([[1, 2, 3]].flatten.length ≤ ([2, 0, 5].filter (0 < ·)).length →
          (readAll BufferPool.lifo tagAead [2, 0, 5] ⟨0, [], [], frames.flatten⟩).flatten =
            [[1, 2, 3]].flatten)) := by
  obtain ⟨frames, s', hw⟩ : ∃ frames s',
      writeAll BufferPool.lifo tagAead [[1, 2, 3]] ⟨0, []⟩ = .ok (frames, s') := by
    rw [writeAll, Write_short _ (by decide) (by decide)]
    exact ⟨_, _, rfl⟩
  exact ⟨frames, s', hw, BufferPool.lifo_lawful, tagAead_open, tagAead_seal,
    readAll_writeAll BufferPool.lifo_lawful tagAead_open tagAead_seal hw BufferPool.lifo [] [2, 0, 5]⟩

end SecretConnection

end Tendermint
