import Mathlib.Data.List.Basic

/-!
# A buffered writer

A buffered writer keeps up to `size` elements in a buffer in front of another writer, here the
elements that writer has received.  A write that fits in the buffer is buffered; one that does
not first fills the buffer and flushes it, and the rest is buffered again, or written through
when even the empty buffer is too small for it.  `Flush` hands the buffer over.

What a user of the writer needs is that nothing is lost, reordered or duplicated: the elements
written through followed by the buffered ones are the ones written, in order
(`Write_contents`, `Flush_contents`), and the buffer never holds more than `size`
(`Write_buf_length`).
-/

namespace bufio

variable {α : Type}

/-- A buffered writer: what the underlying writer has received, the buffer, and its size. -/
structure Writer (α : Type) where
  wr : List α
  buf : List α
  size : Nat

namespace Writer

/-- `Available`: the room left in the buffer. -/
def Available (b : Writer α) : Nat := b.size - b.buf.length

/-- `Flush`. -/
def Flush (b : Writer α) : Writer α := { b with wr := b.wr ++ b.buf, buf := [] }

/-- `Write`.  Its loop runs at most twice: after the first flush the buffer is empty, so the
second round writes through or leaves the loop. -/
def Write (b : Writer α) (p : List α) : Writer α :=
  if b.Available < p.length then
    if b.buf = [] then
      -- a large write into an empty buffer goes straight to the writer
      { b with wr := b.wr ++ p }
    else
      -- fill the buffer, flush it, and go on with the rest
      let n := b.Available
      let b := ({ b with buf := b.buf ++ p.take n } : Writer α).Flush
      let p := p.drop n
      if b.Available < p.length then { b with wr := b.wr ++ p }
      else { b with buf := b.buf ++ p }
  else { b with buf := b.buf ++ p }

@[simp] lemma Flush_wr (b : Writer α) : b.Flush.wr = b.wr ++ b.buf := rfl
@[simp] lemma Flush_buf (b : Writer α) : b.Flush.buf = [] := rfl
@[simp] lemma Flush_size (b : Writer α) : b.Flush.size = b.size := rfl

lemma Flush_contents (b : Writer α) : b.Flush.wr ++ b.Flush.buf = b.wr ++ b.buf := by
  simp

@[simp] lemma Write_size (b : Writer α) (p : List α) : (b.Write p).size = b.size := by
  unfold Write
  dsimp only
  split_ifs <;> rfl

/-- A write loses, reorders and duplicates nothing. -/
theorem Write_contents (b : Writer α) (p : List α) :
    (b.Write p).wr ++ (b.Write p).buf = b.wr ++ b.buf ++ p := by
  unfold Write
  dsimp only
  split_ifs with hbig hempty hrest
  · simp [hempty]
  -- after the flush, the written prefix and the rest are the two halves of the write
  · simp only [Flush_wr, Flush_buf, List.append_nil, List.append_assoc, List.take_append_drop]
  · simp only [Flush_wr, Flush_buf, List.nil_append, List.append_assoc, List.take_append_drop]
  · simp

/-- The buffer never overflows. -/
theorem Write_buf_length (b : Writer α) (p : List α) (hb : b.buf.length ≤ b.size) :
    (b.Write p).buf.length ≤ b.size := by
  unfold Write
  dsimp only
  split_ifs with hbig hempty hrest
  · exact hb
  · simp
  · simp only [Available, Flush_buf, Flush_size, List.length_nil, Nat.sub_zero, Nat.not_lt,
      List.length_drop] at hrest
    simp only [Flush_buf, List.nil_append, List.length_drop, Available]
    omega
  · simp only [Available, Nat.not_lt] at hbig
    simp only [List.length_append]
    omega

end Writer

end bufio
