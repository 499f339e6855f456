import Mathlib.Data.List.Basic

/-!
# A pool of reusable buffers

A buffer pool hands out buffers of at least a requested length (`Get`) and takes them back
(`Put`).  What a buffer holds when it is handed out is left open: the pool may hand back a
buffer it was given, without clearing it, or a fresh one.  The one law a user may rely on is
the length (`Lawful.length_Get`), and a development that uses a pool takes the pool and this law
as parameters.

`lifo` is one pool that meets the law (`lifo_lawful`): it keeps the buffers put back, the last
one first, and hands out the top one when it is long enough, a fresh one of default elements
otherwise.
-/

/-- The operations of a buffer pool whose states are `σ` and whose buffers hold `α`s. -/
structure BufferPool (σ α : Type) where
  Get : σ → Nat → List α × σ
  Put : σ → List α → σ

namespace BufferPool

variable {σ α : Type}

/-- The law of a buffer pool: a buffer handed out is at least as long as asked for.  Nothing is
said of its contents. -/
structure Lawful (pool : BufferPool σ α) : Prop where
  length_Get : ∀ s n, n ≤ (pool.Get s n).1.length

/-- A pool that keeps the buffers put back, the last one first. -/
def lifo [Inhabited α] : BufferPool (List (List α)) α where
  Get
    | buf :: rest, n => if n ≤ buf.length then (buf, rest) else (List.replicate n default, buf :: rest)
    | [], n => (List.replicate n default, [])
  Put free buf := buf :: free

variable [Inhabited α]

/-- The last buffer put back is handed out again, as it is, when it is long enough. -/
@[simp] lemma lifo_Get_of_le {buf : List α} {n : Nat} (h : n ≤ buf.length) (rest : List (List α)) :
    lifo.Get (buf :: rest) n = (buf, rest) := by
  simp [lifo, h]

lemma lifo_lawful : (lifo : BufferPool (List (List α)) α).Lawful := by
  constructor
  intro s n
  cases s with
  | nil => simp [lifo]
  | cons buf rest =>
    by_cases h : n ≤ buf.length
    · simpa [lifo_Get_of_le h] using h
    · simp [lifo, h]

end BufferPool
