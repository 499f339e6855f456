import Tendermint.Lib.Lex
import Tendermint.Lib.KVStore

/-!
# Go's ground types, as the model uses them

The Go code works on byte slices, `int64`s and errors.  This file fixes how each is
represented, once, so that the later files can be read against `src/` line by line.

* `Bytes` is `[]byte` and `Address` is `crypto.Address`.  Go does not distinguish a `nil`
  slice from an empty one in anything the modelled code does (`bytes.Equal`, `len`, proto
  encoding), so neither does the model.
* `bytesCompare` is `bytes.Compare`: lexicographic on the unsigned byte values.  Its three
  order facts come from `Lex.lexCompare`.
* A tm-db database is a `BytesDB`: some implementation with the contract of `KVStore.Lawful`,
  its keys ordered by `bytes.Compare`.  `NewMemDB` is one, empty.
* `int64` values are `Int`s.  Where Go arithmetic can wrap silently the model applies
  `wrap64` at the same place, and proofs discharge it with `wrap64_of_mem` once the value is
  known to be in range.
* A Go function that returns `error` or panics returns `Go α := Except GoError α`.  The two
  kinds of failure are kept apart (`GoError.err`, `GoError.panic`), so that "this call never
  panics" is a statement about the model.
-/

namespace Tendermint

/-- Go's `[]byte`. -/
abbrev Bytes := List UInt8

/-- `crypto.Address`. -/
abbrev Address := Bytes

/-- `bytes.Compare`: the first differing byte decides, a proper prefix comes first. -/
def bytesCompare (a b : Bytes) : Ordering :=
  Lex.lexCompare (a.map UInt8.toNat) (b.map UInt8.toNat)

lemma bytesCompare_eq_iff {a b : Bytes} : bytesCompare a b = .eq ↔ a = b := by
  unfold bytesCompare
  rw [Lex.lexCompare_eq_iff]
  exact (List.map_injective_iff.mpr (fun x y h => UInt8.toNat_inj.mp h)).eq_iff

@[simp] lemma bytesCompare_self (a : Bytes) : bytesCompare a a = .eq :=
  bytesCompare_eq_iff.mpr rfl

lemma bytesCompare_swap (a b : Bytes) : bytesCompare b a = (bytesCompare a b).swap :=
  Lex.lexCompare_swap _ _

lemma bytesCompare_lt_trans {a b c : Bytes} (h1 : bytesCompare a b = .lt)
    (h2 : bytesCompare b c = .lt) : bytesCompare a c = .lt :=
  Lex.lexCompare_lt_trans h1 h2

/-- `bytes.Compare(a, b) < 0`, the order every address sort in the code uses. -/
def BytesLt (a b : Bytes) : Prop := bytesCompare a b = .lt

instance (a b : Bytes) : Decidable (BytesLt a b) := inferInstanceAs (Decidable (_ = _))

lemma bytesLt_irrefl (a : Bytes) : ¬ BytesLt a a := by simp [BytesLt]

lemma bytesLt_asymm {a b : Bytes} (h : BytesLt a b) : ¬ BytesLt b a := by
  unfold BytesLt at *
  rw [bytesCompare_swap, h]
  decide

lemma bytesLt_trans {a b c : Bytes} (h1 : BytesLt a b) (h2 : BytesLt b c) : BytesLt a c :=
  bytesCompare_lt_trans h1 h2

lemma bytesLt_ne {a b : Bytes} (h : BytesLt a b) : a ≠ b := by
  rintro rfl
  exact bytesLt_irrefl a h

/-- Two different addresses are ordered one way or the other. -/
lemma bytesLt_total {a b : Bytes} (h : a ≠ b) : BytesLt a b ∨ BytesLt b a := by
  unfold BytesLt
  rw [bytesCompare_swap a b]
  cases hc : bytesCompare a b with
  | lt => exact .inl rfl
  | eq => exact absurd (bytesCompare_eq_iff.mp hc) h
  | gt => exact .inr rfl

/-- A tm-db database whose states are `σ`: byte keys, iterated in `bytes.Compare` order. -/
abbrev BytesDB (σ ν : Type) := KVStore.DB σ Bytes ν BytesLt

/-- `dbm.NewMemDB()`: an empty database in memory. -/
def NewMemDB (ν : Type) : BytesDB (AList fun _ : Bytes => ν) ν :=
  KVStore.DB.emptyAList (fun _ _ => bytesLt_asymm) (fun _ _ _ => bytesLt_trans)
    (fun _ _ => bytesLt_total)

/-! ## Errors and panics -/

/-- How a Go call can fail: by returning a non-nil `error`, or by panicking. -/
inductive GoError where
  | err (msg : String)
  | panic (msg : String)
  deriving DecidableEq, Repr

/-- A Go computation: a value, a returned error, or a panic. -/
abbrev Go := Except GoError

/-- The call fails by panicking. -/
def Panics {α : Type} (r : Go α) : Prop := ∃ msg, r = .error (.panic msg)

/-- What Go reports when a program reads or writes through a `nil` pointer. -/
def nilDereference : String := "runtime error: invalid memory address or nil pointer dereference"

/-- `fmt.Errorf(msg + "%w", err)`: the error's text behind `msg`; a panic goes through. -/
def GoError.wrap (msg : String) : GoError → GoError
  | .err e => .err (msg ++ e)
  | .panic p => .panic p

/-! ## `int64` -/

/-- `math.MaxInt64`. -/
def MaxInt64 : Int := 2 ^ 63 - 1

/-- `math.MinInt64`. -/
def MinInt64 : Int := -2 ^ 63

/-- `math.MaxInt32`, the bound of Go's `int32` parameters. -/
def MaxInt32 : Int := 2 ^ 31 - 1

/-- The value is representable as an `int64`. -/
def InInt64 (x : Int) : Prop := MinInt64 ≤ x ∧ x ≤ MaxInt64

instance (x : Int) : Decidable (InInt64 x) := inferInstanceAs (Decidable (_ ∧ _))

/-- Two's-complement wrap-around of a mathematical result to `int64`, as Go's `+`, `-` and `*`
on `int64` do. -/
def wrap64 (x : Int) : Int := (x + 2 ^ 63) % 2 ^ 64 - 2 ^ 63

/-- In range, Go's arithmetic is the mathematical one. -/
lemma wrap64_of_mem {x : Int} (h : InInt64 x) : wrap64 x = x := by
  unfold wrap64
  unfold InInt64 MinInt64 MaxInt64 at h
  rw [Int.emod_eq_of_lt (by omega) (by omega)]
  omega

/-- Go's arithmetic lands in range. -/
lemma wrap64_mem (x : Int) : InInt64 (wrap64 x) := by
  have h64 : (2 : Int) ^ 64 = 18446744073709551616 := by norm_num
  have h63 : (2 : Int) ^ 63 = 9223372036854775808 := by norm_num
  have hnonneg := Int.emod_nonneg (x + 2 ^ 63) (by norm_num : (2 : Int) ^ 64 ≠ 0)
  have hlt := Int.emod_lt_of_pos (x + 2 ^ 63) (by norm_num : (0 : Int) < 2 ^ 64)
  unfold wrap64 InInt64 MinInt64 MaxInt64
  rw [h64, h63] at *
  constructor <;> omega

/-- Wrapping twice is wrapping once: a running `int64` sum is the wrap of the true sum. -/
lemma wrap64_add_wrap (a b : Int) : wrap64 (wrap64 a + b) = wrap64 (a + b) := by
  unfold wrap64
  have h : (a + 2 ^ 63) % 2 ^ 64 - 2 ^ 63 + b + 2 ^ 63 = (a + 2 ^ 63) % 2 ^ 64 + b := by ring
  rw [h, Int.add_emod, Int.emod_emod_of_dvd _ (dvd_refl _), ← Int.add_emod,
    show a + 2 ^ 63 + b = a + b + 2 ^ 63 by ring]

/-- A wrapped sum that is not below `MinInt64` is at most the sum itself. -/
lemma wrap64_le {x : Int} (h : MinInt64 ≤ x) : wrap64 x ≤ x := by
  unfold wrap64
  unfold MinInt64 at h
  have h64 : (2 : Int) ^ 64 = 18446744073709551616 := by norm_num
  have h63 : (2 : Int) ^ 63 = 9223372036854775808 := by norm_num
  rw [h64, h63] at *
  omega

/-- A sum of two `int64`s past `MaxInt64` wraps around to a negative number. -/
lemma wrap64_of_gt {x : Int} (h : MaxInt64 < x) (h' : x ≤ 2 * MaxInt64) : wrap64 x = x - 2 ^ 64 := by
  unfold wrap64
  unfold MaxInt64 at h h'
  have h64 : (2 : Int) ^ 64 = 18446744073709551616 := by norm_num
  have h63 : (2 : Int) ^ 63 = 9223372036854775808 := by norm_num
  rw [h64, h63] at *
  omega

/-- Negating an `int64` other than `MinInt64` does not overflow. -/
lemma wrap64_neg_of_mem {b : Int} (hb : InInt64 b) (hmin : b ≠ MinInt64) : wrap64 (-b) = -b :=
  wrap64_of_mem (by unfold InInt64 MinInt64 MaxInt64 at *; omega)

/-- `MaxInt64 / n` is the largest factor that keeps a product with `n` in range. -/
lemma lt_tdiv_iff {a n : Int} (hn : 0 < n) : MaxInt64.tdiv n < a ↔ MaxInt64 < a * n := by
  rw [Int.tdiv_eq_ediv_of_nonneg (by unfold MaxInt64; omega), Int.ediv_lt_iff_lt_mul hn]

/-- Go's `int64` division `a / b`: truncated towards zero, a run-time panic on a zero divisor,
and wrap-around on the one overflowing case `MinInt64 / -1`. -/
def goDiv (a b : Int) : Go Int :=
  if b = 0 then throw (.panic "runtime error: integer divide by zero")
  else pure (wrap64 (a.tdiv b))

/-- Dividing an `int64` other than `MinInt64` by a non-zero divisor is the truncated quotient. -/
lemma goDiv_of_fits {p d : Int} (hp : |p| ≤ MaxInt64) (hd : d ≠ 0) : goDiv p d = .ok (p.tdiv d) := by
  have hq : InInt64 (p.tdiv d) := by
    have hle := Int.natAbs_tdiv_le_natAbs p d
    have habs : ((p.tdiv d).natAbs : Int) ≤ (p.natAbs : Int) := by exact_mod_cast hle
    rw [Int.natCast_natAbs, Int.natCast_natAbs] at habs
    have := abs_le.mp (habs.trans hp)
    unfold InInt64 MinInt64 MaxInt64
    unfold MaxInt64 at this
    omega
  unfold goDiv
  rw [if_neg hd, wrap64_of_mem hq]
  rfl

end Tendermint
