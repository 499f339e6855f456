import Mathlib.Data.List.Basic

/-!
# Base-128 varints

Protobuf writes an unsigned integer seven bits at a time, the least significant group first,
with the high bit of every byte but the last set.  `encode` is that writer and `decode` reads
one number off the front of a byte string.

What the rest of the development needs is that the encoding is *self-delimiting*: the number
is read back and the bytes after it are left alone (`decode_encode_append`), so two encodings
followed by anything agree only if the numbers and the rests agree (`encode_append_inj`).
This is what makes a message that starts with a varint field decodable field by field.
A length-delimited field is a tag, the length as a varint and the payload (`fieldSize`).
-/

namespace Varint

/-- The varint bytes of `n`. -/
def encode (n : Nat) : List UInt8 :=
  if n < 128 then [n.toUInt8]
  else (n % 128 + 128).toUInt8 :: encode (n / 128)
termination_by n
decreasing_by omega

/-- One varint read off the front of `bytes`, with what follows it; `none` when the bytes end
inside the number. -/
def decode : List UInt8 → Option (Nat × List UInt8)
  | [] => none
  | b :: rest =>
      if b.toNat < 128 then some (b.toNat, rest)
      else (decode rest).map fun r => (b.toNat - 128 + 128 * r.1, r.2)

lemma encode_of_lt {n : Nat} (h : n < 128) : encode n = [n.toUInt8] := by
  rw [encode, if_pos h]

lemma encode_of_ge {n : Nat} (h : 128 ≤ n) :
    encode n = (n % 128 + 128).toUInt8 :: encode (n / 128) := by
  rw [encode, if_neg (by omega)]

lemma toNat_toUInt8_of_lt {n : Nat} (h : n < 256) : n.toUInt8.toNat = n := by
  simp [Nat.mod_eq_of_lt h]

/-- Decoding reads back the encoded number and leaves the rest untouched. -/
theorem decode_encode_append (n : Nat) (rest : List UInt8) :
    decode (encode n ++ rest) = some (n, rest) := by
  induction n using Nat.strongRecOn with
  | ind n ih =>
    by_cases hn : n < 128
    · rw [encode_of_lt hn, List.singleton_append, decode, toNat_toUInt8_of_lt (by omega),
        if_pos hn]
    · -- a continuation byte carries the low seven bits, the rest is `n / 128`
      have hb := toNat_toUInt8_of_lt (show n % 128 + 128 < 256 by omega)
      rw [encode_of_ge (by omega), List.cons_append, decode, hb, if_neg (by omega),
        ih (n / 128) (by omega)]
      simp only [Option.map_some, Option.some.injEq, Prod.mk.injEq, and_true]
      omega

/-- Encodings are self-delimiting: an encoding followed by anything determines both. -/
theorem encode_append_inj {n m : Nat} {rest rest' : List UInt8}
    (h : encode n ++ rest = encode m ++ rest') : n = m ∧ rest = rest' := by
  have := decode_encode_append n rest
  rw [h, decode_encode_append] at this
  simp only [Option.some.injEq, Prod.mk.injEq] at this
  exact ⟨this.1.symm, this.2.symm⟩

lemma encode_ne_nil (n : Nat) : encode n ≠ [] := by
  rw [encode]
  split <;> simp

/-! ## Length-delimited fields -/

/-- The bytes of a length-delimited field whose tag fits in one byte (field numbers up to 15):
the tag, the length of the payload as a varint, and the payload. -/
def fieldSize (n : Nat) : Nat := 1 + (encode n).length + n

/-- The framing of a field costs at least two bytes. -/
lemma add_two_le_fieldSize (n : Nat) : n + 2 ≤ fieldSize n := by
  have hlen : 1 ≤ (encode n).length := List.length_pos_iff.mpr (encode_ne_nil n)
  unfold fieldSize
  omega

end Varint
