import Mathlib

/-!
# Hexadecimal and URL path-segment encodings of byte strings

The two textual encodings of Go's standard library that key paths use: upper-case hex
(`fmt.Sprintf("%X", b)`, decoded by `encoding/hex.DecodeString`, which takes either case) and
the escaping of one URL path segment (`net/url.PathEscape` and `PathUnescape`).  Strings are
byte strings.

* `DecodeString_EncodeUpper`, `PathUnescape_PathEscape` — each decoder inverts its encoder;
* `slash_notMem_PathEscape` — an escaped segment holds no `/`, so segments joined by `/` can be
  split again;
* `DecodeString_ok` — a successful hex decoding read only hex digits, two per byte;
* `PathEscape_eq_self_of_hex` — an escaped string made of hex digits was not escaped at all;
* `take_two_PathEscape` — escaping keeps the first two bytes of a string that starts with two
  bytes neither of which needs escaping, and only those.

Digit facts are statements about all 256 bytes and are decided.
-/

namespace TextCodec

/-- The upper-case hex digit of a value below 16: `"0123456789ABCDEF"[n]`. -/
def hexUpper (n : UInt8) : UInt8 := if n < 10 then n + 48 else n + 55

/-- `fromHexChar` of `encoding/hex`, which accepts the digits of both cases (as do `ishex` and
`unhex` of `net/url`). -/
def fromHexChar (c : UInt8) : Option UInt8 :=
  if 48 ≤ c ∧ c ≤ 57 then some (c - 48)
  else if 97 ≤ c ∧ c ≤ 102 then some (c - 97 + 10)
  else if 65 ≤ c ∧ c ≤ 70 then some (c - 65 + 10)
  else none

/-- `fmt.Sprintf("%X", b)`: two upper-case digits per byte. -/
def EncodeUpper : List UInt8 → List UInt8
  | [] => []
  | b :: bs => hexUpper (b >>> 4) :: hexUpper (b &&& 15) :: EncodeUpper bs

/-- `hex.ErrLength`. -/
def ErrLength : String := "encoding/hex: odd length hex string"

/-- `hex.InvalidByteError`, with its format. -/
def InvalidByteError : String := "encoding/hex: invalid byte: %#U"

/-- `hex.DecodeString`: a byte that is not a hex digit is reported before an odd length. -/
def DecodeString : List UInt8 → Except String (List UInt8)
  | [] => pure []
  | [c] => match fromHexChar c with
    | some _ => throw ErrLength
    | none => throw InvalidByteError
  | a :: b :: rest =>
    match fromHexChar a, fromHexChar b with
    | some x, some y => ((x <<< 4 ||| y) :: ·) <$> DecodeString rest
    | _, _ => throw InvalidByteError

/-- `shouldEscape(c, encodePathSegment)`: letters, digits and `-_.~` stay; of the reserved
characters `$&+,/:;=?@` a path segment escapes `/;,?`; everything else is escaped. -/
def shouldEscape (c : UInt8) : Bool :=
  if (97 ≤ c ∧ c ≤ 122) ∨ (65 ≤ c ∧ c ≤ 90) ∨ (48 ≤ c ∧ c ≤ 57) then false
  else if c = 45 ∨ c = 95 ∨ c = 46 ∨ c = 126 then false
  else if c = 36 ∨ c = 38 ∨ c = 43 ∨ c = 44 ∨ c = 47 ∨ c = 58 ∨ c = 59 ∨ c = 61 ∨ c = 63 ∨
      c = 64 then
    decide (c = 47 ∨ c = 59 ∨ c = 44 ∨ c = 63)
  else true

/-- One byte of `url.PathEscape`: `%XX` in upper-case hex, or the byte itself. -/
def escapeByte (c : UInt8) : List UInt8 :=
  if shouldEscape c then [37, hexUpper (c >>> 4), hexUpper (c &&& 15)] else [c]

/-- `url.PathEscape`. -/
def PathEscape : List UInt8 → List UInt8
  | [] => []
  | c :: s => escapeByte c ++ PathEscape s

/-- `url.EscapeError`, with its format. -/
def EscapeError : String := "invalid URL escape %q"

/-- `url.PathUnescape`: `%` must be followed by two hex digits; `+` stays in a path. -/
def PathUnescape : List UInt8 → Except String (List UInt8)
  | [] => pure []
  | c :: s =>
    if c = 37 then
      match s with
      | a :: b :: rest =>
        match fromHexChar a, fromHexChar b with
        | some x, some y => ((x <<< 4 ||| y) :: ·) <$> PathUnescape rest
        | _, _ => throw EscapeError
      | _ => throw EscapeError
    else (c :: ·) <$> PathUnescape s

/-! ## Digits -/

set_option maxRecDepth 4000 in
lemma fromHexChar_hexUpper : ∀ n : UInt8, n < 16 → fromHexChar (hexUpper n) = some n := by
  decide

set_option maxRecDepth 4000 in
lemma shiftRight_four_lt : ∀ b : UInt8, b >>> 4 < 16 := by decide

set_option maxRecDepth 4000 in
lemma and_fifteen_lt : ∀ b : UInt8, b &&& 15 < 16 := by decide

set_option maxRecDepth 4000 in
/-- The two digits of a byte give the byte back. -/
lemma digits_recombine : ∀ b : UInt8, (b >>> 4) <<< 4 ||| (b &&& 15) = b := by decide

set_option maxRecDepth 4000 in
lemma hexUpper_ne_slash : ∀ n : UInt8, n < 16 → hexUpper n ≠ 47 := by decide

set_option maxRecDepth 4000 in
/-- `%` is escaped, and so is `/`. -/
lemma ne_percent_of_not_shouldEscape : ∀ c : UInt8, shouldEscape c = false → c ≠ 37 := by decide

set_option maxRecDepth 4000 in
lemma ne_slash_of_not_shouldEscape : ∀ c : UInt8, shouldEscape c = false → c ≠ 47 := by decide

lemma fromHexChar_percent : fromHexChar 37 = none := by decide

/-! ## Round trips -/

theorem DecodeString_EncodeUpper : ∀ b : List UInt8, DecodeString (EncodeUpper b) = .ok b
  | [] => rfl
  | c :: bs => by
    rw [EncodeUpper, DecodeString, fromHexChar_hexUpper _ (shiftRight_four_lt c),
      fromHexChar_hexUpper _ (and_fifteen_lt c), DecodeString_EncodeUpper bs]
    show Except.ok (((c >>> 4) <<< 4 ||| (c &&& 15)) :: bs) = _
    rw [digits_recombine]

theorem PathUnescape_PathEscape : ∀ s : List UInt8, PathUnescape (PathEscape s) = .ok s
  | [] => rfl
  | c :: s => by
    rw [PathEscape, escapeByte]
    split_ifs with hc
    · -- `%XX`: the two digits are read back
      show PathUnescape (37 :: hexUpper (c >>> 4) :: hexUpper (c &&& 15) :: PathEscape s) = _
      unfold PathUnescape
      rw [if_pos rfl]
      dsimp only
      rw [fromHexChar_hexUpper _ (shiftRight_four_lt c),
        fromHexChar_hexUpper _ (and_fifteen_lt c), PathUnescape_PathEscape s]
      show Except.ok (((c >>> 4) <<< 4 ||| (c &&& 15)) :: s) = _
      rw [digits_recombine]
    · -- a byte that stays, which is not `%`
      have hne := ne_percent_of_not_shouldEscape c (by simpa using hc)
      rw [List.singleton_append]
      unfold PathUnescape
      rw [if_neg hne, PathUnescape_PathEscape s]
      rfl

/-! ## What an escaped or decoded string is made of -/

lemma slash_notMem_escapeByte (c : UInt8) : (47 : UInt8) ∉ escapeByte c := by
  unfold escapeByte
  split_ifs with hc
  · simp only [List.mem_cons, List.not_mem_nil, or_false, not_or]
    exact ⟨by decide, (hexUpper_ne_slash _ (shiftRight_four_lt c)).symm,
      (hexUpper_ne_slash _ (and_fifteen_lt c)).symm⟩
  · simp only [List.mem_singleton]
    exact (ne_slash_of_not_shouldEscape c (by simpa using hc)).symm

theorem slash_notMem_PathEscape : ∀ s : List UInt8, (47 : UInt8) ∉ PathEscape s
  | [] => List.not_mem_nil
  | c :: s => by
    rw [PathEscape, List.mem_append, not_or]
    exact ⟨slash_notMem_escapeByte c, slash_notMem_PathEscape s⟩

lemma slash_notMem_EncodeUpper : ∀ b : List UInt8, (47 : UInt8) ∉ EncodeUpper b
  | [] => List.not_mem_nil
  | c :: bs => by
    rw [EncodeUpper, List.mem_cons, List.mem_cons, not_or, not_or]
    exact ⟨(hexUpper_ne_slash _ (shiftRight_four_lt c)).symm,
      (hexUpper_ne_slash _ (and_fifteen_lt c)).symm, slash_notMem_EncodeUpper bs⟩

/-- A successful hex decoding read hex digits only, two for each byte it returns. -/
theorem DecodeString_ok : ∀ {s d : List UInt8}, DecodeString s = .ok d →
    s.length = 2 * d.length ∧ ∀ c ∈ s, (fromHexChar c).isSome
  | [], d, h => by
    cases h
    simp
  | [c], d, h => by
    simp only [DecodeString] at h
    split at h <;> cases h
  | a :: b :: rest, d, h => by
    simp only [DecodeString] at h
    split at h
    · rename_i x y hx hy
      cases hrest : DecodeString rest with
      | error e =>
        rw [hrest] at h
        cases h
      | ok d' =>
        rw [hrest] at h
        cases h
        obtain ⟨hlen, hall⟩ := DecodeString_ok hrest
        refine ⟨by simp [hlen]; omega, ?_⟩
        intro c hc
        rcases List.mem_cons.mp hc with rfl | hc
        · simp [hx]
        rcases List.mem_cons.mp hc with rfl | hc
        · simp [hy]
        · exact hall c hc
    · cases h

/-- An escaped string of hex digits only escaped nothing: an escape starts with `%`. -/
theorem PathEscape_eq_self_of_hex : ∀ {s : List UInt8},
    (∀ c ∈ PathEscape s, (fromHexChar c).isSome) → PathEscape s = s
  | [], _ => rfl
  | c :: s, h => by
    rw [PathEscape] at h ⊢
    have hs := PathEscape_eq_self_of_hex fun c hc => h c (List.mem_append_right _ hc)
    unfold escapeByte at h ⊢
    split_ifs at h ⊢ with hc
    · have h37 := h 37 (by simp)
      rw [fromHexChar_percent] at h37
      cases h37
    · rw [hs]
      rfl

/-- Escaping starts with the two bytes `a b` exactly when the string does, for two bytes that
are not escaped. -/
theorem take_two_PathEscape {a b : UInt8} (ha : shouldEscape a = false)
    (hb : shouldEscape b = false) (ha37 : a ≠ 37) (hb37 : b ≠ 37) :
    ∀ s : List UInt8, (PathEscape s).take 2 = [a, b] ↔ s.take 2 = [a, b]
  | [] => by simp [PathEscape]
  | [c] => by
    simp only [PathEscape, List.append_nil, escapeByte]
    split_ifs with hc
    · simp only [List.take_succ_cons, List.take_zero, List.take_nil, List.cons.injEq,
        List.nil_eq, reduceCtorEq, and_false, iff_false, not_and]
      intro h
      exact absurd h.symm ha37
    · simp
  | c :: c' :: s => by
    simp only [PathEscape, escapeByte]
    by_cases hc : shouldEscape c
    · -- `c` is escaped to `%..`, and `a` is not `%`; `c` is not `a`, which stays
      have hca : c ≠ a := fun h => by rw [h, ha] at hc; cases hc
      simp only [hc, if_true, List.cons_append, List.take_succ_cons, List.cons.injEq]
      constructor
      · rintro ⟨h, -⟩
        exact absurd h.symm ha37
      · rintro ⟨h, -⟩
        exact absurd h hca
    · by_cases hc' : shouldEscape c'
      · have hcb : c' ≠ b := fun h => by rw [h, hb] at hc'; cases hc'
        simp only [hc, hc', if_true, List.cons_append, List.nil_append, List.take_succ_cons,
          List.take_zero, List.cons.injEq, and_true, Bool.false_eq_true, if_false]
        constructor
        · rintro ⟨-, h⟩
          exact absurd h.symm hb37
        · rintro ⟨-, h⟩
          exact absurd h hcb
      · simp [hc, hc']

end TextCodec
