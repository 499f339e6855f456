import Tendermint.Lib.TextCodec
import Tendermint.Lib.Except
import Tendermint.Types.Basic

/-!
# Key paths of Merkle proof operators (`crypto/merkle/proof_key_path.go`)

A `KeyPath` is a list of keys, each with the encoding it is written in: URL escaping
(`KeyEncodingURL`) or upper-case hex behind an `x:` marker (`KeyEncodingHex`).  `String` writes
each key as `/` followed by its encoded segment; `KeyPathToKeys` splits a path at its `/`s and
decodes each segment, choosing hex for a segment that starts with `x:` and URL escaping for
the others.  The source asks of every encoding that the keys decode to the same keys.

URL escaping leaves `x` and `:` as they are, so a URL-encoded key starting with `x:` is read
back as hex, and fails or gives another key.  That is the only way the round trip fails:

* **`KeyPathToKeys_String_iff`** — for a non-empty key path, `KeyPathToKeys(kp.String())`
  returns the keys of `kp` exactly when no URL-encoded key starts with `x:`.

`keyEncoding` has the two encodings only, so the `panic` of `String` on an unknown encoding
has no counterpart.
-/

namespace Tendermint

namespace Merkle

open TextCodec ExceptRun

/-- `keyEncoding`. -/
inductive keyEncoding where
  | KeyEncodingURL
  | KeyEncodingHex
  deriving DecidableEq, Repr

/-- `Key`. -/
structure Key where
  name : Bytes
  enc : keyEncoding
  deriving DecidableEq, Repr

/-- `KeyPath`. -/
abbrev KeyPath := List Key

/-- `KeyPath.AppendKey`. -/
def KeyPath.AppendKey (pth : KeyPath) (key : Bytes) (enc : keyEncoding) : KeyPath :=
  pth ++ [⟨key, enc⟩]

/-- The segment `String` writes for a key, after its `/`. -/
def Key.segment (key : Key) : Bytes :=
  match key.enc with
  | .KeyEncodingURL => PathEscape key.name
  | .KeyEncodingHex => [120, 58] ++ EncodeUpper key.name

/-- `KeyPath.String`: `res += "/" + segment` for each key. -/
def KeyPath.String : KeyPath → Bytes
  | [] => []
  | key :: pth => (47 :: key.segment) ++ KeyPath.String pth

/-- The error of a path that does not start with `/`. -/
def errNoSlash : String := "key path string must start with a forward slash '/'"

/-- One part of `KeyPathToKeys`: hex after an `x:` prefix (`strings.HasPrefix`), URL escaping
otherwise.  The errors keep the source's formats. -/
def decodePart (part : Bytes) : Except String Bytes :=
  if part.take 2 = [120, 58] then
    (DecodeString (part.drop 2)).mapError fun e => "decoding hex-encoded part #%d: /%s: " ++ e
  else (PathUnescape part).mapError fun e => "decoding url-encoded part #%d: /%s: " ++ e

/-- `KeyPathToKeys`: the parts of the path after its leading `/`, split at every `/`. -/
def KeyPathToKeys (path : Bytes) : Except String (List Bytes) :=
  match path with
  | [] => throw errNoSlash
  | c :: rest => if c ≠ 47 then throw errNoSlash else (rest.splitOn 47).mapM decodePart

/-! ## The segments of a path -/

/-- A non-empty path is `/` and its segments joined by `/`. -/
lemma String_eq_intercalate : ∀ {kp : KeyPath}, kp ≠ [] →
    kp.String = 47 :: [47].intercalate (kp.map Key.segment)
  | [key], _ => by simp [KeyPath.String]
  | key :: key' :: kp, _ => by
    rw [KeyPath.String, String_eq_intercalate (List.cons_ne_nil key' kp)]
    simp [List.intercalate_cons_cons]

/-- No segment holds a `/`. -/
lemma slash_notMem_segment (key : Key) : (47 : UInt8) ∉ key.segment := by
  unfold Key.segment
  split
  · exact slash_notMem_PathEscape _
  · simp only [List.cons_append, List.nil_append, List.mem_cons, not_or]
    exact ⟨by decide, by decide, slash_notMem_EncodeUpper _⟩

/-- `KeyPathToKeys` decodes the segments of the keys, one by one. -/
lemma KeyPathToKeys_String {kp : KeyPath} (hkp : kp ≠ []) :
    KeyPathToKeys kp.String = (kp.map Key.segment).mapM decodePart := by
  rw [String_eq_intercalate hkp, KeyPathToKeys, if_neg (not_not.mpr rfl),
    List.splitOn_intercalate 47 _ (by simpa using hkp)]
  simp only [List.mem_map]
  rintro _ ⟨key, -, rfl⟩
  exact slash_notMem_segment key

/-! ## Which keys come back -/

/-- `x:` is not escaped. -/
lemma take_two_PathEscape_x (s : Bytes) :
    (PathEscape s).take 2 = [120, 58] ↔ s.take 2 = [120, 58] :=
  take_two_PathEscape (by decide) (by decide) (by decide) (by decide) s

/-- A hex-encoded key, or a URL-encoded key that does not start with `x:`, decodes to itself;
a URL-encoded key starting with `x:` does not. -/
lemma decodePart_segment (key : Key) :
    decodePart key.segment = .ok key.name ↔
      (key.enc = .KeyEncodingURL → key.name.take 2 ≠ [120, 58]) := by
  obtain ⟨name, enc⟩ := key
  cases enc with
  | KeyEncodingHex =>
    simp only [Key.segment, decodePart, List.cons_append, List.nil_append, List.take_succ_cons,
      List.take_zero, if_true, List.drop_succ_cons, List.drop_zero, DecodeString_EncodeUpper,
      reduceCtorEq, IsEmpty.forall_iff, iff_true]
    rfl
  | KeyEncodingURL =>
    simp only [Key.segment, decodePart, take_two_PathEscape_x, forall_const]
    by_cases hx : name.take 2 = [120, 58]
    · -- the segment is read as hex; were it the key, it would be twice as long as itself
      simp only [hx, if_true, ne_eq, not_true_eq_false, iff_false]
      intro h
      obtain ⟨d, hd, hmap⟩ : ∃ d, DecodeString ((PathEscape name).drop 2) = .ok d ∧ d = name := by
        cases hdec : DecodeString ((PathEscape name).drop 2) with
        | error e => rw [hdec] at h; cases h
        | ok d => rw [hdec] at h; cases h; exact ⟨name, rfl, rfl⟩
      obtain ⟨rest, rfl⟩ : ∃ rest, name = 120 :: 58 :: rest := by
        match name, hx with
        | a :: b :: rest, hx =>
          simp only [List.take_succ_cons, List.take_zero, List.cons.injEq] at hx
          obtain ⟨rfl, rfl, -⟩ := hx
          exact ⟨rest, rfl⟩
      have hesc : (PathEscape (120 :: 58 :: rest)).drop 2 = PathEscape rest := rfl
      rw [hesc, hmap] at hd
      obtain ⟨hlen, hhex⟩ := DecodeString_ok hd
      rw [PathEscape_eq_self_of_hex hhex] at hlen
      simp at hlen
      omega
    · simp only [hx, if_false, ne_eq, not_false_eq_true, iff_true]
      rw [PathUnescape_PathEscape]
      rfl

/-- For a non-empty key path, `KeyPathToKeys(kp.String())` gives back the keys of `kp` exactly
when no URL-encoded key starts with `x:`. -/
theorem KeyPathToKeys_String_iff (kp : KeyPath) (hkp : kp ≠ []) :
    KeyPathToKeys kp.String = .ok (kp.map (·.name)) ↔
      ∀ key ∈ kp, key.enc = .KeyEncodingURL → key.name.take 2 ≠ [120, 58] := by
  rw [KeyPathToKeys_String hkp, List.mapM_map, mapM_eq_ok_map_iff]
  exact forall₂_congr fun key _ => decodePart_segment key

/-- The URL-encoded key `x:41` is read back as hex: the one byte `A`. -/
theorem KeyPathToKeys_String_iff_x41 :
    KeyPathToKeys (KeyPath.String [⟨[120, 58, 52, 49], .KeyEncodingURL⟩]) ≠ .ok [[120, 58, 52, 49]] ∧
      KeyPathToKeys (KeyPath.String [⟨[120, 58, 52, 49], .KeyEncodingURL⟩]) = .ok [[65]] :=
  ⟨fun h => (KeyPathToKeys_String_iff _ (List.cons_ne_nil _ _)).mp h _ (List.mem_singleton_self _)
    rfl rfl, rfl⟩

end Merkle

end Tendermint
