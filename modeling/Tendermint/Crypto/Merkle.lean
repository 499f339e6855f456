import Tendermint.Types.Basic
import Tendermint.Lib.Except

/-!
# Simple Merkle trees and their inclusion proofs (`crypto/merkle`)

The tree of `HashFromByteSlices` follows RFC-6962: a leaf is `tmhash(0x00 || leaf)`, an inner
node `tmhash(0x01 || left || right)`, and a list of `n ≥ 2` items is split at the largest
power of two below `n` (`getSplitPoint`).  `ProofsFromByteSlices` records, for each item, the
sibling hashes on its way up to the root (`trailsFromByteSlices` and `FlattenAunts`), and
`Proof.Verify` recomputes the root from a leaf and those siblings (`computeHashFromAunts`).

The hash `tmhash.Sum` is a parameter of the section: nothing here depends on what it computes.
Every proof `ProofsFromByteSlices` hands out verifies its own item against the root
(`ProofsFromByteSlices_verify`), and `HashFromByteSlicesIterative` computes the same root
(`HashFromByteSlicesIterative_eq`).  For a hash with no collision and no hash a proper prefix or
suffix of another (`HashBinding`, which `repHash` shows can hold), a proof that verifies a leaf
against the root of `items` proves it an item, the one at its index when its total is right
(`ProofsFromByteSlices_complete_binding`).  A proof authenticates its leaf at the index it
carries; it says nothing about the index of the `Part` it travels in.
-/

namespace Tendermint

namespace Merkle

/-- `merkle.Proof`. -/
structure Proof where
  total : Int
  index : Int
  leafHash : Bytes
  aunts : List Bytes
  deriving DecidableEq, Repr

/-- The split point of `getSplitPoint` on a length of at least one: the largest power of two
below `length`. -/
def splitPoint (length : Nat) : Nat :=
  let k := 2 ^ Nat.log2 length
  if k = length then k / 2 else k

/-- `getSplitPoint`: `bits.Len(uLength) - 1` is `log2 length`. -/
def getSplitPoint (length : Int) : Go Int :=
  if length < 1 then throw (.panic "Trying to split a tree with size < 1")
  else pure (splitPoint length.toNat)

lemma splitPoint_pos {n : Nat} (h : 2 ≤ n) : 1 ≤ splitPoint n := by
  have hle : 2 ^ Nat.log2 n ≤ n := Nat.log2_self_le (by omega)
  have hpos : 1 ≤ 2 ^ Nat.log2 n := Nat.one_le_two_pow
  simp only [splitPoint]
  split <;> omega

lemma splitPoint_lt {n : Nat} (h : 2 ≤ n) : splitPoint n < n := by
  have hle : 2 ^ Nat.log2 n ≤ n := Nat.log2_self_le (by omega)
  simp only [splitPoint]
  split <;> omega

/-- The split point is a power of two, and at least half the length. -/
lemma splitPoint_pow {n : Nat} (h : 2 ≤ n) : ∃ m, splitPoint n = 2 ^ m ∧ n ≤ 2 * splitPoint n := by
  have hle : 2 ^ Nat.log2 n ≤ n := Nat.log2_self_le (by omega)
  have hlt : n < 2 ^ (Nat.log2 n + 1) := Nat.lt_log2_self
  have hpos : 1 ≤ Nat.log2 n := by
    by_contra h0
    rw [show Nat.log2 n = 0 by omega] at hlt
    omega
  simp only [splitPoint]
  split_ifs with heq
  · -- `n` is itself a power of two: the split is at its half
    have h2 : 2 ^ Nat.log2 n = 2 * 2 ^ (Nat.log2 n - 1) := by
      rw [← pow_succ']
      congr 1
      omega
    refine ⟨Nat.log2 n - 1, ?_, ?_⟩
    · rw [h2, Nat.mul_div_cancel_left _ (by norm_num)]
    · rw [h2, Nat.mul_div_cancel_left _ (by norm_num)]
      omega
  · exact ⟨Nat.log2 n, rfl, by rw [pow_succ] at hlt; omega⟩

section Hash

variable (tmhash : Bytes → Bytes)

/-- `emptyHash`: `tmhash(<empty>)`. -/
def emptyHash : Bytes := tmhash []

/-- `leafHash`: `tmhash(0x00 || leaf)`. -/
def leafHash (leaf : Bytes) : Bytes := tmhash (0 :: leaf)

/-- `innerHash`: `tmhash(0x01 || left || right)`. -/
def innerHash (left right : Bytes) : Bytes := tmhash (1 :: (left ++ right))

lemma take_length_lt {α : Type} {a b : α} {rest : List α} {k : Nat} (hk : k < rest.length + 2) :
    ((a :: b :: rest).take k).length < rest.length + 2 := by
  simp
  omega

lemma drop_length_lt {α : Type} {a b : α} {rest : List α} {k : Nat} (hk : 1 ≤ k) :
    ((a :: b :: rest).drop k).length < rest.length + 2 := by
  simp
  omega

/-- `HashFromByteSlices`. -/
def HashFromByteSlices : List Bytes → Bytes
  | [] => emptyHash tmhash
  | [item] => leafHash tmhash item
  | a :: b :: rest =>
    let k := splitPoint (rest.length + 2)
    innerHash tmhash (HashFromByteSlices ((a :: b :: rest).take k))
      (HashFromByteSlices ((a :: b :: rest).drop k))
termination_by items => items.length
decreasing_by
  · exact take_length_lt (splitPoint_lt (by omega))
  · exact drop_length_lt (splitPoint_pos (by omega))

/-- `trailsFromByteSlices`, with the `ProofNode` of each item given by what `FlattenAunts`
reads off it: the item's leaf hash and the sibling hashes from the leaf up.  Joining two
subtrees sets the sibling of each subtree's root, so every trail of the left subtree gains the
right root's hash at its top, and the other way round. -/
def trailsFromByteSlices : List Bytes → List (Bytes × List Bytes) × Bytes
  | [] => ([], emptyHash tmhash)
  | [item] => ([(leafHash tmhash item, [])], leafHash tmhash item)
  | a :: b :: rest =>
    let k := splitPoint (rest.length + 2)
    let (lefts, leftRoot) := trailsFromByteSlices ((a :: b :: rest).take k)
    let (rights, rightRoot) := trailsFromByteSlices ((a :: b :: rest).drop k)
    (lefts.map (fun t => (t.1, t.2 ++ [rightRoot])) ++
        rights.map (fun t => (t.1, t.2 ++ [leftRoot])),
      innerHash tmhash leftRoot rightRoot)
termination_by items => items.length
decreasing_by
  · exact take_length_lt (splitPoint_lt (by omega))
  · exact drop_length_lt (splitPoint_pos (by omega))

/-- `ProofsFromByteSlices`: the root hash, and for item `i` the proof of index `i`. -/
def ProofsFromByteSlices (items : List Bytes) : Bytes × List Proof :=
  let (trails, root) := trailsFromByteSlices tmhash items
  (root, trails.mapIdx fun i t =>
    { total := items.length, index := i, leafHash := t.1, aunts := t.2 })

/-- `computeHashFromAunts`; `none` is Go's `nil`.  The `case 0` panic of the source cannot be
reached, `total ≤ 0` having returned before. -/
def computeHashFromAunts (index total : Int) (leafHash : Bytes) (innerHashes : List Bytes) :
    Option Bytes :=
  if index ≥ total ∨ index < 0 ∨ total ≤ 0 then none
  else if total = 1 then
    if innerHashes.length ≠ 0 then none else some leafHash
  else
    match _hlast : innerHashes.getLast? with
    | none => none
    | some last =>
      let numLeft : Int := splitPoint total.toNat
      if index < numLeft then
        (computeHashFromAunts index numLeft leafHash innerHashes.dropLast).map
          fun leftHash => innerHash tmhash leftHash last
      else
        (computeHashFromAunts (index - numLeft) (total - numLeft) leafHash
          innerHashes.dropLast).map fun rightHash => innerHash tmhash last rightHash
termination_by innerHashes.length
decreasing_by
  all_goals
    have hne : innerHashes ≠ [] := by
      rintro rfl
      simp at _hlast
    have := List.length_pos_iff.mpr hne
    simp only [List.length_dropLast]
    omega

/-- `Proof.ComputeRootHash`. -/
def Proof.ComputeRootHash (sp : Proof) : Option Bytes :=
  computeHashFromAunts tmhash sp.index sp.total sp.leafHash sp.aunts

/-- `Proof.Verify`; `bytes.Equal` reads a `nil` root as empty. -/
def Proof.Verify (sp : Proof) (rootHash leaf : Bytes) : Except String Unit :=
  if sp.total < 0 then throw "proof total must be positive"
  else if sp.index < 0 then throw "proof index cannot be negative"
  else if sp.leafHash ≠ Merkle.leafHash tmhash leaf then throw "invalid leaf hash: wanted %X got %X"
  else if (sp.ComputeRootHash tmhash).getD [] ≠ rootHash then
    throw "invalid root hash: wanted %X got %X"
  else pure ()

/-- `Verify` accepts exactly when the total and index are not negative, the leaf hash is the
leaf's, and the computed root, `nil` read as empty, is the root. -/
lemma Proof.Verify_eq_ok {sp : Proof} {rootHash leaf : Bytes} :
    sp.Verify tmhash rootHash leaf = .ok () ↔ 0 ≤ sp.total ∧ 0 ≤ sp.index ∧
      sp.leafHash = Merkle.leafHash tmhash leaf ∧ (sp.ComputeRootHash tmhash).getD [] = rootHash := by
  simp only [Proof.Verify, ExceptRun.ite_throw_eq_ok, not_lt, not_not]
  exact ⟨fun ⟨h₁, h₂, h₃, h₄, _⟩ => ⟨h₁, h₂, h₃, h₄⟩, fun ⟨h₁, h₂, h₃, h₄⟩ => ⟨h₁, h₂, h₃, h₄, rfl⟩⟩

/-! ## Honest proofs verify -/

/-- One level up on the left: the sibling on top is the right subtree's root. -/
lemma computeHashFromAunts_append_left {i n : Nat} (hn : 2 ≤ n) (hi : i < splitPoint n)
    (lh : Bytes) (aunts : List Bytes) (last : Bytes) :
    computeHashFromAunts tmhash i n lh (aunts ++ [last]) =
      (computeHashFromAunts tmhash i (splitPoint n) lh aunts).map
        fun leftHash => innerHash tmhash leftHash last := by
  have hlt := splitPoint_lt hn
  rw [computeHashFromAunts, if_neg (by omega), if_neg (by omega)]
  split
  · rename_i h
    simp at h
  · rename_i last' h
    obtain rfl : last' = last := by simpa using h.symm
    simp only [List.dropLast_concat, Int.toNat_natCast]
    rw [if_pos (by omega)]

/-- One level up on the right: the sibling on top is the left subtree's root. -/
lemma computeHashFromAunts_append_right {i n : Nat} (hn : 2 ≤ n) (hi : splitPoint n ≤ i)
    (hin : i < n) (lh : Bytes) (aunts : List Bytes) (last : Bytes) :
    computeHashFromAunts tmhash i n lh (aunts ++ [last]) =
      (computeHashFromAunts tmhash (i - splitPoint n : Nat) (n - splitPoint n : Nat) lh
        aunts).map fun rightHash => innerHash tmhash last rightHash := by
  have hlt := splitPoint_lt hn
  rw [computeHashFromAunts, if_neg (by omega), if_neg (by omega)]
  split
  · rename_i h
    simp at h
  · rename_i last' h
    obtain rfl : last' = last := by simpa using h.symm
    simp only [List.dropLast_concat, Int.toNat_natCast]
    rw [if_neg (by omega), Nat.cast_sub hi, Nat.cast_sub hlt.le]

/-- The trails give the root `HashFromByteSlices` computes. -/
lemma trailsFromByteSlices_root (items : List Bytes) :
    (trailsFromByteSlices tmhash items).2 = HashFromByteSlices tmhash items := by
  fun_induction trailsFromByteSlices tmhash items with
  | case1 => simp [HashFromByteSlices]
  | case2 item => simp [HashFromByteSlices]
  | case3 a b rest k lefts leftRoot hl rights rightRoot hr ihl ihr =>
    simp only [hl, hr] at ihl ihr
    rw [HashFromByteSlices]
    exact congrArg₂ (innerHash tmhash) ihl ihr

/-- One trail per item. -/
lemma trailsFromByteSlices_length (items : List Bytes) :
    (trailsFromByteSlices tmhash items).1.length = items.length := by
  fun_induction trailsFromByteSlices tmhash items with
  | case1 => rfl
  | case2 item => rfl
  | case3 a b rest k lefts leftRoot hl rights rightRoot hr ihl ihr =>
    simp only [hl, hr] at ihl ihr
    have hk : k < rest.length + 2 := splitPoint_lt (by omega)
    simp only [List.length_append, List.length_map, ihl, ihr, List.length_take,
      List.length_drop, List.length_cons]
    omega

/-- The trail of item `i` starts at the item's leaf hash, and its aunts lead from that leaf
hash to the root. -/
lemma trailsFromByteSlices_getElem? (items : List Bytes) :
    ∀ (i : Nat) (hi : i < items.length), ∃ aunts,
      (trailsFromByteSlices tmhash items).1[i]? = some (leafHash tmhash items[i], aunts) ∧
        computeHashFromAunts tmhash i items.length (leafHash tmhash items[i]) aunts =
          some (HashFromByteSlices tmhash items) := by
  fun_induction trailsFromByteSlices tmhash items with
  | case1 => intro i hi; simp at hi
  | case2 item =>
    intro i hi
    obtain rfl : i = 0 := by simpa using hi
    refine ⟨[], rfl, ?_⟩
    simp [computeHashFromAunts, HashFromByteSlices]
  | case3 a b rest k lefts leftRoot hl rights rightRoot hr ihl ihr =>
    intro i hi
    have hi' : i < rest.length + 2 := hi
    have hn : 2 ≤ (a :: b :: rest).length := by simp
    have hkpos : 1 ≤ k := splitPoint_pos hn
    have hklt : k < rest.length + 2 := splitPoint_lt hn
    -- the roots and the number of trails of the two subtrees
    have hlroot := trailsFromByteSlices_root tmhash ((a :: b :: rest).take k)
    have hrroot := trailsFromByteSlices_root tmhash ((a :: b :: rest).drop k)
    have hllen := trailsFromByteSlices_length tmhash ((a :: b :: rest).take k)
    simp only [hl, hr] at hlroot hrroot hllen ihl ihr
    have hlk : lefts.length = k := by simp [hllen]; omega
    have hroot : HashFromByteSlices tmhash (a :: b :: rest) =
        innerHash tmhash leftRoot rightRoot := by
      rw [HashFromByteSlices, hlroot, hrroot]
    rw [hroot]
    have hsplit : splitPoint (a :: b :: rest).length = k := rfl
    by_cases hik : i < k
    · -- item `i` is in the left subtree
      obtain ⟨aunts, htrail, hcomp⟩ := ihl i (by simp; omega)
      have hmin : min k (a :: b :: rest).length = k := Nat.min_eq_left (by simp; omega)
      simp only [List.getElem_take, List.length_take, hmin] at htrail hcomp
      refine ⟨aunts ++ [rightRoot], ?_, ?_⟩
      · rw [List.getElem?_append_left (by simp [hlk]; omega), List.getElem?_map, htrail]
        rfl
      · rw [@computeHashFromAunts_append_left tmhash i _ hn (hsplit ▸ hik), hsplit, hcomp,
          ← hlroot]
        rfl
    · -- item `i` is in the right subtree, at `i - k`
      obtain ⟨aunts, htrail, hcomp⟩ := ihr (i - k) (by simp; omega)
      have hidx : k + (i - k) = i := by omega
      simp only [List.getElem_drop, List.length_drop, hidx] at htrail hcomp
      refine ⟨aunts ++ [leftRoot], ?_, ?_⟩
      · rw [List.getElem?_append_right (by simp [hlk]; omega), List.getElem?_map, List.length_map,
          hlk, htrail]
        rfl
      · rw [@computeHashFromAunts_append_right tmhash i _ hn (hsplit ▸ Nat.le_of_not_lt hik) hi,
          hsplit, hcomp, ← hrroot]
        rfl

lemma ProofsFromByteSlices_nil : ProofsFromByteSlices tmhash [] = (emptyHash tmhash, []) := by
  simp [ProofsFromByteSlices, trailsFromByteSlices]

/-- One proof per item. -/
lemma ProofsFromByteSlices_length (items : List Bytes) :
    (ProofsFromByteSlices tmhash items).2.length = items.length := by
  simp [ProofsFromByteSlices, trailsFromByteSlices_length]

/-- Completeness of `ProofsFromByteSlices`: the proof of item `i` has index `i` and total
`len(items)`, and it verifies item `i` against the root. -/
theorem ProofsFromByteSlices_verify (items : List Bytes) (i : Nat) (hi : i < items.length) :
    ∃ proof, (ProofsFromByteSlices tmhash items).2[i]? = some proof ∧ proof.index = i ∧
      proof.total = items.length ∧
      proof.Verify tmhash (ProofsFromByteSlices tmhash items).1 items[i] = .ok () := by
  obtain ⟨aunts, htrail, hcomp⟩ := trailsFromByteSlices_getElem? tmhash items i hi
  have hroot := trailsFromByteSlices_root tmhash items
  refine ⟨⟨items.length, i, leafHash tmhash items[i], aunts⟩, ?_, rfl, rfl, ?_⟩
  · simp [ProofsFromByteSlices, List.getElem?_mapIdx, htrail]
  · simp only [ProofsFromByteSlices, Proof.Verify, Proof.ComputeRootHash, hcomp, hroot]
    simp only [Option.getD_some, ne_eq, not_true_eq_false, if_false]
    rw [if_neg (by omega), if_neg (by omega)]
    rfl

/-! ## The iterative root

`HashFromByteSlicesIterative` hashes the leaves and then replaces the list, level by level, by
the inner hashes of neighbouring pairs, a last odd node going up as it is (`pairUp`), until one
node is left.  The recursive split at the largest power of two `k` below `n` builds the same
tree: `k` is even, so pairing `k` nodes and the rest is pairing each part on its own
(`pairUp_append`), and after as many levels as the left part needs to become one node, the
right part, no longer than `k`, is one node too (`iterate_append`). -/

/-- One level of `HashFromByteSlicesIterative`: the inner loop over the read position. -/
def pairUp : List Bytes → List Bytes
  | a :: b :: rest => innerHash tmhash a b :: pairUp rest
  | [a] => [a]
  | [] => []

lemma pairUp_length : ∀ l : List Bytes, (pairUp tmhash l).length = (l.length + 1) / 2
  | a :: b :: rest => by
    rw [pairUp, List.length_cons, pairUp_length rest]
    simp only [List.length_cons]
    omega
  | [a] => by simp [pairUp]
  | [] => rfl

/-- The outer loop: levels until one node is left. -/
def iterate (items : List Bytes) : Bytes :=
  match items with
  | [] => emptyHash tmhash
  | [item] => item
  | a :: b :: rest => iterate (pairUp tmhash (a :: b :: rest))
termination_by items.length
decreasing_by
  rw [pairUp_length]
  simp only [List.length_cons]
  omega

/-- `HashFromByteSlicesIterative`. -/
def HashFromByteSlicesIterative (input : List Bytes) : Bytes :=
  iterate tmhash (input.map (leafHash tmhash))

/-- A level more changes no root: one node goes up as it is. -/
lemma iterate_pairUp (l : List Bytes) : iterate tmhash (pairUp tmhash l) = iterate tmhash l := by
  match l with
  | [] => rfl
  | [a] => rfl
  | a :: b :: rest => rw [iterate.eq_3]

/-- Pairing a list of even length and what follows it pairs each part on its own. -/
lemma pairUp_append : ∀ (L R : List Bytes), Even L.length →
    pairUp tmhash (L ++ R) = pairUp tmhash L ++ pairUp tmhash R
  | [], R, _ => rfl
  | [a], R, h => by simp at h
  | a :: b :: L, R, h => by
    have h' : Even L.length := by
      simpa [List.length_cons, Nat.even_add_one] using h
    simp only [List.cons_append, pairUp, pairUp_append L R h']

/-- The tree over `2^m` nodes and at least one but at most `2^m` more is the inner node of the
two trees. -/
lemma iterate_append : ∀ (m : Nat) (L R : List Bytes), L.length = 2 ^ m → 1 ≤ R.length →
    R.length ≤ 2 ^ m →
    iterate tmhash (L ++ R) = innerHash tmhash (iterate tmhash L) (iterate tmhash R)
  | 0, L, R, hL, hR, hR' => by
    -- one node on each side
    match L, R, hL with
    | [a], [b], _ => simp only [List.singleton_append, iterate.eq_2, iterate.eq_3, pairUp]
    | [a], [], _ => simp at hR
    | [a], _ :: _ :: _, _ => simp at hR'
  | m + 1, L, R, hL, hR, hR' => by
    have heven : Even L.length := ⟨2 ^ m, by rw [hL, pow_succ]; ring⟩
    have hlen : 2 ≤ (L ++ R).length := by
      rw [List.length_append, hL, pow_succ]
      have := Nat.one_le_two_pow (n := m)
      omega
    have hL' : (pairUp tmhash L).length = 2 ^ m := by
      rw [pairUp_length, hL, pow_succ]
      omega
    have hR₁ : 1 ≤ (pairUp tmhash R).length := by rw [pairUp_length]; omega
    have hR₂ : (pairUp tmhash R).length ≤ 2 ^ m := by
      rw [pairUp_length]
      rw [pow_succ] at hR'
      omega
    calc iterate tmhash (L ++ R)
        = iterate tmhash (pairUp tmhash (L ++ R)) := (iterate_pairUp tmhash _).symm
      _ = iterate tmhash (pairUp tmhash L ++ pairUp tmhash R) := by rw [pairUp_append tmhash L R heven]
      _ = innerHash tmhash (iterate tmhash (pairUp tmhash L)) (iterate tmhash (pairUp tmhash R)) :=
          iterate_append m _ _ hL' hR₁ hR₂
      _ = innerHash tmhash (iterate tmhash L) (iterate tmhash R) := by
          rw [iterate_pairUp, iterate_pairUp]

/-- The iterative root is the recursive one, for every list of items. -/
theorem HashFromByteSlicesIterative_eq (items : List Bytes) :
    HashFromByteSlicesIterative tmhash items = HashFromByteSlices tmhash items := by
  unfold HashFromByteSlicesIterative
  fun_induction HashFromByteSlices tmhash items with
  | case1 => rw [List.map_nil, iterate.eq_1]
  | case2 item => rw [List.map_singleton, iterate.eq_2]
  | case3 a b rest k ihl ihr =>
    have hn : 2 ≤ rest.length + 2 := by omega
    obtain ⟨m, hk, hk2⟩ := splitPoint_pow hn
    have hk' : k = 2 ^ m := hk
    have hklt : k < rest.length + 2 := splitPoint_lt hn
    -- the leaves split at `k`, a power of two, with no more than `k` after it
    rw [← List.take_append_drop k (a :: b :: rest), List.map_append,
      iterate_append tmhash m _ _ (by simp; omega) (by simp; omega) (by simp; omega), ihl, ihr]
    rw [List.take_append_drop]

/-! ## Binding

A proof that verifies against the root of `items` proves an item of `items`, the one at its
index when its total is the number of items.  That needs the hashes to be told apart once
joined: `HashBinding` asks `tmhash` to be injective and no hash to be a proper prefix or suffix of
another.  Then a leaf, an inner node and the empty tree never hash alike, and an inner node
over a computed hash and any sibling splits back into the two (`innerHash_left`,
`innerHash_right`); the verifier's walk up from the leaf meets the tree's own nodes, level by
level, down to a leaf of the tree (`mem_of_computeHashFromAunts`). -/

/-- What binding needs of `tmhash`: no collision, and no hash a proper prefix or suffix of
another. -/
structure HashBinding : Prop where
  inj : Function.Injective tmhash
  prefixFree : ∀ a b u v : Bytes, tmhash a ++ u = tmhash b ++ v → tmhash a = tmhash b
  suffixFree : ∀ a b u v : Bytes, u ++ tmhash a = v ++ tmhash b → tmhash a = tmhash b

/-- A value `tmhash` returns. -/
def IsHash (c : Bytes) : Prop := ∃ b, c = tmhash b

lemma isHash_HashFromByteSlices (items : List Bytes) :
    IsHash tmhash (HashFromByteSlices tmhash items) := by
  match items with
  | [] => exact ⟨[], by rw [HashFromByteSlices.eq_1]; rfl⟩
  | [item] => exact ⟨_, by rw [HashFromByteSlices.eq_2]; rfl⟩
  | a :: b :: rest => exact ⟨_, by rw [HashFromByteSlices.eq_3]; rfl⟩

/-- What `computeHashFromAunts` returns from a leaf hash is a hash. -/
lemma isHash_computeHashFromAunts {index total : Int} {lh c : Bytes} {aunts : List Bytes}
    (hlh : IsHash tmhash lh) (h : computeHashFromAunts tmhash index total lh aunts = some c) :
    IsHash tmhash c := by
  rw [computeHashFromAunts] at h
  by_cases hr : index ≥ total ∨ index < 0 ∨ total ≤ 0
  · rw [if_pos hr] at h
    cases h
  rw [if_neg hr] at h
  by_cases ht : total = 1
  · rw [if_pos ht] at h
    split_ifs at h
    cases h
    exact hlh
  rw [if_neg ht] at h
  split at h
  · cases h
  · -- one level up: an inner hash
    dsimp only at h
    split_ifs at h <;>
    · obtain ⟨_, -, rfl⟩ := Option.map_eq_some_iff.mp h
      exact ⟨_, rfl⟩

section HashBinding

variable {tmhash} (hb : HashBinding tmhash)
include hb

lemma HashBinding.innerHash_left {l r l' r' : Bytes} (hl : IsHash tmhash l)
    (hl' : IsHash tmhash l') (h : innerHash tmhash l r = innerHash tmhash l' r') : l = l' := by
  obtain ⟨a, rfl⟩ := hl
  obtain ⟨b, rfl⟩ := hl'
  exact hb.prefixFree a b r r' (List.cons.inj (hb.inj h)).2

lemma HashBinding.innerHash_right {l r l' r' : Bytes} (hr : IsHash tmhash r)
    (hr' : IsHash tmhash r') (h : innerHash tmhash l r = innerHash tmhash l' r') : r = r' := by
  obtain ⟨a, rfl⟩ := hr
  obtain ⟨b, rfl⟩ := hr'
  exact hb.suffixFree a b l l' (List.cons.inj (hb.inj h)).2

lemma HashBinding.leafHash_inj {x y : Bytes} (h : leafHash tmhash x = leafHash tmhash y) :
    x = y :=
  (List.cons.inj (hb.inj h)).2

lemma HashBinding.leafHash_ne_innerHash (x l r : Bytes) :
    leafHash tmhash x ≠ innerHash tmhash l r := fun h =>
  absurd (List.cons.inj (hb.inj h)).1 (by decide)

lemma HashBinding.leafHash_ne_emptyHash (x : Bytes) : leafHash tmhash x ≠ emptyHash tmhash :=
  fun h => nomatch hb.inj h

lemma HashBinding.innerHash_ne_emptyHash (l r : Bytes) : innerHash tmhash l r ≠ emptyHash tmhash :=
  fun h => nomatch hb.inj h

/-- A hash is not empty: it would be a prefix of every other. -/
lemma HashBinding.ne_nil (a : Bytes) : tmhash a ≠ [] := by
  intro h
  have hab := hb.prefixFree a (0 :: a) (tmhash (0 :: a)) [] (by rw [h, List.nil_append, List.append_nil])
  exact absurd (hb.inj hab) (fun h' => by simpa using congrArg List.length h')

/-- The walk up from the leaf of `x` meets the root of `items` only if `x` is an item, and the
one at the index when the total is the number of items: by induction on the aunts, from the
top, each level meeting the tree's own inner node. -/
lemma mem_of_computeHashFromAunts (x : Bytes) (aunts : List Bytes) :
    ∀ (i t : Int) (items : List Bytes),
      computeHashFromAunts tmhash i t (leafHash tmhash x) aunts =
        some (HashFromByteSlices tmhash items) →
      x ∈ items ∧ (t = items.length → items[i.toNat]? = some x) := by
  induction aunts using List.reverseRecOn with
  | nil =>
    intro i t items h
    rw [computeHashFromAunts] at h
    by_cases hr : i ≥ t ∨ i < 0 ∨ t ≤ 0
    · rw [if_pos hr] at h
      cases h
    rw [if_neg hr] at h
    by_cases ht : t = 1
    · -- no aunts: the tree is the one leaf, that of `x`
      rw [if_pos ht, if_neg (by simp)] at h
      have hleaf : leafHash tmhash x = HashFromByteSlices tmhash items := Option.some.inj h
      rcases items with _ | ⟨y, _ | ⟨b, rest⟩⟩
      · rw [HashFromByteSlices.eq_1] at hleaf
        exact absurd hleaf (hb.leafHash_ne_emptyHash x)
      · rw [HashFromByteSlices.eq_2] at hleaf
        obtain rfl := hb.leafHash_inj hleaf
        refine ⟨List.mem_singleton_self x, fun _ => ?_⟩
        rw [show i.toNat = 0 by omega]
        rfl
      · rw [HashFromByteSlices.eq_3] at hleaf
        exact absurd hleaf (hb.leafHash_ne_innerHash x _ _)
    · rw [if_neg ht] at h
      simp at h
  | append_singleton l last ih =>
    intro i t items h
    rw [computeHashFromAunts] at h
    by_cases hr : i ≥ t ∨ i < 0 ∨ t ≤ 0
    · rw [if_pos hr] at h
      cases h
    rw [if_neg hr] at h
    by_cases ht : t = 1
    · rw [if_pos ht, if_pos (by simp)] at h
      cases h
    rw [if_neg ht] at h
    split at h
    · rename_i hlast
      simp at hlast
    rename_i last' hlast
    obtain rfl : last = last' := by simpa using hlast
    rw [List.dropLast_concat] at h
    -- the root is an inner node, so the tree has two subtrees, split at `k`
    have hinner : ∀ l r, innerHash tmhash l r = HashFromByteSlices tmhash items →
        ∃ a b rest, items = a :: b :: rest ∧
          innerHash tmhash l r = innerHash tmhash
            (HashFromByteSlices tmhash (items.take (splitPoint (rest.length + 2))))
            (HashFromByteSlices tmhash (items.drop (splitPoint (rest.length + 2)))) := by
      intro l r hlr
      rcases items with _ | ⟨y, _ | ⟨b, rest⟩⟩
      · rw [HashFromByteSlices.eq_1] at hlr
        exact absurd hlr (hb.innerHash_ne_emptyHash _ _)
      · rw [HashFromByteSlices.eq_2] at hlr
        exact absurd hlr.symm (hb.leafHash_ne_innerHash _ _ _)
      · rw [HashFromByteSlices.eq_3] at hlr
        exact ⟨y, b, rest, rfl, hlr⟩
    have hlh : IsHash tmhash (leafHash tmhash x) := ⟨_, rfl⟩
    dsimp only at h
    split_ifs at h with hi
    · -- `x` is on the left: the left subtree's root is what the walk computed below
      obtain ⟨c, hc, hlr⟩ := Option.map_eq_some_iff.mp h
      obtain ⟨a, b, rest, rfl, hlr⟩ := hinner c last hlr
      rw [hb.innerHash_left (isHash_computeHashFromAunts tmhash hlh hc)
        (isHash_HashFromByteSlices tmhash _) hlr] at hc
      obtain ⟨hmem, hidx⟩ := ih _ _ _ hc
      refine ⟨List.mem_of_mem_take hmem, fun htl => ?_⟩
      have hn : 2 ≤ rest.length + 2 := by omega
      have hk := splitPoint_lt hn
      have htn : t.toNat = rest.length + 2 := by simp at htl; omega
      have hsub := hidx (by simp [htn]; omega)
      rw [List.getElem?_take] at hsub
      split_ifs at hsub
      exact hsub
    · -- `x` is on the right, at `i - k` in the right subtree
      obtain ⟨c, hc, hlr⟩ := Option.map_eq_some_iff.mp h
      obtain ⟨a, b, rest, rfl, hlr⟩ := hinner last c hlr
      rw [hb.innerHash_right (isHash_computeHashFromAunts tmhash hlh hc)
        (isHash_HashFromByteSlices tmhash _) hlr] at hc
      obtain ⟨hmem, hidx⟩ := ih _ _ _ hc
      refine ⟨List.mem_of_mem_drop hmem, fun htl => ?_⟩
      have hn : 2 ≤ rest.length + 2 := by omega
      have hk := splitPoint_lt hn
      have htn : t.toNat = rest.length + 2 := by simp at htl; omega
      have hsub := hidx (by simp only [htn, List.length_drop, List.length_cons]; omega)
      rw [List.getElem?_drop] at hsub
      rw [← hsub]
      congr 1
      simp only [htn] at hi ⊢
      omega

/-- A proof that verifies `x` against the root of `items` walks up from the leaf of `x` to that
root: the computed root cannot be `nil`, which `Verify` reads as empty, as the root is a hash. -/
lemma HashBinding.mem_of_Verify {items : List Bytes} {p : Proof} {x : Bytes}
    (h : p.Verify tmhash (HashFromByteSlices tmhash items) x = .ok ()) :
    x ∈ items ∧ (p.total = items.length → items[p.index.toNat]? = some x) := by
  obtain ⟨-, -, hleaf, hroot⟩ := (Proof.Verify_eq_ok tmhash).mp h
  cases hc : p.ComputeRootHash tmhash with
  | none =>
    rw [hc, Option.getD_none] at hroot
    obtain ⟨b, hb'⟩ := isHash_HashFromByteSlices tmhash items
    exact absurd (hroot.trans hb').symm (hb.ne_nil b)
  | some c =>
    rw [hc, Option.getD_some] at hroot
    rw [Proof.ComputeRootHash, hleaf, hroot] at hc
    exact mem_of_computeHashFromAunts hb x p.aunts p.index p.total items hc

end HashBinding

/-- Merkle proofs are complete, and binding for a hash with no collision nor a hash that is a
proper prefix or suffix of another: `ProofsFromByteSlices` returns the root of the items and
for each a proof that verifies it, and a proof that verifies `x` against the root of `items`
proves `x` an item, the one at its index when its total is the number of items. -/
theorem ProofsFromByteSlices_complete_binding (items : List Bytes) :
    (ProofsFromByteSlices tmhash items).1 = HashFromByteSlices tmhash items ∧
      (∀ (i : Nat) (hi : i < items.length), ∃ proof,
        (ProofsFromByteSlices tmhash items).2[i]? = some proof ∧
        proof.Verify tmhash (ProofsFromByteSlices tmhash items).1 items[i] = .ok ()) ∧
      (HashBinding tmhash → ∀ (p : Proof) (x : Bytes),
        p.Verify tmhash (HashFromByteSlices tmhash items) x = .ok () →
        x ∈ items ∧ (p.total = items.length → items[p.index.toNat]? = some x)) := by
  refine ⟨trailsFromByteSlices_root tmhash items, fun i hi => ?_, fun hb p x h => hb.mem_of_Verify h⟩
  obtain ⟨proof, hget, -, -, hverify⟩ := ProofsFromByteSlices_verify tmhash items i hi
  exact ⟨proof, hget, hverify⟩

end Hash

/-! ## A hash with the binding properties

Injectivity and the two freeness conditions hold together: write `b` as a number `codeNat b`
and hash it to `n` zeros, a one, and `n` zeros.  The one sits at the same place from either
end, so a hash that starts or ends another is that one. -/

/-- Bytes in base 257, each digit one more than the byte, so that no digit is zero. -/
def codeNat : Bytes → Nat
  | [] => 0
  | x :: xs => x.toNat + 1 + 257 * codeNat xs

lemma codeNat_inj : ∀ {a b : Bytes}, codeNat a = codeNat b → a = b
  | [], [], _ => rfl
  | [], _ :: _, h => by simp [codeNat] at h; omega
  | _ :: _, [], h => by simp [codeNat] at h
  | x :: xs, y :: ys, h => by
    simp only [codeNat] at h
    have hx := x.toNat_lt
    have hy := y.toNat_lt
    have hxy : x.toNat = y.toNat := by omega
    obtain rfl : xs = ys := codeNat_inj (by omega)
    rw [UInt8.toNat_inj.mp hxy]

/-- The mark `0^n 1 0^n` of `codeNat b`. -/
def repHash (b : Bytes) : Bytes :=
  List.replicate (codeNat b) 0 ++ 1 :: List.replicate (codeNat b) 0

/-- The first one of a list starting with a mark is where the mark has it. -/
lemma replicate_append_one_inj : ∀ {n m : Nat} {s s' : Bytes},
    List.replicate n 0 ++ 1 :: s = List.replicate m 0 ++ 1 :: s' → n = m ∧ s = s'
  | 0, 0, _, _, h => by simpa using h
  | 0, _ + 1, _, _, h => by simp [List.replicate_succ] at h
  | _ + 1, 0, _, _, h => by simp [List.replicate_succ] at h
  | n + 1, m + 1, s, s', h => by
    simp only [List.replicate_succ, List.cons_append, List.cons.injEq, true_and] at h
    obtain ⟨rfl, rfl⟩ := replicate_append_one_inj h
    exact ⟨rfl, rfl⟩

lemma repHash_prefix {a b : Bytes} {u v : Bytes} (h : repHash a ++ u = repHash b ++ v) :
    repHash a = repHash b := by
  simp only [repHash, List.append_assoc, List.cons_append] at h
  obtain ⟨hn, -⟩ := replicate_append_one_inj h
  rw [repHash, repHash, hn]

lemma reverse_repHash (b : Bytes) : (repHash b).reverse = repHash b := by
  simp [repHash]

theorem HashBinding_repHash : HashBinding repHash where
  inj a b h := by
    have hlen := congrArg List.length h
    simp only [repHash, List.length_append, List.length_replicate, List.length_cons] at hlen
    exact codeNat_inj (by omega)
  prefixFree _ _ _ _ h := repHash_prefix h
  suffixFree a b u v h := by
    have h' := congrArg List.reverse h
    simp only [List.reverse_append, reverse_repHash] at h'
    exact repHash_prefix h'

/-- A tree of three items: the proof that `ProofsFromByteSlices` returns for the last one verifies
it against the root, and a proof that verifies it proves it the item at its index. -/
theorem ProofsFromByteSlices_complete_binding_three :
    HashBinding repHash ∧ ∃ proof,
      (ProofsFromByteSlices repHash [[1], [2], [3]]).2[2]? = some proof ∧
      proof.Verify repHash (HashFromByteSlices repHash [[1], [2], [3]]) [3] = .ok () ∧
      ([3] : Bytes) ∈ ([[1], [2], [3]] : List Bytes) ∧
      (proof.total = 3 → ([[1], [2], [3]] : List Bytes)[proof.index.toNat]? = some [3]) := by
  have h := ProofsFromByteSlices_complete_binding repHash [[1], [2], [3]]
  obtain ⟨proof, hget, hverify⟩ := h.2.1 2 (by decide)
  rw [h.1] at hverify
  exact ⟨HashBinding_repHash, proof, hget, hverify,
    h.2.2 HashBinding_repHash proof [3] hverify⟩

end Merkle

end Tendermint
