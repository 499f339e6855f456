import Mathlib

/-!
# Weights of bit masks

A list of booleans selects entries of a list by position; the weight of the selection is the
sum of the weights of the selected entries.  Vote tallies are weights of this kind: the bit of
a validator is set once its vote is counted, and the tally is the voting power of the
validators whose bit is set.

The lemmas are what a tally that grows one vote at a time needs: an empty mask weighs nothing,
setting a clear bit adds the weight of its entry, and with non-negative weights no mask weighs
more than the whole list.  Two more compare masks: a mask that selects more weighs more
(`weight_mono`), and two masks that never select the same entry weigh together at most the
whole list (`weight_add_le_sum`), which is what makes two quorums of one list intersect.
-/

namespace BitMask

variable {α : Type} (w : α → Int)

/-- The total weight of the entries of `l` whose bit in `bits` is set. -/
def weight (bits : List Bool) (l : List α) : Int :=
  (List.zipWith (fun b a => if b then w a else 0) bits l).sum

@[simp] lemma weight_nil_left (l : List α) : weight w [] l = 0 := by
  simp [weight]

@[simp] lemma weight_nil_right (bits : List Bool) : weight w bits [] = 0 := by
  simp [weight]

@[simp] lemma weight_cons (b : Bool) (bits : List Bool) (a : α) (l : List α) :
    weight w (b :: bits) (a :: l) = (if b then w a else 0) + weight w bits l := by
  simp [weight]

/-- With no bit set the selection is empty. -/
@[simp] lemma weight_replicate_false (n : Nat) (l : List α) :
    weight w (List.replicate n false) l = 0 := by
  induction n generalizing l with
  | zero => simp
  | succ n ih =>
    cases l with
    | nil => simp
    | cons a l => simp [List.replicate_succ, ih]

/-- Setting a clear bit adds the weight of the entry it selects. -/
lemma weight_set_true : ∀ {bits : List Bool} {l : List α} {i : Nat},
    bits[i]? = some false → (hi : i < l.length) →
      weight w (bits.set i true) l = weight w bits l + w l[i]
  | [], _, _, hb, _ => by simp at hb
  | _ :: _, [], _, _, hi => absurd hi (Nat.not_lt_zero _)
  | b :: bits, a :: l, 0, hb, _ => by
      simp only [List.getElem?_cons_zero, Option.some.injEq] at hb
      subst hb
      simp only [List.set_cons_zero, weight_cons, if_true, List.getElem_cons_zero]
      simp only [Bool.false_eq_true, if_false]
      omega
  | b :: bits, a :: l, i + 1, hb, hi => by
      simp only [List.getElem?_cons_succ] at hb
      simp only [List.set_cons_succ, weight_cons, List.getElem_cons_succ,
        weight_set_true hb (Nat.lt_of_succ_lt_succ hi)]
      omega

/-- Non-negative weights: no selection is negative. -/
lemma weight_nonneg {l : List α} (hw : ∀ a ∈ l, 0 ≤ w a) (bits : List Bool) :
    0 ≤ weight w bits l := by
  induction l generalizing bits with
  | nil => simp
  | cons a l ih =>
    cases bits with
    | nil => simp
    | cons b bits =>
      have ha := hw a List.mem_cons_self
      have hl := ih (fun x hx => hw x (List.mem_cons_of_mem _ hx)) bits
      rw [weight_cons]
      split <;> omega

/-- Non-negative weights: a selection weighs at most the whole list. -/
lemma weight_le_sum {l : List α} (hw : ∀ a ∈ l, 0 ≤ w a) (bits : List Bool) :
    weight w bits l ≤ (l.map w).sum := by
  induction l generalizing bits with
  | nil => simp
  | cons a l ih =>
    have ha := hw a List.mem_cons_self
    have hl := ih (fun x hx => hw x (List.mem_cons_of_mem _ hx))
    cases bits with
    | nil =>
      have := List.sum_nonneg (l := (a :: l).map w) (by simpa using hw)
      simpa using this
    | cons b bits =>
      have := hl bits
      rw [weight_cons, List.map_cons, List.sum_cons]
      split <;> omega

/-- Non-negative weights: a mask that selects more weighs more. -/
lemma weight_mono {l : List α} (hw : ∀ a ∈ l, 0 ≤ w a) {bits bits' : List Bool}
    (hlen : bits.length = bits'.length)
    (h : ∀ i : Nat, bits[i]? = some true → bits'[i]? = some true) :
    weight w bits l ≤ weight w bits' l := by
  induction l generalizing bits bits' with
  | nil => simp
  | cons a l ih =>
    have ha := hw a List.mem_cons_self
    have hw' : ∀ x ∈ l, 0 ≤ w x := fun x hx => hw x (List.mem_cons_of_mem _ hx)
    cases bits with
    | nil => simpa using weight_nonneg w hw bits'
    | cons b bits =>
      cases bits' with
      | nil => simp at hlen
      | cons b' bits' =>
        have hb : b = true → b' = true := fun hb => by simpa [hb] using h 0
        have hrest := @ih hw' bits bits' (by simpa using hlen) fun i hi => by
          simpa using h (i + 1) hi
        rw [weight_cons, weight_cons]
        cases b <;> cases b' <;> simp at hb ⊢ <;> omega

/-- Non-negative weights: two masks that never select the same entry weigh at most the whole
list together. -/
lemma weight_add_le_sum {l : List α} (hw : ∀ a ∈ l, 0 ≤ w a) {bits bits' : List Bool}
    (h : ∀ i : Nat, bits[i]? = some true → bits'[i]? ≠ some true) :
    weight w bits l + weight w bits' l ≤ (l.map w).sum := by
  induction l generalizing bits bits' with
  | nil => simp
  | cons a l ih =>
    have ha := hw a List.mem_cons_self
    have hw' : ∀ x ∈ l, 0 ≤ w x := fun x hx => hw x (List.mem_cons_of_mem _ hx)
    cases bits with
    | nil => simpa using weight_le_sum w hw bits'
    | cons b bits =>
      cases bits' with
      | nil => simpa using weight_le_sum w hw (b :: bits)
      | cons b' bits' =>
        have hb : b = true → b' ≠ true := fun hb => by simpa [hb] using h 0
        have hrest := @ih hw' bits bits' fun i hi => by simpa using h (i + 1) hi
        rw [weight_cons, weight_cons, List.map_cons, List.sum_cons]
        cases b <;> cases b' <;> simp at hb ⊢ <;> omega

end BitMask
