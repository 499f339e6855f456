import Mathlib

/-!
# Lexicographic three-way comparison of lists

`lexCompare` is the usual comparison of sequences over a linearly ordered alphabet: the first
position where the two sequences differ decides, and a proper prefix comes first.  Byte-string
comparison in most languages' standard libraries is this function over the byte values, and
the sort orders and merges built on it need exactly three facts about it, all proved here:

* `lexCompare_eq_iff` — it answers `.eq` only on equal lists;
* `lexCompare_swap` — swapping the arguments swaps the answer;
* `lexCompare_lt_trans` — `.lt` is transitive.

Together they say `.lt` is a strict total order, which is what lets a sort by this key produce
one well-defined result.
-/

namespace Lex

variable {α : Type*} [LinearOrder α]

/-- Three-way lexicographic comparison. -/
def lexCompare : List α → List α → Ordering
  | [], [] => .eq
  | [], _ :: _ => .lt
  | _ :: _, [] => .gt
  | a :: as, b :: bs => if a < b then .lt else if b < a then .gt else lexCompare as bs

@[simp] lemma lexCompare_nil_nil : lexCompare ([] : List α) [] = .eq := rfl

@[simp] lemma lexCompare_nil_cons (b : α) (bs : List α) : lexCompare [] (b :: bs) = .lt := rfl

@[simp] lemma lexCompare_cons_nil (a : α) (as : List α) : lexCompare (a :: as) [] = .gt := rfl

lemma lexCompare_cons_cons (a b : α) (as bs : List α) :
    lexCompare (a :: as) (b :: bs)
      = if a < b then .lt else if b < a then .gt else lexCompare as bs := rfl

/-- On the equal heads the comparison moves on to the tails. -/
@[simp] lemma lexCompare_cons_self (a : α) (as bs : List α) :
    lexCompare (a :: as) (a :: bs) = lexCompare as bs := by
  simp [lexCompare_cons_cons]

@[simp] lemma lexCompare_self : ∀ l : List α, lexCompare l l = .eq
  | [] => rfl
  | a :: as => by rw [lexCompare_cons_self, lexCompare_self as]

lemma lexCompare_eq_iff : ∀ {l m : List α}, lexCompare l m = .eq ↔ l = m
  | [], [] => by simp
  | [], _ :: _ => by simp
  | _ :: _, [] => by simp
  | a :: as, b :: bs => by
      rw [lexCompare_cons_cons]
      rcases lt_trichotomy a b with h | rfl | h
      · simp [h, ne_of_lt h]
      · simp [lexCompare_eq_iff]
      · simp [h, not_lt_of_gt h, ne_of_gt h]

lemma lexCompare_swap : ∀ l m : List α, lexCompare m l = (lexCompare l m).swap
  | [], [] => rfl
  | [], _ :: _ => rfl
  | _ :: _, [] => rfl
  | a :: as, b :: bs => by
      rw [lexCompare_cons_cons, lexCompare_cons_cons]
      rcases lt_trichotomy a b with h | rfl | h
      · simp [h, not_lt_of_gt h]
      · simp [lexCompare_swap as bs]
      · simp [h, not_lt_of_gt h]

lemma lexCompare_lt_trans : ∀ {l m n : List α},
    lexCompare l m = .lt → lexCompare m n = .lt → lexCompare l n = .lt
  | [], [], [] => by simp
  | [], _ :: _, [] => by simp
  | [], _, _ :: _ => fun _ _ => rfl
  | _ :: _, [], _ => by simp
  | _ :: _, _ :: _, [] => by simp
  | a :: as, b :: bs, c :: cs => by
      intro h1 h2
      rw [lexCompare_cons_cons] at h1 h2 ⊢
      -- split on how the first and second heads compare; the tail comparisons only matter
      -- where the heads tie
      by_cases hab : a < b
      · have hac : a < c := by
          by_cases hbc : b < c
          · exact lt_trans hab hbc
          · have hcb : ¬ c < b := fun hcb => by simp [hbc, hcb] at h2
            exact lt_of_lt_of_le hab (le_of_not_gt hcb)
        simp [hac]
      · have hba : ¬ b < a := fun hba => by simp [hab, hba] at h1
        have hab' : a = b := le_antisymm (le_of_not_gt hba) (le_of_not_gt hab)
        subst hab'
        simp only [lt_irrefl, if_false] at h1
        by_cases hac : a < c
        · simp [hac]
        · have hca : ¬ c < a := fun hca => by simp [hac, hca] at h2
          simp only [hac, hca, if_false] at h2 ⊢
          exact lexCompare_lt_trans h1 h2

end Lex
