import Mathlib.Logic.Relation
import Mathlib.Order.Basic
import Mathlib.Data.List.Pairwise

/-!
# Runs of a transition system, and the log it writes

A component that takes one input at a time is a step relation on its states, and what it sends
is a log it only appends to.  Results about its runs are built from two rules:

* `Run.inv` — an invariant that every step keeps holds along every run;
* `Run.monotone` — a measure that no step from a state with the invariant lowers does not go
  down along a run from such a state.

Results about its log come from one fact about lists: if the keys of the entries that have one
were written in strictly increasing order, no two entries share a key (`Log.eq_of_key_eq`).

A record it only adds to (a partial map whose values, once set, are never overwritten) grows
along `Record.Extends`, which is reflexive and transitive.
-/

namespace Run

variable {σ β : Type*} {Step : σ → σ → Prop} {Inv : σ → Prop}

/-- An invariant kept by every step holds along every run. -/
theorem inv (hstep : ∀ s s', Inv s → Step s s' → Inv s') {s s' : σ} (hs : Inv s)
    (hrun : Relation.ReflTransGen Step s s') : Inv s' := by
  induction hrun with
  | refl => exact hs
  | tail _ hlast ih => exact hstep _ _ ih hlast

/-- A measure that no step from a state with the invariant lowers, and that keeps the
invariant, does not go down along a run. -/
theorem monotone [Preorder β] {f : σ → β}
    (hstep : ∀ s s', Inv s → Step s s' → Inv s' ∧ f s ≤ f s') {s s' : σ} (hs : Inv s)
    (hrun : Relation.ReflTransGen Step s s') : Inv s' ∧ f s ≤ f s' := by
  induction hrun with
  | refl => exact ⟨hs, le_rfl⟩
  | tail _ hlast ih =>
    obtain ⟨hinv, hle⟩ := ih
    obtain ⟨hinv', hle'⟩ := hstep _ _ hinv hlast
    exact ⟨hinv', hle.trans hle'⟩

end Run

namespace Log

variable {α κ : Type*} [Preorder κ]

/-- In a log whose keys strictly increase, an entry is the only one with its key. -/
theorem eq_of_key_eq {key : α → Option κ} :
    ∀ {l : List α}, (l.filterMap key).Pairwise (· < ·) →
      ∀ {a b : α} {k : κ}, a ∈ l → b ∈ l → key a = some k → key b = some k → a = b
  | [], _, _, _, _, ha, _, _, _ => nomatch ha
  | c :: l, hl, a, b, k, ha, hb, hka, hkb => by
    -- an entry with the key of the head would put that key after itself
    have hhead : ∀ {d}, d ∈ l → key c = some k → key d = some k → False := by
      intro d hd hc hdk
      rw [List.filterMap_cons, hc, List.pairwise_cons] at hl
      exact lt_irrefl k (hl.1 k (List.mem_filterMap.mpr ⟨d, hd, hdk⟩))
    have htail : (l.filterMap key).Pairwise (· < ·) := by
      rw [List.filterMap_cons] at hl
      cases hc : key c with
      | none => rwa [hc] at hl
      | some _ =>
        rw [hc] at hl
        exact (List.pairwise_cons.mp hl).2
    rcases List.mem_cons.mp ha with rfl | ha' <;> rcases List.mem_cons.mp hb with rfl | hb'
    · rfl
    · exact (hhead hb' hka hkb).elim
    · exact (hhead ha' hkb hka).elim
    · exact eq_of_key_eq htail ha' hb' hka hkb

end Log

namespace Record

variable {α β : Type*}

/-- `q` keeps every value that `p` has, and may have more. -/
def Extends (p q : α → Option β) : Prop := ∀ a b, p a = some b → q a = some b

@[refl] lemma Extends.refl (p : α → Option β) : Extends p p := fun _ _ h => h

lemma Extends.of_eq {p q : α → Option β} (h : q = p) : Extends p q := h ▸ Extends.refl p

end Record
