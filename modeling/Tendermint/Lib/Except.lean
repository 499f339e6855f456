import Mathlib

/-!
# Running a sequence of fallible steps backwards

A model written in `Except` is a chain of binds.  To reason about a successful run one peels
the chain apart from the front: a successful `x >>= f` had a successful `x`, whose result `f`
then turned into the final one.  `bind_eq_ok` says exactly that, and `bind_map_eq_ok` says it
of a run known only through a projection of its result.  A validation
routine is a chain of checks returning `Unit`; `check_bind_eq_ok`, `ite_throw_eq_ok` and
`mapError_eq_ok` turn its success into the conjunction of its checks, in both directions.

The other direction of reasoning asks which errors a run can end in.  `FailsOnly P x` says every
error `x` can return satisfies `P`; it composes through binds (`FailsOnly.bind`), so a bound on
the errors of a whole pipeline is assembled from bounds on its steps, each step being allowed
to assume that the steps before it succeeded.
-/

namespace ExceptRun

variable {ε α β : Type}

/-- A successful bind had a successful first step. -/
lemma bind_eq_ok {x : Except ε α} {f : α → Except ε β} {b : β} (h : x >>= f = .ok b) :
    ∃ a, x = .ok a ∧ f a = .ok b := by
  cases x with
  | error e => cases h
  | ok a => exact ⟨a, rfl, h⟩

/-- A property that every step of a fold keeps, on the elements of its list, holds of what a
successful fold returns. -/
lemma foldlM_inv_of_mem {P : β → Prop} {f : β → α → Except ε β} :
    ∀ (l : List α), (∀ b a b', a ∈ l → P b → f b a = .ok b' → P b') →
      ∀ {b b' : β}, P b → l.foldlM f b = .ok b' → P b'
  | [], _, _, _, hb, h => by
    cases h
    exact hb
  | a :: l, hf, b, _, hb, h => by
    rw [List.foldlM_cons] at h
    obtain ⟨b₁, h₁, hrest⟩ := bind_eq_ok h
    have hb₁ : P b₁ := hf b a b₁ List.mem_cons_self hb h₁
    exact foldlM_inv_of_mem l (fun b a b' ha => hf b a b' (List.mem_cons_of_mem _ ha)) hb₁ hrest

/-- A property that every step of a fold keeps holds of what a successful fold returns. -/
lemma foldlM_inv {P : β → Prop} {f : β → α → Except ε β}
    (hf : ∀ b a b', P b → f b a = .ok b' → P b') (l : List α) {b b' : β} (hb : P b)
    (h : l.foldlM f b = .ok b') : P b' :=
  foldlM_inv_of_mem l (fun b a b' _ => hf b a b') hb h

/-- A fold whose steps all succeed from a value with `P`, giving one with `P`, succeeds. -/
lemma foldlM_ok_of_inv {P : β → Prop} {f : β → α → Except ε β}
    (hf : ∀ b a, P b → ∃ b', f b a = .ok b' ∧ P b') :
    ∀ (l : List α) {b : β}, P b → ∃ b', l.foldlM f b = .ok b' ∧ P b'
  | [], b, hb => ⟨b, rfl, hb⟩
  | a :: l, b, hb => by
    obtain ⟨b₁, h₁, hb₁⟩ := hf b a hb
    rw [List.foldlM_cons, h₁]
    exact foldlM_ok_of_inv hf l hb₁

/-- What the step at an element of the list sets up, and every later step keeps, holds of what
the fold returns. -/
lemma foldlM_of_mem {Q : α → β → Prop} {f : β → α → Except ε β}
    (hset : ∀ b a b', f b a = .ok b' → Q a b')
    (hkeep : ∀ a b a' b', Q a b → f b a' = .ok b' → Q a b') :
    ∀ (l : List α) {a : α} {b b' : β}, a ∈ l → l.foldlM f b = .ok b' → Q a b'
  | a₀ :: l, a, b, b', ha, h => by
    rw [List.foldlM_cons] at h
    obtain ⟨b₁, h₁, hrest⟩ := bind_eq_ok h
    rcases List.mem_cons.mp ha with rfl | ha
    · exact foldlM_inv (fun b a' b' hb hf => hkeep a b a' b' hb hf) l (hset b a b₁ h₁) hrest
    · exact foldlM_of_mem hset hkeep l ha hrest

/-- A failed first step fails the whole bind, with the same error. -/
@[simp] lemma error_bind (e : ε) (f : α → Except ε β) :
    (Except.error e : Except ε α) >>= f = .error e := rfl

@[simp] lemma ok_bind (a : α) (f : α → Except ε β) : (Except.ok a : Except ε α) >>= f = f a :=
  rfl

/-- A bind whose result, seen through `g`, is `c`: both steps succeeded, and `g` takes the final
result to `c`.  A run checked only through what `g` keeps of its result is taken apart this
way. -/
lemma bind_map_eq_ok {γ : Type} {x : Except ε α} {f : α → Except ε β} {g : β → γ} {c : γ}
    (h : (x >>= f).map g = .ok c) : ∃ a b, x = .ok a ∧ f a = .ok b ∧ g b = c := by
  cases x with
  | error e => cases h
  | ok a =>
    cases hf : f a with
    | error e =>
      rw [ok_bind, hf] at h
      cases h
    | ok b =>
      rw [ok_bind, hf] at h
      cases h
      exact ⟨a, b, rfl, hf, rfl⟩

lemma pure_eq_ok {a b : α} : (pure a : Except ε α) = .ok b ↔ a = b :=
  ⟨fun h => Except.ok.inj h, fun h => h ▸ rfl⟩

/-- A check returning `Unit` hands the run on to its continuation exactly when it passes. -/
lemma check_bind_eq_ok {x : Except ε Unit} {f : Unit → Except ε β} {b : β} :
    x >>= f = .ok b ↔ x = .ok () ∧ f () = .ok b := by
  cases x with
  | error e => exact iff_of_false (fun h => nomatch h) (fun h => nomatch h.1)
  | ok u => exact ⟨fun h => ⟨rfl, h⟩, fun h => h.2⟩

/-- A guard that throws when `c` holds lets the run through exactly when `c` fails. -/
lemma ite_throw_eq_ok {c : Prop} [Decidable c] {e : ε} {y : Except ε α} {a : α} :
    (if c then throw e else y) = .ok a ↔ ¬ c ∧ y = .ok a := by
  by_cases h : c
  · exact iff_of_false (by rw [if_pos h]; exact fun he => nomatch he) (fun h' => h'.1 h)
  · rw [if_neg h]
    exact ⟨fun hy => ⟨h, hy⟩, fun h' => h'.2⟩

/-- Rewording the error of a step (Go's `fmt.Errorf("...: %v", err)`) keeps its successes. -/
lemma mapError_eq_ok {ε' : Type} {f : ε → ε'} {x : Except ε α} {a : α} :
    x.mapError f = .ok a ↔ x = .ok a := by
  cases x with
  | error e => exact iff_of_false (fun h => nomatch h) (fun h => nomatch h)
  | ok v => simp only [Except.mapError, Except.ok.injEq]

/-- `mapM` succeeds with `r` when `f` maps each entry to the entry of `r` at its index. -/
lemma mapM_eq_ok {f : α → Except ε β} : ∀ {l : List α} {r : List β}, l.length = r.length →
    (∀ (i : Nat) (a : α) (b : β), l[i]? = some a → r[i]? = some b → f a = .ok b) →
    l.mapM f = .ok r
  | [], [], _, _ => rfl
  | [], _ :: _, h, _ => by cases h
  | _ :: _, [], h, _ => by cases h
  | a :: l, b :: r, h, hf => by
    rw [List.mapM_cons, hf 0 a b rfl rfl, ok_bind,
      mapM_eq_ok (by simpa using h) fun i a' b' ha hb => hf (i + 1) a' b' ha hb, ok_bind]
    rfl

/-- `mapM` returns the images under `g` exactly when `f` returns the image of every element. -/
lemma mapM_eq_ok_map_iff {f : α → Except ε β} {g : α → β} :
    ∀ {l : List α}, l.mapM f = .ok (l.map g) ↔ ∀ a ∈ l, f a = .ok (g a)
  | [] => iff_of_true rfl fun _ ha => nomatch ha
  | a :: l => by
    rw [List.mapM_cons, List.map_cons, List.forall_mem_cons, ← mapM_eq_ok_map_iff]
    constructor
    · intro h
      obtain ⟨b, hb, h'⟩ := bind_eq_ok h
      obtain ⟨bs, hbs, h''⟩ := bind_eq_ok h'
      injection h'' with h''
      obtain ⟨rfl, rfl⟩ := List.cons.inj h''
      exact ⟨hb, hbs⟩
    · rintro ⟨hb, hbs⟩
      rw [hb, ok_bind, hbs, ok_bind]
      rfl

/-- Every error the computation can end in satisfies `P`. -/
def FailsOnly (P : ε → Prop) (x : Except ε α) : Prop := ∀ e, x = .error e → P e

@[simp] lemma failsOnly_ok (P : ε → Prop) (a : α) : FailsOnly P (.ok a : Except ε α) :=
  fun _ h => by cases h

@[simp] lemma failsOnly_error {P : ε → Prop} {e : ε} :
    FailsOnly P (.error e : Except ε α) ↔ P e :=
  ⟨fun h => h e rfl, fun h _ he => by cases he; exact h⟩

@[simp] lemma failsOnly_pure (P : ε → Prop) (a : α) : FailsOnly P (pure a : Except ε α) :=
  failsOnly_ok P a

@[simp] lemma failsOnly_throw {P : ε → Prop} {e : ε} :
    FailsOnly P (throw e : Except ε α) ↔ P e :=
  failsOnly_error

@[simp] lemma throw_bind (e : ε) (f : α → Except ε β) :
    (throw e : Except ε α) >>= f = throw e := rfl

/-- The errors of a bind are those of the first step and those of the continuation on a
result the first step really returns. -/
lemma FailsOnly.bind {P : ε → Prop} {x : Except ε α} {f : α → Except ε β}
    (hx : FailsOnly P x) (hf : ∀ a, x = .ok a → FailsOnly P (f a)) : FailsOnly P (x >>= f) := by
  cases x with
  | error e => exact fun e' he => by cases he; exact hx e rfl
  | ok a => exact hf a rfl

/-- A reworded step fails only with reworded errors. -/
lemma failsOnly_mapError {ε' : Type} {P : ε' → Prop} {f : ε → ε'} (x : Except ε α)
    (h : ∀ e, P (f e)) : FailsOnly P (x.mapError f) := by
  cases x with
  | error e => exact fun e' he => by cases he; exact h e
  | ok a => exact failsOnly_ok P a

lemma FailsOnly.ite {P : ε → Prop} {c : Prop} [Decidable c] {x y : Except ε α}
    (hx : c → FailsOnly P x) (hy : ¬ c → FailsOnly P y) : FailsOnly P (if c then x else y) := by
  by_cases h : c
  · simpa [h] using hx h
  · simpa [h] using hy h

end ExceptRun
