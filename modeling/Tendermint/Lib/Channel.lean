import Mathlib

/-!
# Several senders on one channel

Goroutines that send on one channel each send their own sequence of messages, and the scheduler
decides how the sequences interleave.  `deliver ls sched` is the order in which the messages of
the sequences `ls` reach the channel when the senders named by `sched` go one after another, each
sending its next message (a sender with nothing left is passed over), and then the senders still
holding messages go in turn.  Every interleaving of the sequences is `deliver` of some schedule;
each message arrives tagged with the index of its sender.

What a receiver can rely on, whatever the schedule: each sender's messages arrive in the order it
sent them (`filter_deliver`), and the messages of one sender that a receiver has read, after any
number of reads, are a first part of what that sender sent (`filter_take_deliver_prefix`).  So a
receiver that has read a sender's second message has read its first.
-/

namespace Channel

variable {α : Type}

/-- The senders' remaining messages, tagged, one sender after another from index `k`. -/
def flush : Nat → List (List α) → List (Nat × α)
  | _, [] => []
  | k, l :: ls => l.map (k, ·) ++ flush (k + 1) ls

/-- The messages in the order they reach the channel under the schedule `sched`. -/
def deliver (ls : List (List α)) : List Nat → List (Nat × α)
  | [] => flush 0 ls
  | i :: sched =>
    match ls[i]? with
    | some (a :: rest) => (i, a) :: deliver (ls.set i rest) sched
    | _ => deliver ls sched

/-- A sender with a message left sends it when the schedule names it. -/
lemma deliver_cons_of_getElem? {ls : List (List α)} {i : Nat} {a : α} {rest : List α}
    (h : ls[i]? = some (a :: rest)) (sched : List Nat) :
    deliver ls (i :: sched) = (i, a) :: deliver (ls.set i rest) sched := by
  rw [deliver, h]

lemma filter_flush (i : Nat) : ∀ (k : Nat) (ls : List (List α)),
    (flush k ls).filter (fun p => p.1 = i) =
      if k ≤ i then ((ls[i - k]?).getD []).map (i, ·) else []
  | k, [] => by simp [flush]
  | k, l :: ls => by
    rw [flush, List.filter_append, filter_flush i (k + 1) ls]
    rcases lt_trichotomy k i with hlt | rfl | hgt
    · have hki : i - k = (i - (k + 1)) + 1 := by omega
      rw [if_pos (by omega : k + 1 ≤ i), if_pos hlt.le, hki, List.getElem?_cons_succ]
      simp [List.filter_map, Function.comp_def, hlt.ne]
    · simp [List.filter_map, Function.comp_def]
    · rw [if_neg (by omega), if_neg (by omega)]
      simp [List.filter_map, Function.comp_def, hgt.ne']

/-- Each sender's messages reach the channel, all of them, in the order it sent them. -/
theorem filter_deliver (i : Nat) : ∀ (sched : List Nat) (ls : List (List α)),
    (deliver ls sched).filter (fun p => p.1 = i) = ((ls[i]?).getD []).map (i, ·)
  | [], ls => by simpa [deliver] using filter_flush i 0 ls
  | j :: sched, ls => by
    rw [deliver]
    split
    · next a rest hj =>
      rw [List.filter_cons, filter_deliver i sched]
      by_cases hji : j = i
      · subst hji
        have hlen : j < ls.length := (List.getElem?_eq_some_iff.mp hj).1
        simp [List.getElem?_set_self hlen, hj]
      · simp [hji, List.getElem?_set_ne hji]
    · exact filter_deliver i sched ls

/-- A receiver that has read the first `m` messages has read, of each sender, a first part of
what that sender sent. -/
theorem filter_take_deliver_prefix (i m : Nat) (sched : List Nat) (ls : List (List α)) :
    ((deliver ls sched).take m).filter (fun p => p.1 = i) <+:
      ((ls[i]?).getD []).map (i, ·) := by
  rw [← filter_deliver i sched ls]
  exact (List.take_prefix m _).filter _

/-- A receiver that has read the second of a sender's two messages has read the first. -/
theorem mem_take_deliver_of_second {ls : List (List α)} {i : Nat} {a b : α}
    (h : ls[i]? = some [a, b]) (m : Nat) (sched : List Nat)
    (hb : (i, b) ∈ (deliver ls sched).take m) : (i, a) ∈ (deliver ls sched).take m := by
  have hpre := filter_take_deliver_prefix i m sched ls
  simp only [h, Option.getD_some, List.map_cons, List.map_nil] at hpre
  set read := ((deliver ls sched).take m).filter (fun p => p.1 = i)
  have hbr : (i, b) ∈ read := List.mem_filter.mpr ⟨hb, by simp⟩
  -- what was read of the sender is a nonempty first part of its two messages
  obtain ⟨k, hk⟩ : ∃ k, read.length = k + 1 := ⟨read.length - 1, by
    have := List.length_pos_of_mem hbr
    omega⟩
  have har : (i, a) ∈ read := by
    rw [List.prefix_iff_eq_take.mp hpre, hk, List.take_succ_cons]
    exact List.mem_cons_self
  exact (List.mem_filter.mp har).1

/-- Every message that reaches the channel was sent by the sender it is tagged with. -/
theorem mem_of_mem_deliver {ls : List (List α)} {sched : List Nat} {i : Nat} {a : α}
    (h : (i, a) ∈ deliver ls sched) : a ∈ (ls[i]?).getD [] := by
  have hmem : (i, a) ∈ (deliver ls sched).filter (fun p => p.1 = i) := List.mem_filter.mpr ⟨h, by simp⟩
  rw [filter_deliver] at hmem
  simpa using hmem

end Channel
