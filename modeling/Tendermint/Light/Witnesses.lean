import Tendermint.Types.Basic
import Tendermint.Lib.Channel
import Tendermint.Lib.Except

/-!
# Checking a new header against the witnesses (`light/client.go`)

Before it trusts a header its primary sent, the light client asks each witness for the header at
the same height (`compareNewHeaderWithWitnesses`).  One goroutine per witness
(`compareNewHeaderWithWitness`) fetches the witness's header and validator set and sends on a
channel with room for one value per witness: `nil` when the header is the same, a conflict when
it differs and bisection from the latest trusted header accepts it, a bad witness otherwise.  The
caller reads as many values as there are witnesses, removes the witnesses that sent an invalid
header or validator set, and returns the last conflict, or `nil` when some header matched, or
tries again, up to `maxRetryAttempts` times.

The model runs the goroutines' sends through `Channel.deliver` under a schedule the scheduler
picks for each attempt, and gives the attempt loop fuel.  Providers, the client's checks and
bisection are functions (`Env`).

What the code guarantees: it returns `nil` only when some witness answered the same header
(`compareNewHeaderWithWitnesses_ok`); a goroutine that sends its conflict and then `nil` cannot
let the `nil` be read without the conflict.  What it does not:
* Two witnesses removed in one attempt can crash it.  `removeWitness` moves the last witness into
  the place of the removed one, so the indices gathered before the first removal go stale, and
  removing the last two witnesses in the order they were listed indexes past the end of the
  shortened list (`compareNewHeaderWithWitnesses_panics`).
* A witness whose header or validator set fails the client's checks is never removed: those
  errors arrive as `*errBadWitness`, which the type switch's `case errBadWitness` does not match
  (`invalid_witness_kept`).
* With `maxRetryAttempts = 65535` the `uint16` attempt counter wraps around before it exceeds the
  bound, so while no witness answers the loop never ends (`attempts_never_end`); below that bound
  it always does (`compareNewHeaderWithWitnesses_ends`).
-/

namespace Tendermint

namespace Light

/-- `badWitnessCode`. -/
inductive badWitnessCode where
  | noResponse
  | invalidHeader
  | invalidValidatorSet
  deriving DecidableEq, Repr

/-- `errBadWitness`. -/
structure errBadWitness where
  Reason : String
  Code : badWitnessCode
  WitnessIndex : Int
  deriving DecidableEq, Repr

/-- `ErrConflictingHeaders`. -/
structure ErrConflictingHeaders (SH P : Type) where
  H1 : SH
  Primary : P
  H2 : SH
  Witness : P

/-- A value sent on `errc`, by its dynamic type.  `compareNewHeaderWithWitness` sends `nil`,
`ErrConflictingHeaders` and `errBadWitness` values, and passes on the `*errBadWitness` that
`signedHeaderAndValSetFromWitness` returns. -/
inductive errcValue (SH P : Type) where
  | nil
  | conflictingHeaders (e : ErrConflictingHeaders SH P)
  | badWitness (e : errBadWitness)
  | badWitnessRef (e : errBadWitness)

/-- The errors `compareNewHeaderWithWitnesses` returns. -/
inductive CompareError (SH P : Type) where
  | errNoWitnesses
  | conflictingHeaders (e : ErrConflictingHeaders SH P)
  /-- `errors.New("awaiting response from all witnesses exceeded dropout time")` -/
  | dropout

/-- What the check uses of the providers and of the client's other methods: a witness's answers
at a height, the client's checks of them, the hash and height of a header, and bisection from
the latest trusted header to an answer (`c.bisection(witness, c.latestTrustedHeader, …)`). -/
structure Env (P SH VS : Type) where
  SignedHeader : P → Int → Except String SH
  ValidatorSet : P → Int → Except String VS
  validateHeader : SH → Int → Except String Unit
  validateValidatorSet : VS → Except String Unit
  Hash : SH → Bytes
  Height : SH → Int
  bisection : P → SH → VS → Except String Unit

/-- The fields of `Client` the check reads and writes. -/
structure Client (P : Type) where
  primary : P
  witnesses : List P
  maxRetryAttempts : UInt16

/-- How a call ends: with the error it returns, or `nil`, and the witnesses left; or a panic. -/
abbrev Outcome (SH P : Type) := Go (Except (CompareError SH P) Unit × List P)

/-- What the receive loop of one attempt gathers. -/
structure Gathered (SH P : Type) where
  headerMatched : Bool
  lastErrConfHeaders : Option (ErrConflictingHeaders SH P)
  witnessesToRemove : List Int

section Model

variable {P SH VS : Type} (env : Env P SH VS)

/-- `signedHeaderAndValSetFromWitness`. -/
def signedHeaderAndValSetFromWitness (height : Int) (witness : P) :
    Except errBadWitness (SH × VS) := do
  let h ← (env.SignedHeader witness height).mapError fun err => ⟨err, .noResponse, -1⟩
  (env.validateHeader h height).mapError fun err => ⟨err, .invalidHeader, -1⟩
  let vals ← (env.ValidatorSet witness height).mapError fun err => ⟨err, .noResponse, -1⟩
  (env.validateValidatorSet vals).mapError fun err => ⟨err, .invalidValidatorSet, -1⟩
  pure (h, vals)

/-- `compareNewHeaderWithWitness`: the values the goroutine for the witness at `witnessIndex`
sends on `errc`, in order.  After a conflict it does not return, so `nil` follows. -/
def compareNewHeaderWithWitness (c : Client P) (h : SH) (witness : P) (witnessIndex : Int) :
    List (errcValue SH P) :=
  match signedHeaderAndValSetFromWitness env (env.Height h) witness with
  | .error err => [.badWitnessRef { err with WitnessIndex := witnessIndex }]
  | .ok (altH, altVals) =>
    if env.Hash h ≠ env.Hash altH then
      match env.bisection witness altH altVals with
      | .error bsErr => [.badWitness ⟨bsErr, .invalidHeader, witnessIndex⟩]
      | .ok () => [.conflictingHeaders ⟨h, c.primary, altH, witness⟩, .nil]
    else [.nil]

/-- One turn of the receive loop: the type switch on a value read from `errc`.  A
`*errBadWitness` matches none of its cases. -/
def handleErr (g : Gathered SH P) : errcValue SH P → Gathered SH P
  | .nil => { g with headerMatched := true }
  | .conflictingHeaders e => { g with lastErrConfHeaders := some e }
  | .badWitness e =>
    if e.Code = .invalidHeader ∨ e.Code = .invalidValidatorSet then
      { g with witnessesToRemove := g.witnessesToRemove ++ [e.WitnessIndex] }
    else g
  | .badWitnessRef _ => g

/-- The values the goroutines of one attempt send, each goroutine's in its order. -/
def sends (c : Client P) (h : SH) : List (List (errcValue SH P)) :=
  c.witnesses.mapIdx fun i witness => compareNewHeaderWithWitness env c h witness i

/-- The receive loop of one attempt: `len(c.witnesses)` values, in the order the schedule lets
them reach the channel. -/
def gather (c : Client P) (h : SH) (schedule : List Nat) : Gathered SH P :=
  (((Channel.deliver (sends env c h) schedule).take c.witnesses.length).map Prod.snd).foldl
    handleErr ⟨false, none, []⟩

/-- What one goroutine sends: a bad witness it was told of, a bad witness for a header that
bisection rejects, a conflict followed by `nil`, or `nil` for the same header. -/
lemma compareNewHeaderWithWitness_cases (c : Client P) (h : SH) (witness : P)
    (witnessIndex : Int) :
    (∃ e, compareNewHeaderWithWitness env c h witness witnessIndex = [.badWitnessRef e]) ∨
      (∃ e, compareNewHeaderWithWitness env c h witness witnessIndex = [.badWitness e] ∧
        e.WitnessIndex = witnessIndex) ∨
      (∃ e, compareNewHeaderWithWitness env c h witness witnessIndex = [.conflictingHeaders e, .nil]) ∨
      (compareNewHeaderWithWitness env c h witness witnessIndex = [.nil] ∧
        ∃ altH altVals, signedHeaderAndValSetFromWitness env (env.Height h) witness =
          .ok (altH, altVals) ∧ env.Hash altH = env.Hash h) := by
  unfold compareNewHeaderWithWitness
  split
  · exact .inl ⟨_, rfl⟩
  · next altH altVals hfetch =>
    split_ifs with hhash
    · split
      · exact .inr (.inl ⟨_, rfl, rfl⟩)
      · exact .inr (.inr (.inl ⟨_, rfl⟩))
    · exact .inr (.inr (.inr ⟨rfl, altH, altVals, hfetch, (not_not.mp hhash).symm⟩))

/-- A witness whose answer fails to arrive or fails the checks is reported by the pointer the
fetch returned. -/
lemma compareNewHeaderWithWitness_of_error {c : Client P} {h : SH} {witness : P}
    {witnessIndex : Int} {err : errBadWitness}
    (hfetch : signedHeaderAndValSetFromWitness env (env.Height h) witness = .error err) :
    compareNewHeaderWithWitness env c h witness witnessIndex =
      [.badWitnessRef { err with WitnessIndex := witnessIndex }] := by
  rw [compareNewHeaderWithWitness, hfetch]

/-- A witness that answers a header other than `h`, passing the checks, and that bisection
rejects, is reported as a bad witness with an invalid header. -/
lemma compareNewHeaderWithWitness_rejected {c : Client P} {h altH : SH} {altVals : VS}
    {witness : P} {witnessIndex : Int} {bsErr : String}
    (hfetch : signedHeaderAndValSetFromWitness env (env.Height h) witness = .ok (altH, altVals))
    (hhash : env.Hash h ≠ env.Hash altH)
    (hbis : env.bisection witness altH altVals = .error bsErr) :
    compareNewHeaderWithWitness env c h witness witnessIndex =
      [.badWitness ⟨bsErr, .invalidHeader, witnessIndex⟩] := by
  rw [compareNewHeaderWithWitness, hfetch]
  simp only [if_pos hhash, hbis]

/-- Every goroutine sends, and what stays unread fits in the channel: each sends at least one
value, so the `len(c.witnesses)` reads are all served, and at most two, so at most one value per
witness is left in a buffer of that size and no send blocks for ever. -/
theorem sends_total (c : Client P) (h : SH) :
    c.witnesses.length ≤ ((sends env c h).map List.length).sum ∧
      ((sends env c h).map List.length).sum ≤ 2 * c.witnesses.length := by
  have hbounds : ∀ n ∈ (sends env c h).map List.length, 1 ≤ n ∧ n ≤ 2 := by
    intro n hn
    simp only [sends, List.mem_map, List.mem_mapIdx] at hn
    obtain ⟨l, ⟨i, hi, rfl⟩, rfl⟩ := hn
    rcases compareNewHeaderWithWitness_cases env c h c.witnesses[i] i with
      ⟨e, he⟩ | ⟨e, he, -⟩ | ⟨e, he⟩ | ⟨he, -⟩ <;> simp [he]
  have hlen : ((sends env c h).map List.length).length = c.witnesses.length := by simp [sends]
  constructor
  · simpa [hlen] using List.card_nsmul_le_sum _ 1 fun n hn => (hbounds n hn).1
  · simpa [hlen, mul_comm] using List.sum_le_card_nsmul _ 2 fun n hn => (hbounds n hn).2

/-- A value read in an attempt was sent by the goroutine of the witness at the index it is
tagged with. -/
lemma mem_sends_of_mem_deliver {c : Client P} {h : SH} {sched : List Nat} {i : Nat}
    {v : errcValue SH P} (hv : (i, v) ∈ Channel.deliver (sends env c h) sched) :
    ∃ witness, c.witnesses[i]? = some witness ∧
      v ∈ compareNewHeaderWithWitness env c h witness i := by
  have hsent := Channel.mem_of_mem_deliver hv
  simp only [sends, List.getElem?_mapIdx] at hsent
  cases hw : c.witnesses[i]? with
  | none => simp [hw] at hsent
  | some witness => exact ⟨witness, rfl, by simpa [hw] using hsent⟩

end Model

/-! ## The receive loop -/

section Gather

variable {SH P : Type}

/-- The loop only ever appends to the indices to remove. -/
lemma foldl_handleErr_remove_prefix (vals : List (errcValue SH P)) : ∀ g : Gathered SH P,
    g.witnessesToRemove <+: (vals.foldl handleErr g).witnessesToRemove := by
  induction vals with
  | nil => exact fun g => List.prefix_refl _
  | cons v vals ih =>
    intro g
    have hstep : g.witnessesToRemove <+: (handleErr g v).witnessesToRemove := by
      cases v with
      | badWitness e =>
        simp only [handleErr]
        split_ifs
        · exact List.prefix_append _ _
        · exact List.prefix_refl _
      | _ => exact List.prefix_refl _
    exact hstep.trans (ih (handleErr g v))

/-- The loop sets `headerMatched` only on reading `nil`. -/
lemma foldl_handleErr_matched (vals : List (errcValue SH P)) : ∀ g : Gathered SH P,
    (vals.foldl handleErr g).headerMatched = true →
      g.headerMatched = true ∨ errcValue.nil ∈ vals := by
  induction vals with
  | nil => exact fun g h => .inl h
  | cons v vals ih =>
    intro g h
    rcases ih (handleErr g v) h with hg | hmem
    · cases v with
      | nil => exact .inr List.mem_cons_self
      | conflictingHeaders e => exact .inl hg
      | badWitness e =>
        simp only [handleErr] at hg
        split_ifs at hg <;> exact .inl hg
      | badWitnessRef e => exact .inl hg
    · exact .inr (List.mem_cons_of_mem v hmem)

/-- The loop leaves `lastErrConfHeaders` unset only when it reads no conflict. -/
lemma foldl_handleErr_conf (vals : List (errcValue SH P)) : ∀ g : Gathered SH P,
    (vals.foldl handleErr g).lastErrConfHeaders = none →
      g.lastErrConfHeaders = none ∧ ∀ e, errcValue.conflictingHeaders e ∉ vals := by
  induction vals with
  | nil => exact fun g h => ⟨h, fun e he => by cases he⟩
  | cons v vals ih =>
    intro g h
    obtain ⟨hg, hvals⟩ := ih (handleErr g v) h
    cases v with
    | conflictingHeaders e => simp [handleErr] at hg
    | nil => exact ⟨hg, fun e he => (List.mem_cons.mp he).elim (fun h => nomatch h) (hvals e)⟩
    | badWitness e =>
      simp only [handleErr] at hg
      refine ⟨by split_ifs at hg <;> exact hg, fun e' he' => ?_⟩
      exact (List.mem_cons.mp he').elim (fun h => nomatch h) (hvals e')
    | badWitnessRef e =>
      exact ⟨hg, fun e' he' => (List.mem_cons.mp he').elim (fun h => nomatch h) (hvals e')⟩

/-- An index the loop marks for removal comes from a bad witness it read. -/
lemma mem_foldl_handleErr_remove {idx : Int} (vals : List (errcValue SH P)) : ∀ g : Gathered SH P,
    idx ∈ (vals.foldl handleErr g).witnessesToRemove →
      idx ∈ g.witnessesToRemove ∨ ∃ e, errcValue.badWitness e ∈ vals ∧ e.WitnessIndex = idx := by
  induction vals with
  | nil => exact fun g h => .inl h
  | cons v vals ih =>
    intro g h
    rcases ih (handleErr g v) h with hg | ⟨e, he, hidx⟩
    · cases v with
      | badWitness e =>
        simp only [handleErr] at hg
        split_ifs at hg
        · rcases List.mem_append.mp hg with hg | hg
          · exact .inl hg
          · exact .inr ⟨e, List.mem_cons_self, (List.mem_singleton.mp hg).symm⟩
        · exact .inl hg
      | _ => exact .inl hg
    · exact .inr ⟨e, List.mem_cons_of_mem v he, hidx⟩

/-- Values that no case of the switch matches leave the loop where it was. -/
lemma foldl_handleErr_refs (vals : List (errcValue SH P))
    (hrefs : ∀ v ∈ vals, ∃ e, v = .badWitnessRef e) : ∀ g : Gathered SH P,
    vals.foldl handleErr g = g := by
  induction vals with
  | nil => exact fun g => rfl
  | cons v vals ih =>
    intro g
    obtain ⟨e, rfl⟩ := hrefs v List.mem_cons_self
    exact ih (fun v hv => hrefs v (List.mem_cons_of_mem _ hv)) g

end Gather

/-- `removeWitness`: the last witness takes the place of the removed one.  The assignment
`c.witnesses[idx] = …` panics for an index out of range. -/
def removeWitness {P : Type} (witnesses : List P) (idx : Int) : Go (List P) :=
  match witnesses.reverse with
  | [] =>
    throw (.panic ("wanted to remove " ++ toString idx ++ " element from empty witnesses slice"))
  | [_] => pure []
  | last :: _ :: _ =>
    if 0 ≤ idx ∧ idx.toNat < witnesses.length then pure ((witnesses.set idx.toNat last).dropLast)
    else throw (.panic "runtime error: index out of range")

section Loop

variable {P SH VS : Type} (env : Env P SH VS)

/-- The attempt loop of `compareNewHeaderWithWitnesses` from the `uint16` counter `attempt` on,
with `fuel` turns; `none` when the fuel runs out first.  The schedule of each attempt is the
scheduler's.  The flags gathered in an attempt that does not return are unset, so each attempt
starts from unset flags as the loop does. -/
def attemptsFrom (sched : UInt16 → List Nat) (h : SH) :
    Nat → UInt16 → Client P → Option (Outcome SH P)
  | 0, _, _ => none
  | fuel + 1, attempt, c =>
    if attempt ≤ c.maxRetryAttempts then
      if c.witnesses.length = 0 then some (.ok (.error .errNoWitnesses, c.witnesses))
      else
        let g := gather env c h (sched attempt)
        match g.witnessesToRemove.foldlM removeWitness c.witnesses with
        | .error e => some (.error e)
        | .ok witnesses =>
          match g.lastErrConfHeaders with
          | some e => some (.ok (.error (.conflictingHeaders e), witnesses))
          | none =>
            if g.headerMatched then some (.ok (.ok (), witnesses))
            else attemptsFrom sched h fuel (attempt + 1) { c with witnesses := witnesses }
    else some (.ok (.error .dropout, c.witnesses))

/-- `compareNewHeaderWithWitnesses`, with `fuel` turns of its loop. -/
def compareNewHeaderWithWitnesses (sched : UInt16 → List Nat) (c : Client P) (h : SH)
    (fuel : Nat) : Option (Outcome SH P) :=
  attemptsFrom env sched h fuel 1 c

end Loop

/-! ## Removing witnesses -/

section Remove

variable {P : Type}

/-- Removing a witness keeps only witnesses that were there. -/
lemma removeWitness_subset {witnesses witnesses' : List P} {idx : Int}
    (h : removeWitness witnesses idx = .ok witnesses') : ∀ w ∈ witnesses', w ∈ witnesses := by
  unfold removeWitness at h
  split at h
  · cases h
  · cases h
    intro w hw
    cases hw
  · next last a rest hrev =>
    by_cases hidx : 0 ≤ idx ∧ idx.toNat < witnesses.length
    · rw [if_pos hidx] at h
      cases h
      intro w hw
      rcases List.mem_or_eq_of_mem_set (List.dropLast_subset _ hw) with hw' | rfl
      · exact hw'
      · exact List.mem_reverse.mp (by rw [hrev]; exact List.mem_cons_self)
    · rw [if_neg hidx] at h
      cases h

lemma foldlM_removeWitness_subset : ∀ (idxs : List Int) {witnesses witnesses' : List P},
    idxs.foldlM removeWitness witnesses = .ok witnesses' → ∀ w ∈ witnesses', w ∈ witnesses
  | [], _, _, h => by
    cases h
    exact fun w hw => hw
  | idx :: idxs, witnesses, witnesses', h => by
    rw [List.foldlM_cons] at h
    obtain ⟨mid, hmid, hrest⟩ := ExceptRun.bind_eq_ok h
    exact fun w hw => removeWitness_subset hmid w (foldlM_removeWitness_subset idxs hrest w hw)

/-- Removing the next-to-last witness moves the last into its place. -/
lemma removeWitness_next_to_last (ws : List P) (b d : P) :
    removeWitness (ws ++ [b, d]) ws.length = .ok (ws ++ [d]) := by
  have hrev : (ws ++ [b, d]).reverse = d :: b :: ws.reverse := by simp
  rw [removeWitness, hrev]
  simp only [Int.toNat_natCast, List.length_append, List.length_cons, List.length_nil]
  rw [if_pos ⟨by omega, by omega⟩, List.set_append_right _ _ (le_refl _), Nat.sub_self]
  simp [List.dropLast_append_of_ne_nil]
  rfl

/-- Removing at the old length of a list that has lost one witness indexes past its end. -/
lemma removeWitness_past_end {ws : List P} (hws : ws ≠ []) (d : P) :
    removeWitness (ws ++ [d]) (ws.length + 1 : Nat) =
      .error (.panic "runtime error: index out of range") := by
  obtain ⟨w, rest, hrev⟩ : ∃ w rest, ws.reverse = w :: rest :=
    List.exists_cons_of_ne_nil (by simpa using hws)
  have hrev' : (ws ++ [d]).reverse = d :: w :: rest := by simp [hrev]
  rw [removeWitness, hrev']
  dsimp only
  rw [if_neg (by simp)]
  rfl

end Remove

/-! ## The attempt loop -/

section Attempts

variable {P SH VS : Type} (env : Env P SH VS)

/-- An attempt that reads no conflict but reads `nil` had a witness answer the header itself:
the `nil` a goroutine sends after its conflict cannot be read without the conflict. -/
lemma gather_matched {c : Client P} {h : SH} {schedule : List Nat}
    (hconf : (gather env c h schedule).lastErrConfHeaders = none)
    (hmatched : (gather env c h schedule).headerMatched = true) :
    ∃ witness ∈ c.witnesses, ∃ altH altVals,
      signedHeaderAndValSetFromWitness env (env.Height h) witness = .ok (altH, altVals) ∧
        env.Hash altH = env.Hash h := by
  have hnoconf := (foldl_handleErr_conf _ _ hconf).2
  obtain hfalse | hnil := foldl_handleErr_matched _ _ hmatched
  · cases hfalse
  obtain ⟨⟨i, v⟩, hread, hv⟩ := List.mem_map.mp hnil
  simp only at hv
  subst hv
  obtain ⟨witness, hw, hsent⟩ := mem_sends_of_mem_deliver env (List.mem_of_mem_take hread)
  rcases compareNewHeaderWithWitness_cases env c h witness i with
    ⟨e, he⟩ | ⟨e, he, -⟩ | ⟨e, he⟩ | ⟨-, hsame⟩
  · rw [he] at hsent
    simp at hsent
  · rw [he] at hsent
    simp at hsent
  · -- the conflict was sent before the `nil` that was read, so it was read too
    have hsends : (sends env c h)[i]? = some [.conflictingHeaders e, .nil] := by
      simp [sends, List.getElem?_mapIdx, hw, he]
    have hconfRead := Channel.mem_take_deliver_of_second hsends _ schedule hread
    exact absurd (List.mem_map.mpr ⟨_, hconfRead, rfl⟩) (hnoconf e)
  · exact ⟨witness, List.mem_of_getElem? hw, hsame⟩

/-- The check returns `nil` only when some witness answered the header itself, whatever the
scheduler does. -/
theorem attemptsFrom_ok_matched (sched : UInt16 → List Nat) (h : SH) :
    ∀ (fuel : Nat) (attempt : UInt16) (c : Client P) (witnesses' : List P),
    attemptsFrom env sched h fuel attempt c = some (.ok (.ok (), witnesses')) →
      ∃ witness ∈ c.witnesses, ∃ altH altVals,
        signedHeaderAndValSetFromWitness env (env.Height h) witness = .ok (altH, altVals) ∧
          env.Hash altH = env.Hash h
  | 0, _, _, _, hrun => by cases hrun
  | fuel + 1, attempt, c, witnesses', hrun => by
    rw [attemptsFrom] at hrun
    dsimp only at hrun
    by_cases hle : attempt ≤ c.maxRetryAttempts
    · rw [if_pos hle] at hrun
      by_cases hempty : c.witnesses.length = 0
      · rw [if_pos hempty] at hrun
        simp at hrun
      rw [if_neg hempty] at hrun
      split at hrun
      · simp at hrun
      · next witnesses hremove =>
        split at hrun
        · simp at hrun
        · next hconf =>
          by_cases hmatched : (gather env c h (sched attempt)).headerMatched = true
          · exact gather_matched env hconf hmatched
          · rw [if_neg hmatched] at hrun
            obtain ⟨w, hw, hsame⟩ := attemptsFrom_ok_matched sched h fuel _ _ _ hrun
            exact ⟨w, foldlM_removeWitness_subset _ hremove w hw, hsame⟩
    · rw [if_neg hle] at hrun
      simp at hrun

/-- A witness whose answer fails to arrive or fails the client's checks is never marked for
removal, whatever the scheduler does: the fetch's `*errBadWitness` matches no case of the type
switch, and every other goroutine reports its own index. -/
theorem invalid_witness_kept {c : Client P} {h : SH} {i : Nat} {witness : P}
    {err : errBadWitness} (hw : c.witnesses[i]? = some witness)
    (hfetch : signedHeaderAndValSetFromWitness env (env.Height h) witness = .error err)
    (schedule : List Nat) : (i : Int) ∉ (gather env c h schedule).witnessesToRemove := by
  intro hmem
  rcases mem_foldl_handleErr_remove _ _ hmem with hnil | ⟨e, hread, hidx⟩
  · cases hnil
  obtain ⟨⟨j, v⟩, hj, hv⟩ := List.mem_map.mp hread
  simp only at hv
  subst hv
  obtain ⟨witness', hw', hsent⟩ := mem_sends_of_mem_deliver env (List.mem_of_mem_take hj)
  -- the report names the goroutine that sent it, which is the witness's own
  have hji : j = i := by
    rcases compareNewHeaderWithWitness_cases env c h witness' j with
      ⟨e', he'⟩ | ⟨e', he', hidx'⟩ | ⟨e', he'⟩ | ⟨he', -⟩ <;> rw [he'] at hsent
    · simp at hsent
    · have he : e = e' := by simpa using hsent
      subst he
      exact_mod_cast hidx'.symm.trans hidx
    · simp at hsent
    · simp at hsent
  subst hji
  obtain rfl : witness' = witness := Option.some.inj (hw'.symm.trans hw)
  rw [compareNewHeaderWithWitness_of_error env hfetch] at hsent
  simp at hsent

/-- Witnesses that answer their own number as the header, of which the client's checks reject
header `2`. -/
def invalidEnv : Env Nat Nat Unit where
  SignedHeader witness _ := .ok witness
  ValidatorSet _ _ := .ok ()
  validateHeader sh _ := if sh = 2 then .error "invalid header" else .ok ()
  validateValidatorSet _ := .ok ()
  Hash sh := [sh.toUInt8]
  Height _ := 1
  bisection _ _ _ := .error "could not verify"

/-- Witness `2`, at index `1`, fails the check of its header and is not marked for removal. -/
theorem invalid_witness_kept_two :
    (⟨0, [1, 2], 10⟩ : Client Nat).witnesses[1]? = some 2 ∧
      signedHeaderAndValSetFromWitness invalidEnv (invalidEnv.Height 1) 2 =
        .error ⟨"invalid header", .invalidHeader, -1⟩ ∧
      ((1 : Nat) : Int) ∉ (gather invalidEnv ⟨0, [1, 2], 10⟩ 1 [1, 0]).witnessesToRemove :=
  have hfetch : signedHeaderAndValSetFromWitness invalidEnv (invalidEnv.Height 1) 2 =
      .error ⟨"invalid header", .invalidHeader, -1⟩ := rfl
  ⟨rfl, hfetch, invalid_witness_kept invalidEnv rfl hfetch [1, 0]⟩

/-- Two witnesses removed in one attempt can crash the check.  Let the last two witnesses answer,
at the header's height, headers that pass the client's checks, differ from `h` and that bisection
rejects.  When their reports are the first to reach the channel, in the order the witnesses are
listed, `removeWitness` moves the last witness into the place of the one before it, and then
indexes past the end of the shortened list. -/
theorem compareNewHeaderWithWitnesses_panics (c : Client P) (h : SH) (ws : List P) (b d : P)
    (hws : ws ≠ []) (hc : c.witnesses = ws ++ [b, d]) (hmax : 1 ≤ c.maxRetryAttempts)
    (hb : ∃ altH altVals bsErr,
      signedHeaderAndValSetFromWitness env (env.Height h) b = .ok (altH, altVals) ∧
        env.Hash h ≠ env.Hash altH ∧ env.bisection b altH altVals = .error bsErr)
    (hd : ∃ altH altVals bsErr,
      signedHeaderAndValSetFromWitness env (env.Height h) d = .ok (altH, altVals) ∧
        env.Hash h ≠ env.Hash altH ∧ env.bisection d altH altVals = .error bsErr) :
    ∃ sched : UInt16 → List Nat, ∀ fuel : Nat,
      compareNewHeaderWithWitnesses env sched c h (fuel + 1) =
        some (.error (.panic "runtime error: index out of range")) := by
  obtain ⟨altB, valsB, errB, hfB, hhB, hbB⟩ := hb
  obtain ⟨altD, valsD, errD, hfD, hhD, hbD⟩ := hd
  set n := ws.length with hn
  have hsendB : (sends env c h)[n]? = some [.badWitness ⟨errB, .invalidHeader, n⟩] := by
    simp [sends, hc, hn, compareNewHeaderWithWitness_rejected env hfB hhB hbB]
  have hsendD : ((sends env c h).set n [])[n + 1]? =
      some [.badWitness ⟨errD, .invalidHeader, (n + 1 : Nat)⟩] := by
    rw [List.getElem?_set_ne (by omega)]
    simp [sends, hc, hn, compareNewHeaderWithWitness_rejected env hfD hhD hbD]
  -- the two reports arrive first and mark the last two witnesses, in their order
  have hdeliver : Channel.deliver (sends env c h) [n, n + 1] =
      (n, .badWitness ⟨errB, .invalidHeader, n⟩) ::
        (n + 1, .badWitness ⟨errD, .invalidHeader, (n + 1 : Nat)⟩) ::
          Channel.deliver (((sends env c h).set n []).set (n + 1) []) [] := by
    rw [Channel.deliver_cons_of_getElem? hsendB, Channel.deliver_cons_of_getElem? hsendD]
  have hlen : c.witnesses.length = n + 1 + 1 := by simp [hc, hn]
  obtain ⟨later, hlater⟩ := foldl_handleErr_remove_prefix
    (((Channel.deliver (((sends env c h).set n []).set (n + 1) []) []).take n).map Prod.snd)
    (handleErr (handleErr ⟨false, none, []⟩ (.badWitness ⟨errB, .invalidHeader, n⟩))
      (.badWitness ⟨errD, .invalidHeader, (n + 1 : Nat)⟩))
  have hremove : (gather env c h [n, n + 1]).witnessesToRemove =
      [(n : Int), ((n + 1 : Nat) : Int)] ++ later := by
    rw [gather, hdeliver, hlen, List.take_succ_cons, List.take_succ_cons, List.map_cons,
      List.map_cons, List.foldl_cons, List.foldl_cons, ← hlater]
    rfl
  refine ⟨fun _ => [n, n + 1], fun fuel => ?_⟩
  rw [compareNewHeaderWithWitnesses, attemptsFrom]
  dsimp only
  rw [if_pos hmax, if_neg (by simp [hc]), hremove, List.foldlM_append, hc]
  simp only [List.foldlM_cons, hn, removeWitness_next_to_last, ExceptRun.ok_bind,
    removeWitness_past_end hws]
  rfl

/-- Witnesses that answer their own number as the header at every height, for a header `1`:
witness `1` agrees with it, and bisection rejects every other answer. -/
def numberedEnv : Env Nat Nat Unit where
  SignedHeader witness _ := .ok witness
  ValidatorSet _ _ := .ok ()
  validateHeader _ _ := .ok ()
  validateValidatorSet _ := .ok ()
  Hash sh := [sh.toUInt8]
  Height _ := 1
  bisection _ _ _ := .error "could not verify"

/-- A client with the witnesses `1`, `2` and `3`. -/
def threeWitnesses : Client Nat := ⟨0, [1, 2, 3], 10⟩

theorem compareNewHeaderWithWitnesses_panics_three :
    [1] ≠ [] ∧ threeWitnesses.witnesses = [1] ++ [2, 3] ∧ 1 ≤ threeWitnesses.maxRetryAttempts ∧
      (∃ altH altVals bsErr,
        signedHeaderAndValSetFromWitness numberedEnv (numberedEnv.Height 1) 2 = .ok (altH, altVals) ∧
          numberedEnv.Hash 1 ≠ numberedEnv.Hash altH ∧
          numberedEnv.bisection 2 altH altVals = .error bsErr) ∧
      (∃ altH altVals bsErr,
        signedHeaderAndValSetFromWitness numberedEnv (numberedEnv.Height 1) 3 = .ok (altH, altVals) ∧
          numberedEnv.Hash 1 ≠ numberedEnv.Hash altH ∧
          numberedEnv.bisection 3 altH altVals = .error bsErr) ∧
      ∃ sched : UInt16 → List Nat, ∀ fuel : Nat,
        compareNewHeaderWithWitnesses numberedEnv sched threeWitnesses 1 (fuel + 1) =
          some (.error (.panic "runtime error: index out of range")) :=
  have hb : ∃ altH altVals bsErr,
      signedHeaderAndValSetFromWitness numberedEnv (numberedEnv.Height 1) 2 = .ok (altH, altVals) ∧
        numberedEnv.Hash 1 ≠ numberedEnv.Hash altH ∧
        numberedEnv.bisection 2 altH altVals = .error bsErr :=
    ⟨2, (), _, rfl, by decide, rfl⟩
  have hd : ∃ altH altVals bsErr,
      signedHeaderAndValSetFromWitness numberedEnv (numberedEnv.Height 1) 3 = .ok (altH, altVals) ∧
        numberedEnv.Hash 1 ≠ numberedEnv.Hash altH ∧
        numberedEnv.bisection 3 altH altVals = .error bsErr :=
    ⟨3, (), _, rfl, by decide, rfl⟩
  ⟨by simp, rfl, by decide, hb, hd,
    compareNewHeaderWithWitnesses_panics numberedEnv threeWitnesses 1 [1] 2 3 (by simp) rfl
      (by decide) hb hd⟩

/-- `compareNewHeaderWithWitnesses` returns `nil` only when some witness answered the header
itself, whatever the scheduler does and however many turns its loop takes. -/
theorem compareNewHeaderWithWitnesses_ok (sched : UInt16 → List Nat) (c : Client P) (h : SH)
    (fuel : Nat) {witnesses' : List P}
    (hrun : compareNewHeaderWithWitnesses env sched c h fuel = some (.ok (.ok (), witnesses'))) :
    ∃ witness ∈ c.witnesses, ∃ altH altVals,
      signedHeaderAndValSetFromWitness env (env.Height h) witness = .ok (altH, altVals) ∧
        env.Hash altH = env.Hash h :=
  attemptsFrom_ok_matched env sched h fuel 1 c witnesses' hrun

/-- A client with the witnesses `1` and `2`. -/
def twoWitnesses : Client Nat := ⟨0, [1, 2], 10⟩

/-- Witness `1` answers header `1` itself and witness `2` another, which bisection rejects: the
check returns `nil` and removes witness `2`. -/
theorem compareNewHeaderWithWitnesses_ok_two :
    compareNewHeaderWithWitnesses numberedEnv (fun _ => [0, 1]) twoWitnesses 1 1 =
        some (.ok (.ok (), [1])) ∧
      ∃ witness ∈ twoWitnesses.witnesses, ∃ altH altVals,
        signedHeaderAndValSetFromWitness numberedEnv (numberedEnv.Height 1) witness =
          .ok (altH, altVals) ∧ numberedEnv.Hash altH = numberedEnv.Hash 1 :=
  have hrun : compareNewHeaderWithWitnesses numberedEnv (fun _ => [0, 1]) twoWitnesses 1 1 =
      some (.ok (.ok (), [1])) := rfl
  ⟨hrun, compareNewHeaderWithWitnesses_ok numberedEnv _ twoWitnesses 1 1 hrun⟩

end Attempts

/-! ## How long the loop runs -/

section Termination

variable {P SH VS : Type} (env : Env P SH VS)

/-- With `maxRetryAttempts = 65535` the loop never ends while every witness's answer fails to
arrive or fails the checks: no attempt returns, and the `uint16` counter wraps to `0` before it
can exceed the bound. -/
theorem attempts_never_end (sched : UInt16 → List Nat) (h : SH) {c : Client P}
    (hmax : c.maxRetryAttempts = 65535) (hne : c.witnesses ≠ [])
    (hfail : ∀ witness ∈ c.witnesses,
      ∃ err, signedHeaderAndValSetFromWitness env (env.Height h) witness = .error err) :
    ∀ (fuel : Nat) (attempt : UInt16), attemptsFrom env sched h fuel attempt c = none := by
  -- every value an attempt reads is a fetch's pointer, which changes nothing
  have hgather : ∀ schedule, gather env c h schedule = ⟨false, none, []⟩ := by
    intro schedule
    refine foldl_handleErr_refs _ (fun v hv => ?_) _
    obtain ⟨⟨j, v'⟩, hj, rfl⟩ := List.mem_map.mp hv
    obtain ⟨witness, hw, hsent⟩ := mem_sends_of_mem_deliver env (List.mem_of_mem_take hj)
    obtain ⟨err, hfetch⟩ := hfail witness (List.mem_of_getElem? hw)
    rw [compareNewHeaderWithWitness_of_error env hfetch] at hsent
    exact ⟨_, List.mem_singleton.mp hsent⟩
  intro fuel
  induction fuel with
  | zero => exact fun _ => rfl
  | succ fuel ih =>
    intro attempt
    have hle : attempt ≤ c.maxRetryAttempts := by
      rw [hmax, UInt16.le_iff_toNat_le]
      have := attempt.toNat_lt
      simp only [UInt16.reduceToNat]
      omega
    rw [attemptsFrom, if_pos hle, if_neg (by simpa using hne)]
    dsimp only
    rw [hgather]
    exact ih (attempt + 1)

/-- Witnesses that never answer. -/
def silentEnv : Env Nat Nat Unit where
  SignedHeader _ _ := .error "no response"
  ValidatorSet _ _ := .error "no response"
  validateHeader _ _ := .ok ()
  validateValidatorSet _ := .ok ()
  Hash sh := [sh.toUInt8]
  Height _ := 1
  bisection _ _ _ := .ok ()

/-- One silent witness and the largest bound: no turn of the loop returns. -/
theorem attempts_never_end_silent :
    (⟨0, [1], 65535⟩ : Client Nat).maxRetryAttempts = 65535 ∧
      (⟨0, [1], 65535⟩ : Client Nat).witnesses ≠ [] ∧
      (∀ witness ∈ (⟨0, [1], 65535⟩ : Client Nat).witnesses,
        ∃ err, signedHeaderAndValSetFromWitness silentEnv (silentEnv.Height 1) witness = .error err) ∧
      ∀ (fuel : Nat) (attempt : UInt16),
        attemptsFrom silentEnv (fun _ => [0]) 1 fuel attempt (⟨0, [1], 65535⟩ : Client Nat) = none :=
  have hfail : ∀ witness ∈ (⟨0, [1], 65535⟩ : Client Nat).witnesses,
      ∃ err, signedHeaderAndValSetFromWitness silentEnv (silentEnv.Height 1) witness = .error err :=
    fun _ _ => ⟨_, rfl⟩
  ⟨rfl, by simp, hfail, attempts_never_end silentEnv (fun _ => [0]) 1 rfl (by simp) hfail⟩

/-- Below `65535` the loop always ends: the counter passes `maxRetryAttempts` after as many
attempts at most. -/
theorem attemptsFrom_ends (sched : UInt16 → List Nat) (h : SH) :
    ∀ (fuel : Nat) (attempt : UInt16) (c : Client P), c.maxRetryAttempts < 65535 →
      c.maxRetryAttempts.toNat < attempt.toNat + fuel →
      (attemptsFrom env sched h (fuel + 1) attempt c).isSome := by
  intro fuel
  induction fuel with
  | zero =>
    intro attempt c _ hlt
    have hgt : ¬ attempt ≤ c.maxRetryAttempts := fun hle =>
      absurd (UInt16.le_iff_toNat_le.mp hle) (by omega)
    rw [attemptsFrom, if_neg hgt]
    rfl
  | succ fuel ih =>
    intro attempt c hmax hlt
    rw [attemptsFrom]
    by_cases hle : attempt ≤ c.maxRetryAttempts
    · rw [if_pos hle]
      by_cases hempty : c.witnesses.length = 0
      · rw [if_pos hempty]
        rfl
      rw [if_neg hempty]
      dsimp only
      split
      · rfl
      · split
        · rfl
        · split_ifs
          · rfl
          · -- the counter does not wrap below the bound
            have hnext : (attempt + 1).toNat = attempt.toNat + 1 := by
              have := UInt16.lt_iff_toNat_lt.mp hmax
              have := UInt16.le_iff_toNat_le.mp hle
              rw [UInt16.toNat_add, UInt16.toNat_one, Nat.mod_eq_of_lt (by simp at *; omega)]
            exact ih (attempt + 1) _ hmax (by simp only [hnext]; omega)
    · rw [if_neg hle]
      rfl

/-- Below `65535` attempts, `compareNewHeaderWithWitnesses` returns or panics within
`maxRetryAttempts + 1` turns of its loop. -/
theorem compareNewHeaderWithWitnesses_ends (sched : UInt16 → List Nat) (c : Client P) (h : SH)
    (hmax : c.maxRetryAttempts < 65535) :
    (compareNewHeaderWithWitnesses env sched c h (c.maxRetryAttempts.toNat + 1)).isSome :=
  attemptsFrom_ends env sched h _ 1 c hmax (by simp)

/-- Two silent witnesses and ten attempts: the loop gives up after the tenth. -/
theorem compareNewHeaderWithWitnesses_ends_silent :
    twoWitnesses.maxRetryAttempts < 65535 ∧
      (compareNewHeaderWithWitnesses silentEnv (fun _ => [0, 1]) twoWitnesses 1
        (twoWitnesses.maxRetryAttempts.toNat + 1)).isSome ∧
      compareNewHeaderWithWitnesses silentEnv (fun _ => [0, 1]) twoWitnesses 1 11 =
        some (.ok (.error .dropout, [1, 2])) :=
  ⟨by decide, compareNewHeaderWithWitnesses_ends silentEnv _ twoWitnesses 1 (by decide), rfl⟩

end Termination

end Light

end Tendermint
