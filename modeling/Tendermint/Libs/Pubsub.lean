import Tendermint.Lib.Except
import Tendermint.Lib.GoMap
import Tendermint.Types.Basic

/-!
# The publish-subscribe server

`Server` (libs/pubsub/pubsub.go) keeps its subscriptions twice.  The callers of `Subscribe`,
`Unsubscribe` and `UnsubscribeAll` look the client up in the server's own `subscriptions`, from
client to the set of its query strings, under the read lock; hand a command to the `loop`
goroutine over `cmds`; and then update that map under the write lock.  The loop keeps its
`state`: from query string to client to `Subscription`, and from query string to the query with
a reference count.  `PublishWithEvents` hands the loop a message, which `state.send` puts on the
`out` channel of every subscription whose query matches its events.

A caller is three steps, between which any other step may run: the check, the send on `cmds`,
and the update after it.  The loop handles one command a step.  A client set of the server is
a map that `Unsubscribe` holds by reference across its steps, so the sets are kept by number.
The channel `cmds` holds the commands sent and not yet handled: with capacity `cmdsCap` that is
at most `cmdsCap + 1`, one more than the buffer, for the command the loop has taken and is
handling.  A panic ends the run.

What the model shows: two `Subscribe` calls of one client for one query that both pass the
check before either updates the map are both accepted.  The loop then keeps the second
subscription only but counts the query twice, and the first subscription, returned to its
caller, is in none of the loop's maps: no later step cancels it or gives it a message
(`Subscribe_race_orphans`).  That the loop never touches a subscription it does not hold is
`Orphan.run`.
-/

namespace Tendermint.Pubsub

open GoMap

/-- The events a message is published with: composite keys to their values. -/
abbrev Events := Map String (List String)

/-- `Query`, an interface: whether the query matches some events, and its text, which keys it. -/
structure Query where
  Matches : Events → Except String Bool
  String : String

def ErrSubscriptionNotFound : String := "subscription not found"

def ErrAlreadySubscribed : String := "already subscribed"

def ErrUnsubscribed : String := "client unsubscribed"

def ErrOutOfCapacity : String := "client is not pulling messages fast enough"

/-- `Message`: the data published, named here by a number, and its events. -/
structure Message where
  data : Nat
  events : Events

/-- `Subscription`.  `out` holds the messages put on its channel and not yet read, at most
`outCap` of them when the channel is buffered; `cancelled` is closed, with `err`. -/
structure Subscription where
  outCap : Nat
  out : List Message
  cancelled : Bool
  err : Option String

def NewSubscription (outCapacity : Nat) : Subscription := ⟨outCapacity, [], false, none⟩

/-- `Subscription.cancel`, of the subscription `id` of the heap `subs`: closing `cancelled` a
second time panics. -/
def cancel (subs : Map Nat Subscription) (id : Nat) (err : Option String) :
    Go (Map Nat Subscription) :=
  match subs.lookup id with
  | none => throw (.panic nilDereference)
  | some s =>
    if s.cancelled then throw (.panic "close of closed channel")
    else pure (subs.insert id { s with cancelled := true, err := err })

/-- `cmd`: what the server's methods send to the loop, one constructor for each `op`, with the
fields that `op` sets. -/
inductive cmd where
  | sub (clientID : String) (query : Query) (subscription : Nat)
  | unsub (clientID : String) (query : Option Query)
  | pub (msg : Nat) (events : Events)

/-- `queryPlusRefCount`. -/
structure queryPlusRefCount where
  q : Query
  refCount : Int

/-- The loop's `state`: query string to client to subscription, and query string to query. -/
structure state where
  subscriptions : Map String (Map String Nat)
  queries : Map String queryPlusRefCount

namespace state

/-- `state.add`: the subscription goes in under the query and the client, over any there, and
the query's count goes up. -/
def add (st : state) (clientID : String) (q : Query) (subscription : Nat) : state :=
  let qStr := q.String
  let clientSubscriptions := (st.subscriptions.lookup qStr).getD ∅
  let qp := (st.queries.lookup qStr).getD ⟨q, 0⟩
  { subscriptions := st.subscriptions.insert qStr (clientSubscriptions.insert clientID subscription)
    queries := st.queries.insert qStr { qp with refCount := qp.refCount + 1 } }

/-- `state.remove`: the client's subscription to the query is cancelled and dropped, with the
query's map once empty, and the query's count goes down, the query with it at zero. -/
def remove (st : state) (subs : Map Nat Subscription) (clientID qStr : String)
    (reason : Option String) : Go (state × Map Nat Subscription) :=
  match st.subscriptions.lookup qStr with
  | none => pure (st, subs)
  | some clientSubscriptions =>
    match clientSubscriptions.lookup clientID with
    | none => pure (st, subs)
    | some subscription => do
      let subs ← cancel subs subscription reason
      let clientSubscriptions := clientSubscriptions.erase clientID
      let subscriptions :=
        if clientSubscriptions.entries.length = 0 then st.subscriptions.erase qStr
        else st.subscriptions.insert qStr clientSubscriptions
      -- `state.queries[qStr].refCount--` through a nil pointer panics
      match st.queries.lookup qStr with
      | none => throw (.panic nilDereference)
      | some qp =>
        let queries :=
          if qp.refCount - 1 = 0 then st.queries.erase qStr
          else st.queries.insert qStr { qp with refCount := qp.refCount - 1 }
        pure ({ subscriptions, queries }, subs)

/-- `state.removeClient`: every subscription of the client is removed.  A removal touches only
its own query, so the entries not yet reached are as the loop began. -/
def removeClient (st : state) (subs : Map Nat Subscription) (clientID : String)
    (reason : Option String) : Go (state × Map Nat Subscription) :=
  st.subscriptions.entries.foldlM (fun acc e =>
    if (e.2.lookup clientID).isSome then acc.1.remove acc.2 clientID e.1 reason
    else pure acc) (st, subs)

/-- The loop of `state.send` over the subscribers of one matching query: an unbuffered channel
blocks the loop until the client takes the message; a full buffered one gets its subscription
removed with `ErrOutOfCapacity`. -/
def deliverTo (msg : Message) (qStr : String) (acc : state × Map Nat Subscription)
    (e : Σ _ : String, Nat) : Go (state × Map Nat Subscription) :=
  match acc.2.lookup e.2 with
  | none => throw (.panic nilDereference)
  | some s =>
    if s.outCap = 0 then pure (acc.1, acc.2.insert e.2 { s with out := s.out ++ [msg] })
    else if s.out.length < s.outCap then
      pure (acc.1, acc.2.insert e.2 { s with out := s.out ++ [msg] })
    else acc.1.remove acc.2 e.1 qStr (some ErrOutOfCapacity)

/-- The loop of `state.send` over the queries, from the entry `e` on: an error of `Matches`
ends it, and is returned beside what the loop did before. -/
def sendFrom (msg : Message) :
    List (Σ _ : String, Map String Nat) → state × Map Nat Subscription →
      Go ((state × Map Nat Subscription) × Option String)
  | [], acc => pure (acc, none)
  | e :: rest, acc =>
    match acc.1.queries.lookup e.1 with
    | none => throw (.panic nilDereference)
    | some qp =>
      match qp.q.Matches msg.events with
      | .error err =>
        pure (acc, some ("failed to match against query " ++ qp.q.String ++ ": " ++ err))
      | .ok false => sendFrom msg rest acc
      | .ok true => do
        let acc ← e.2.entries.foldlM (deliverTo msg e.1) acc
        sendFrom msg rest acc

/-- `state.send`. -/
def send (st : state) (subs : Map Nat Subscription) (msg : Nat) (events : Events) :
    Go ((state × Map Nat Subscription) × Option String) :=
  sendFrom ⟨msg, events⟩ st.subscriptions.entries (st, subs)

/-- One turn of `loop`; an error of `send` goes to the log. -/
def handle (st : state) (subs : Map Nat Subscription) : cmd → Go (state × Map Nat Subscription)
  | .unsub clientID (some q) => st.remove subs clientID q.String (some ErrUnsubscribed)
  | .unsub clientID none => st.removeClient subs clientID (some ErrUnsubscribed)
  | .sub clientID q subscription => pure (st.add clientID q subscription, subs)
  | .pub msg events => do
    let (acc, _) ← st.send subs msg events
    pure acc

end state

/-- The server's side: the command channel, and each client's set of query strings, held by
number in `sets`. -/
structure Server where
  cmdsCap : Nat
  cmds : List cmd
  subscriptions : Map String Nat
  sets : Map Nat (Map String Unit)
  nextSet : Nat

/-- `NewServer` with `BufferCapacity(cmdsCap)`. -/
def NewServer (cmdsCap : Nat) : Server := ⟨cmdsCap, [], ∅, ∅, 0⟩

namespace Server

/-- The set `ref`; a missing one reads as an empty map. -/
def set (s : Server) (ref : Nat) : Map String Unit := (s.sets.lookup ref).getD ∅

/-- The check under the read lock: the client's set, if it holds the query. -/
def has (s : Server) (clientID qStr : String) : Option Nat :=
  match s.subscriptions.lookup clientID with
  | some ref => if ((s.set ref).lookup qStr).isSome then some ref else none
  | none => none

/-- What `subscribe` does under the write lock once the loop took its command. -/
def addQuery (s : Server) (clientID qStr : String) : Server :=
  match s.subscriptions.lookup clientID with
  | some ref => { s with sets := s.sets.insert ref ((s.set ref).insert qStr ()) }
  | none =>
    { s with subscriptions := s.subscriptions.insert clientID s.nextSet
             sets := s.sets.insert s.nextSet ((∅ : Map String Unit).insert qStr ())
             nextSet := s.nextSet + 1 }

/-- What `Unsubscribe` does under the write lock, to the set it read under the read lock. -/
def deleteQuery (s : Server) (clientSubscriptions : Nat) (clientID qStr : String) : Server :=
  let set := (s.set clientSubscriptions).erase qStr
  let s := { s with sets := s.sets.insert clientSubscriptions set }
  if set.entries.length = 0 then { s with subscriptions := s.subscriptions.erase clientID }
  else s

end Server

/-- Where a caller of the server is. -/
inductive callerPhase where
  | idle
  | subChecked (clientID : String) (query : Query) (outCapacity : Nat)
  | subSent (clientID : String) (query : Query) (subscription : Nat)
  | unsubChecked (clientID : String) (query : Query) (clientSubscriptions : Nat)
  | unsubSent (clientID : String) (query : Query) (clientSubscriptions : Nat)
  | unsubAllChecked (clientID : String)
  | unsubAllSent (clientID : String)
  | done (subscription : Option Nat) (err : Option String)

/-- A caller that may call again. -/
def callerPhase.ready : callerPhase → Bool
  | .idle => true
  | .done _ _ => true
  | _ => false

/-- The server, its loop, the subscriptions made, and the callers. -/
structure world where
  srv : Server
  st : state
  subs : Map Nat Subscription
  nextSub : Nat
  callers : Map Nat callerPhase

/-- A started server: `OnStart` runs `loop` on an empty state. -/
def started (cmdsCap : Nat) : world := ⟨NewServer cmdsCap, ⟨∅, ∅⟩, ∅, 0, ∅⟩

namespace world

def phase (w : world) (caller : Nat) : callerPhase := (w.callers.lookup caller).getD .idle

def setPhase (w : world) (caller : Nat) (p : callerPhase) : world :=
  { w with callers := w.callers.insert caller p }

/-- A command goes on `cmds`. -/
def push (w : world) (c : cmd) : world := { w with srv := { w.srv with cmds := w.srv.cmds ++ [c] } }

@[simp] lemma phase_setPhase (w : world) (caller : Nat) (p : callerPhase) :
    (w.setPhase caller p).phase caller = p := by
  simp [phase, setPhase]

lemma phase_setPhase_ne (w : world) {caller caller' : Nat} (h : caller' ≠ caller)
    (p : callerPhase) : (w.setPhase caller p).phase caller' = w.phase caller' := by
  simp [phase, setPhase, AList.lookup_insert_ne h]

@[simp] lemma setPhase_srv (w : world) (caller : Nat) (p : callerPhase) :
    (w.setPhase caller p).srv = w.srv := rfl

@[simp] lemma setPhase_st (w : world) (caller : Nat) (p : callerPhase) :
    (w.setPhase caller p).st = w.st := rfl

@[simp] lemma setPhase_subs (w : world) (caller : Nat) (p : callerPhase) :
    (w.setPhase caller p).subs = w.subs := rfl

@[simp] lemma setPhase_nextSub (w : world) (caller : Nat) (p : callerPhase) :
    (w.setPhase caller p).nextSub = w.nextSub := rfl

@[simp] lemma setPhase_setPhase (w : world) (caller : Nat) (p p' : callerPhase) :
    (w.setPhase caller p).setPhase caller p' = w.setPhase caller p' := by
  simp [setPhase, AList.insert_insert]

end world

/-- `Subscribe`'s capacity of `out`: one by default. -/
def outCap : List Int → Go Nat
  | [] => pure 1
  | c :: _ =>
    if c ≤ 0 then
      throw (.panic
        "Negative or zero capacity. Use SubscribeUnbuffered if you want an unbuffered channel")
    else pure c.toNat

/-- A call of a caller, a step of a caller in a call, of the loop, or of a client reading. -/
inductive Event where
  | subscribe (caller : Nat) (clientID : String) (query : Query) (outCapacity : List Int)
  | subscribeUnbuffered (caller : Nat) (clientID : String) (query : Query)
  | unsubscribe (caller : Nat) (clientID : String) (query : Query)
  | unsubscribeAll (caller : Nat) (clientID : String)
  /-- the caller's command goes on `cmds` -/
  | send (caller : Nat)
  /-- the caller's update under the write lock -/
  | update (caller : Nat)
  /-- the caller's context ends while it waits to send -/
  | ctxDone (caller : Nat) (err : String)
  | publishWithEvents (msg : Nat) (events : Events)
  | loop
  | read (subscription : Nat)

/-- The check of `subscribe` under the read lock. -/
def world.subscribe (w : world) (caller : Nat) (clientID : String) (query : Query)
    (outCapacity : Nat) : world :=
  if (w.srv.has clientID query.String).isSome then
    w.setPhase caller (.done none (some ErrAlreadySubscribed))
  else w.setPhase caller (.subChecked clientID query outCapacity)

/-- One step; `none` when it cannot be taken (a busy caller, a full channel, nothing to handle
or read) or panics. -/
def step (w : world) : Event → Option world
  | .subscribe caller clientID query outCapacity =>
    match (w.phase caller).ready, outCap outCapacity with
    | true, .ok c => some (w.subscribe caller clientID query c)
    | _, _ => none
  | .subscribeUnbuffered caller clientID query =>
    if (w.phase caller).ready then some (w.subscribe caller clientID query 0) else none
  | .unsubscribe caller clientID query =>
    if (w.phase caller).ready then
      match w.srv.has clientID query.String with
      | some ref => some (w.setPhase caller (.unsubChecked clientID query ref))
      | none => some (w.setPhase caller (.done none (some ErrSubscriptionNotFound)))
    else none
  | .unsubscribeAll caller clientID =>
    if (w.phase caller).ready then
      if (w.srv.subscriptions.lookup clientID).isSome then
        some (w.setPhase caller (.unsubAllChecked clientID))
      else some (w.setPhase caller (.done none (some ErrSubscriptionNotFound)))
    else none
  | .send caller =>
    if w.srv.cmds.length ≤ w.srv.cmdsCap then
      match w.phase caller with
      | .subChecked clientID query outCapacity =>
        let w' := (w.push (.sub clientID query w.nextSub)).setPhase caller
          (.subSent clientID query w.nextSub)
        some { w' with subs := w.subs.insert w.nextSub (NewSubscription outCapacity),
                       nextSub := w.nextSub + 1 }
      | .unsubChecked clientID query ref =>
        some ((w.push (.unsub clientID (some query))).setPhase caller
          (.unsubSent clientID query ref))
      | .unsubAllChecked clientID =>
        some ((w.push (.unsub clientID none)).setPhase caller (.unsubAllSent clientID))
      | _ => none
    else none
  | .update caller =>
    match w.phase caller with
    | .subSent clientID query subscription =>
      some ({ w with srv := w.srv.addQuery clientID query.String }.setPhase caller
        (.done (some subscription) none))
    | .unsubSent clientID query ref =>
      some ({ w with srv := w.srv.deleteQuery ref clientID query.String }.setPhase caller
        (.done none none))
    | .unsubAllSent clientID =>
      some ({ w with srv := { w.srv with subscriptions := w.srv.subscriptions.erase clientID } }
        |>.setPhase caller (.done none none))
    | _ => none
  | .ctxDone caller err =>
    match w.phase caller with
    | .subChecked .. | .unsubChecked .. | .unsubAllChecked .. =>
      some (w.setPhase caller (.done none (some err)))
    | _ => none
  | .publishWithEvents msg events =>
    if w.srv.cmds.length ≤ w.srv.cmdsCap then some (w.push (.pub msg events)) else none
  | .loop =>
    match w.srv.cmds with
    | c :: rest =>
      match w.st.handle w.subs c with
      | .ok (st, subs) => some { w with srv := { w.srv with cmds := rest }, st := st, subs := subs }
      | .error _ => none
    | [] => none
  | .read id =>
    match w.subs.lookup id with
    | some s =>
      match s.out with
      | _ :: rest => some { w with subs := w.subs.insert id { s with out := rest } }
      | [] => none
    | none => none

def run (w : world) : List Event → Option world
  | [] => some w
  | ev :: evs => (step w ev).bind fun w => run w evs


/-! ## The loop touches only the subscriptions it holds -/

namespace state

/-- The subscription the loop holds for a query and a client. -/
def slot (st : state) (qStr clientID : String) : Option Nat :=
  (st.subscriptions.lookup qStr).bind fun cs => cs.lookup clientID

@[simp] lemma slot_empty (qStr clientID : String) : (state.mk ∅ ∅).slot qStr clientID = none :=
  rfl

lemma slot_add (st : state) (clientID : String) (q : Query) (subscription : Nat)
    (qStr c : String) :
    (st.add clientID q subscription).slot qStr c =
      if qStr = q.String ∧ c = clientID then some subscription else st.slot qStr c := by
  simp only [slot, add]
  by_cases hq : qStr = q.String
  · subst hq
    rw [AList.lookup_insert, Option.bind_some, lookup_insert_ite]
    by_cases hc : c = clientID
    · simp [hc]
    · cases st.subscriptions.lookup q.String <;> simp [hc]
  · rw [AList.lookup_insert_ne hq]
    simp [hq]

/-- Dropping a query's map once it is empty changes none of the lookups through it. -/
lemma lookup_bind_dropEmpty (m : Map String (Map String Nat)) (cs : Map String Nat)
    (qStr q c : String) :
    ((if cs.entries.length = 0 then m.erase qStr else m.insert qStr cs).lookup q).bind
        (fun cs => cs.lookup c) =
      if q = qStr then cs.lookup c else (m.lookup q).bind fun cs => cs.lookup c := by
  split_ifs with hlen hq hq
  · subst hq
    have hnil : cs.entries = [] := List.eq_nil_of_length_eq_zero hlen
    rw [AList.lookup_erase]
    simp [AList.lookup, hnil]
  · rw [AList.lookup_erase_ne hq]
  · subst hq
    rw [AList.lookup_insert]
    rfl
  · rw [AList.lookup_insert_ne hq]

/-- `remove` empties the one slot it names. -/
lemma remove_slot {st st' : state} {subs subs' : Map Nat Subscription} {clientID qStr : String}
    {reason : Option String} (hr : st.remove subs clientID qStr reason = .ok (st', subs'))
    (q c : String) : st'.slot q c = if q = qStr ∧ c = clientID then none else st.slot q c := by
  unfold remove at hr
  split at hr
  · next hcs =>
    cases hr
    split_ifs with h
    · rw [slot, h.1, hcs]; rfl
    · rfl
  · next cs hcs =>
    split at hr
    · next hj =>
      cases hr
      split_ifs with h
      · rw [slot, h.1, h.2, hcs]; exact hj
      · rfl
    · obtain ⟨subs₁, -, hrest⟩ := ExceptRun.bind_eq_ok hr
      split at hrest
      · cases hrest
      · cases hrest
        simp only [slot]
        rw [lookup_bind_dropEmpty, lookup_erase_ite]
        by_cases hq : q = qStr
        · subst hq
          by_cases hc : c = clientID <;> simp [hc, hcs]
        · simp [hq]

end state

/-- Subscription `i` is in none of the loop's maps. -/
def NotLive (st : state) (i : Nat) : Prop := ∀ qStr clientID, st.slot qStr clientID ≠ some i

/-- What the loop keeps of a subscription it does not hold: it stays out of the loop's maps,
and its record in the heap stays `v`. -/
def Keeps (i : Nat) (v : Option Subscription) (acc : state × Map Nat Subscription) : Prop :=
  NotLive acc.1 i ∧ acc.2.lookup i = v

lemma cancel_lookup_ne {subs subs' : Map Nat Subscription} {j i : Nat} {err : Option String}
    (h : cancel subs j err = .ok subs') (hne : i ≠ j) : subs'.lookup i = subs.lookup i := by
  unfold cancel at h
  split at h
  · cases h
  · split_ifs at h
    cases h
    exact AList.lookup_insert_ne hne

section Keeps

variable {i : Nat} {v : Option Subscription} {acc acc' : state × Map Nat Subscription}

lemma Keeps.remove (h : Keeps i v acc) {clientID qStr : String} {reason : Option String}
    (hr : acc.1.remove acc.2 clientID qStr reason = .ok acc') : Keeps i v acc' := by
  obtain ⟨st', subs'⟩ := acc'
  refine ⟨fun q c => ?_, ?_⟩
  · rw [state.remove_slot hr]
    split_ifs
    · simp
    · exact h.1 q c
  · -- the one subscription cancelled is the one in the slot, which is not `i`
    rw [← h.2]
    unfold state.remove at hr
    split at hr
    · cases hr; rfl
    · next cs hcs =>
      split at hr
      · cases hr; rfl
      · next j hj =>
        obtain ⟨subs₁, hc, hrest⟩ := ExceptRun.bind_eq_ok hr
        have hne : i ≠ j := by
          intro hij
          apply h.1 qStr clientID
          rw [state.slot, hcs, hij]
          exact hj
        split at hrest
        · cases hrest
        · cases hrest
          exact cancel_lookup_ne hc hne

lemma Keeps.removeClient (h : Keeps i v acc) {clientID : String} {reason : Option String}
    (hr : acc.1.removeClient acc.2 clientID reason = .ok acc') : Keeps i v acc' := by
  refine ExceptRun.foldlM_inv (fun b e b' hb hs => ?_) _ h hr
  split at hs
  · exact hb.remove hs
  · cases hs
    exact hb

lemma Keeps.deliverTo (h : Keeps i v acc) {msg : Message} {qStr : String}
    {e : Σ _ : String, Nat} (he : e.2 ≠ i) (hd : state.deliverTo msg qStr acc e = .ok acc') :
    Keeps i v acc' := by
  unfold state.deliverTo at hd
  split at hd
  · cases hd
  · split_ifs at hd
    · cases hd
      exact ⟨h.1, (AList.lookup_insert_ne (Ne.symm he)).trans h.2⟩
    · cases hd
      exact ⟨h.1, (AList.lookup_insert_ne (Ne.symm he)).trans h.2⟩
    · exact h.remove hd

/-- `send` gives messages only to the subscriptions of the entries it walks. -/
lemma Keeps.sendFrom {msg : Message} :
    ∀ (l : List (Σ _ : String, Map String Nat)), (∀ e ∈ l, ∀ x ∈ e.2.entries, x.2 ≠ i) →
      ∀ {acc : state × Map Nat Subscription} {r : (state × Map Nat Subscription) × Option String},
        Keeps i v acc → state.sendFrom msg l acc = .ok r → Keeps i v r.1
  | [], _, _, _, h, hs => by
    cases hs
    exact h
  | e :: rest, hl, acc, r, h, hs => by
    have hrest : ∀ e ∈ rest, ∀ x ∈ e.2.entries, x.2 ≠ i :=
      fun e' he' => hl e' (List.mem_cons_of_mem _ he')
    unfold state.sendFrom at hs
    split at hs
    · cases hs
    · split at hs
      · cases hs
        exact h
      · exact Keeps.sendFrom rest hrest h hs
      · obtain ⟨acc₁, hd, hs⟩ := ExceptRun.bind_eq_ok hs
        have h₁ : Keeps i v acc₁ := ExceptRun.foldlM_inv_of_mem _
          (fun b x b' hx hb hb' => hb.deliverTo (hl e List.mem_cons_self x hx) hb') h hd
        exact Keeps.sendFrom rest hrest h₁ hs

/-- The subscriptions of the loop's maps are the values of its slots. -/
lemma NotLive.entries {st : state} (h : NotLive st i) :
    ∀ e ∈ st.subscriptions.entries, ∀ x ∈ e.2.entries, x.2 ≠ i := by
  intro e he x hx hxi
  apply h e.1 x.1
  rw [state.slot, AList.mem_lookup_iff.mpr he, ← hxi]
  exact AList.mem_lookup_iff.mpr hx

/-- A command that does not add `i` leaves it as it is. -/
lemma Keeps.handle (h : Keeps i v acc) {c : cmd} (hc : ∀ clientID q, c ≠ .sub clientID q i)
    (hh : acc.1.handle acc.2 c = .ok acc') : Keeps i v acc' := by
  cases c with
  | unsub clientID q =>
    cases q with
    | some q => exact h.remove hh
    | none => exact h.removeClient hh
  | sub clientID q j =>
    cases hh
    have hj : j ≠ i := fun hji => hc clientID q (by rw [hji])
    refine ⟨fun qStr c' => ?_, h.2⟩
    rw [state.slot_add]
    split_ifs
    · simpa using hj
    · exact h.1 qStr c'
  | pub msg events =>
    obtain ⟨⟨acc₁, err⟩, hs, hr⟩ := ExceptRun.bind_eq_ok hh
    cases hr
    exact h.sendFrom _ h.1.entries hs

end Keeps


namespace Server

@[simp] lemma addQuery_cmds (s : Server) (clientID qStr : String) :
    (s.addQuery clientID qStr).cmds = s.cmds := by
  unfold addQuery
  split <;> rfl

@[simp] lemma deleteQuery_cmds (s : Server) (ref : Nat) (clientID qStr : String) :
    (s.deleteQuery ref clientID qStr).cmds = s.cmds := by
  dsimp only [deleteQuery]
  split_ifs <;> rfl

end Server

/-! ## A subscription the loop does not hold stays as it is -/

/-- Subscription `i`, with record `s`, is made, is in none of the loop's maps, and is on no
command the loop has still to handle. -/
structure Orphan (i : Nat) (s : Subscription) (w : world) : Prop where
  made : i < w.nextSub
  notLive : NotLive w.st i
  notSent : ∀ clientID q, cmd.sub clientID q i ∉ w.srv.cmds
  kept : w.subs.lookup i = some s

section Orphan

variable {i : Nat} {s : Subscription} {w w' : world}

lemma Orphan.setPhase (h : Orphan i s w) (caller : Nat) (p : callerPhase) :
    Orphan i s (w.setPhase caller p) :=
  ⟨h.made, h.notLive, h.notSent, h.kept⟩

lemma Orphan.subscribe (h : Orphan i s w) (caller : Nat) (clientID : String) (query : Query)
    (n : Nat) : Orphan i s (w.subscribe caller clientID query n) := by
  unfold world.subscribe
  split_ifs
  · exact h.setPhase _ _
  · exact h.setPhase _ _

lemma Orphan.push (h : Orphan i s w) {c : cmd} (hc : ∀ clientID q, c ≠ .sub clientID q i) :
    Orphan i s (w.push c) := by
  refine ⟨h.made, h.notLive, fun clientID q hm => ?_, h.kept⟩
  rcases List.mem_append.mp hm with hm | hm
  · exact h.notSent clientID q hm
  · exact hc clientID q (List.mem_singleton.mp hm).symm

lemma Orphan.srv (h : Orphan i s w) {srv : Server} (hc : srv.cmds = w.srv.cmds) :
    Orphan i s { w with srv := srv } :=
  ⟨h.made, h.notLive, fun clientID q => hc ▸ h.notSent clientID q, h.kept⟩

/-- The loop handles a command that does not add `i`. -/
lemma Orphan.loop (h : Orphan i s w) {c : cmd} {rest : List cmd} (hcmds : w.srv.cmds = c :: rest)
    {st : state} {subs : Map Nat Subscription} (hh : w.st.handle w.subs c = .ok (st, subs)) :
    Orphan i s { w with srv := { w.srv with cmds := rest }, st := st, subs := subs } := by
  have hc : ∀ clientID q, c ≠ .sub clientID q i := by
    intro clientID q hc
    apply h.notSent clientID q
    rw [hcmds, ← hc]
    exact List.mem_cons_self
  have hk₀ : Keeps i (some s) (w.st, w.subs) := ⟨h.notLive, h.kept⟩
  have hk : Keeps i (some s) (st, subs) := hk₀.handle hc hh
  refine ⟨h.made, hk.1, fun clientID q hm => ?_, hk.2⟩
  apply h.notSent clientID q
  rw [hcmds]
  exact List.mem_cons_of_mem _ hm

/-- Every step keeps an orphan with nothing to read as it is. -/
lemma Orphan.step (h : Orphan i s w) (hs : s.out = []) {ev : Event}
    (hw : step w ev = some w') : Orphan i s w' := by
  cases ev with
  | subscribe caller clientID query outCapacity =>
    simp only [Pubsub.step] at hw
    split at hw
    · cases hw
      exact h.subscribe _ _ _ _
    · cases hw
  | subscribeUnbuffered caller clientID query =>
    simp only [Pubsub.step] at hw
    split_ifs at hw
    cases hw
    exact h.subscribe _ _ _ _
  | unsubscribe caller clientID query =>
    simp only [Pubsub.step] at hw
    split_ifs at hw
    split at hw <;> (cases hw; exact h.setPhase _ _)
  | unsubscribeAll caller clientID =>
    simp only [Pubsub.step] at hw
    split_ifs at hw <;> (cases hw; exact h.setPhase _ _)
  | send caller =>
    simp only [Pubsub.step] at hw
    split_ifs at hw
    split at hw
    · next clientID query outCapacity _ =>
      cases hw
      -- the new subscription is numbered past `i`
      have hne : i ≠ w.nextSub := Nat.ne_of_lt h.made
      have hp : Orphan i s (w.push (.sub clientID query w.nextSub)) :=
        h.push fun _ _ hc => hne (cmd.sub.inj hc).2.2.symm
      exact ⟨Nat.lt_succ_of_lt h.made, h.notLive, hp.notSent,
        (AList.lookup_insert_ne hne).trans h.kept⟩
    · cases hw
      exact (h.push fun _ _ hc => by cases hc).setPhase _ _
    · cases hw
      exact (h.push fun _ _ hc => by cases hc).setPhase _ _
    · cases hw
  | update caller =>
    simp only [Pubsub.step] at hw
    split at hw
    · cases hw
      exact (h.srv (Server.addQuery_cmds _ _ _)).setPhase _ _
    · cases hw
      exact (h.srv (Server.deleteQuery_cmds _ _ _ _)).setPhase _ _
    · cases hw
      refine (h.srv ?_).setPhase _ _
      rfl
    · cases hw
  | ctxDone caller err =>
    simp only [Pubsub.step] at hw
    split at hw <;> first | (cases hw; exact h.setPhase _ _) | cases hw
  | publishWithEvents msg events =>
    simp only [Pubsub.step] at hw
    split_ifs at hw
    cases hw
    exact h.push fun _ _ hc => by cases hc
  | loop =>
    simp only [Pubsub.step] at hw
    split at hw
    · next c rest hcmds =>
      split at hw
      · next st subs hh =>
        cases hw
        exact h.loop hcmds hh
      · cases hw
    · cases hw
  | read id =>
    simp only [Pubsub.step] at hw
    split at hw
    · next s' hs' =>
      split at hw
      · next m rest hout =>
        cases hw
        -- `i` has nothing to read, so the reader reads another subscription
        have hne : i ≠ id := by
          rintro rfl
          rw [h.kept] at hs'
          cases hs'
          rw [hs] at hout
          cases hout
        exact ⟨h.made, h.notLive, h.notSent, (AList.lookup_insert_ne hne).trans h.kept⟩
      · cases hw
    · cases hw

/-- So does every run. -/
lemma Orphan.run (hs : s.out = []) :
    ∀ (evs : List Event) {w w' : world}, Orphan i s w → run w evs = some w' → Orphan i s w'
  | [], _, _, h, hr => by
    cases hr
    exact h
  | ev :: evs, w, w', h, hr => by
    simp only [Pubsub.run, Option.bind_eq_some_iff] at hr
    obtain ⟨w₁, h₁, hr⟩ := hr
    exact Orphan.run hs evs (h.step hs h₁) hr

end Orphan


/-! ## Two `Subscribe` calls that race -/

lemma run_append (w : world) (l₁ l₂ : List Event) :
    run w (l₁ ++ l₂) = (run w l₁).bind fun w => run w l₂ := by
  induction l₁ generalizing w with
  | nil => rfl
  | cons ev l₁ ih =>
    simp only [List.cons_append, run]
    cases step w ev with
    | none => rfl
    | some w₁ => exact ih w₁

/-- The check of a `Subscribe` that finds the pair free. -/
lemma step_subscribe_of_free {w : world} {caller : Nat} {clientID : String} {query : Query}
    (hr : (w.phase caller).ready = true) (hfree : w.srv.has clientID query.String = none) :
    step w (.subscribe caller clientID query []) =
      some (w.setPhase caller (.subChecked clientID query 1)) := by
  simp only [step, hr, outCap, world.subscribe, hfree, Option.isSome_none]
  rfl

/-- The update of a `Subscribe` whose command went out. -/
lemma step_update_of_subSent {w : world} {caller : Nat} {clientID : String} {query : Query}
    {j : Nat} (hp : w.phase caller = .subSent clientID query j) :
    step w (.update caller) = some ({ w with srv := w.srv.addQuery clientID query.String }.setPhase
      caller (.done (some j) none)) := by
  simp [step, hp]

/-- The loop adds the subscription of a `sub` command. -/
lemma step_loop_of_sub {w : world} (clientID : String) (query : Query) (j : Nat)
    (rest : List cmd) (hcmds : w.srv.cmds = .sub clientID query j :: rest) :
    step w .loop = some { w with srv := { w.srv with cmds := rest },
                                 st := w.st.add clientID query j } := by
  simp [step, hcmds, state.handle]
  rfl

/-- A `Subscribe` past its check, alone with the loop: its command goes out, the caller updates
the server's map, and the loop adds the new subscription. -/
lemma run_subscribe_rest {w : world} {caller : Nat} {clientID : String} {query : Query} {n : Nat}
    (hp : w.phase caller = .subChecked clientID query n) (hcmds : w.srv.cmds = []) :
    run w [.send caller, .update caller, .loop] =
      some ({ w with srv := w.srv.addQuery clientID query.String
                     st := w.st.add clientID query w.nextSub
                     subs := w.subs.insert w.nextSub (NewSubscription n)
                     nextSub := w.nextSub + 1 }.setPhase caller (.done (some w.nextSub) none)) := by
  have hsend : step w (.send caller) = some
      ({ w.push (.sub clientID query w.nextSub) with
          subs := w.subs.insert w.nextSub (NewSubscription n), nextSub := w.nextSub + 1 }.setPhase
        caller (.subSent clientID query w.nextSub)) := by
    simp [step, hp, hcmds]
    rfl
  rw [run, hsend, Option.bind_some, run, step_update_of_subSent (world.phase_setPhase _ _ _),
    Option.bind_some, run, step_loop_of_sub clientID query w.nextSub [] ?_]
  · -- the command is handled, and the channel is empty again
    obtain ⟨⟨cap, cmds, ss, sets, ns⟩, st, subs, nextSub, callers⟩ := w
    subst hcmds
    simp only [run, world.setPhase, world.push, List.nil_append]
    cases h : ss.lookup clientID <;> simp [Server.addQuery, Server.set, h]
  · simp [world.setPhase, world.push, hcmds]

/-- Two `Subscribe` calls of one client for one query, both checked before either updates the
server's map, are both accepted.  The loop keeps the second subscription only, yet counts the
query twice; the first, returned to its caller, is in none of the loop's maps, and no later step
cancels it or gives it a message. -/
theorem Subscribe_race_orphans (cmdsCap a b : Nat) (hab : a ≠ b) (clientID : String)
    (query : Query) :
    ∃ w, run (started cmdsCap) [.subscribe a clientID query [], .subscribe b clientID query [],
        .send a, .update a, .loop, .send b, .update b, .loop] = some w ∧
      w.srv.cmds = [] ∧
      w.phase a = .done (some 0) none ∧ w.phase b = .done (some 1) none ∧
      (w.st.subscriptions.lookup query.String).map (fun cs => cs.entries.length) = some 1 ∧
      w.st.slot query.String clientID = some 1 ∧
      (w.st.queries.lookup query.String).map (·.refCount) = some 2 ∧
      ∀ evs w', run w evs = some w' →
        NotLive w'.st 0 ∧ w'.subs.lookup 0 = some (NewSubscription 1) := by
  -- both checks pass, on the empty map of a started server
  have h₁ : step (started cmdsCap) (.subscribe a clientID query []) =
      some ((started cmdsCap).setPhase a (.subChecked clientID query 1)) :=
    step_subscribe_of_free rfl rfl
  have h₂ : step ((started cmdsCap).setPhase a (.subChecked clientID query 1))
      (.subscribe b clientID query []) =
      some (((started cmdsCap).setPhase a (.subChecked clientID query 1)).setPhase b
        (.subChecked clientID query 1)) :=
    step_subscribe_of_free (by rw [world.phase_setPhase_ne _ (Ne.symm hab)]; rfl) rfl
  -- then each caller runs to its end with the loop
  have hpa : (((started cmdsCap).setPhase a (.subChecked clientID query 1)).setPhase b
      (.subChecked clientID query 1)).phase a = .subChecked clientID query 1 := by
    rw [world.phase_setPhase_ne _ hab, world.phase_setPhase]
  have h₃ := run_subscribe_rest hpa rfl
  have hpb : ({ (((started cmdsCap).setPhase a (.subChecked clientID query 1)).setPhase b
      (.subChecked clientID query 1)) with
        srv := (NewServer cmdsCap).addQuery clientID query.String
        st := (state.mk ∅ ∅).add clientID query 0
        subs := (∅ : Map Nat Subscription).insert 0 (NewSubscription 1)
        nextSub := 1 }.setPhase a (.done (some 0) none)).phase b = .subChecked clientID query 1 := by
    rw [world.phase_setPhase_ne _ (Ne.symm hab)]
    exact world.phase_setPhase _ _ _
  have h₄ := run_subscribe_rest hpb (Server.addQuery_cmds _ _ _)
  have hrun : run (started cmdsCap) ([.subscribe a clientID query [], .subscribe b clientID query []] ++
      [.send a, .update a, .loop] ++ [.send b, .update b, .loop]) =
      (run (((started cmdsCap).setPhase a (.subChecked clientID query 1)).setPhase b
        (.subChecked clientID query 1)) [.send a, .update a, .loop]).bind
        fun w => run w [.send b, .update b, .loop] := by
    rw [run_append, run_append]
    simp only [run, h₁, h₂, Option.bind_some]
  rw [h₃, Option.bind_some] at hrun
  refine ⟨_, hrun.trans h₄, Server.addQuery_cmds _ _ _, ?_, world.phase_setPhase _ _ _, ?_, ?_, ?_, ?_⟩
  · rw [world.phase_setPhase_ne _ hab]
    exact world.phase_setPhase _ _ _
  · simp [state.add, -AList.insert_empty]
  · simp [state.slot_add]
  · simp [state.add, -AList.insert_empty]
  · -- the first subscription is an orphan from here on
    have ho : Orphan 0 (NewSubscription 1) ({ ({ (((started cmdsCap).setPhase a
        (.subChecked clientID query 1)).setPhase b (.subChecked clientID query 1)) with
          srv := (NewServer cmdsCap).addQuery clientID query.String
          st := (state.mk ∅ ∅).add clientID query 0
          subs := (∅ : Map Nat Subscription).insert 0 (NewSubscription 1)
          nextSub := 1 }.setPhase a (.done (some 0) none)) with
        srv := ((NewServer cmdsCap).addQuery clientID query.String).addQuery clientID query.String
        st := ((state.mk ∅ ∅).add clientID query 0).add clientID query 1
        subs := ((∅ : Map Nat Subscription).insert 0 (NewSubscription 1)).insert 1
          (NewSubscription 1)
        nextSub := 2 }.setPhase b (.done (some 1) none)) := by
      refine ⟨Nat.two_pos, fun qStr c => ?_, fun _ _ hm => ?_, ?_⟩
      · by_cases hq : qStr = query.String ∧ c = clientID <;>
          simp [state.slot_add, hq]
      · simp [NewServer] at hm
      · simp [AList.lookup_insert_ne, -AList.insert_empty]
    intro evs w' hr
    have h' := Orphan.run rfl evs ho hr
    exact ⟨h'.notLive, h'.kept⟩

/-- A query that matches every event. -/
def newBlockQuery : Query := ⟨fun _ => .ok true, "tm.event = NewBlock"⟩

theorem Subscribe_race_orphans_unbuffered :
    ∃ w, run (started 0) [.subscribe 0 "client" newBlockQuery [],
        .subscribe 1 "client" newBlockQuery [], .send 0, .update 0, .loop, .send 1, .update 1,
        .loop] = some w ∧
      w.srv.cmds = [] ∧
      w.phase 0 = .done (some 0) none ∧ w.phase 1 = .done (some 1) none ∧
      (w.st.subscriptions.lookup newBlockQuery.String).map (fun cs => cs.entries.length) =
        some 1 ∧
      w.st.slot newBlockQuery.String "client" = some 1 ∧
      (w.st.queries.lookup newBlockQuery.String).map (·.refCount) = some 2 ∧
      ∀ evs w', run w evs = some w' →
        NotLive w'.st 0 ∧ w'.subs.lookup 0 = some (NewSubscription 1) :=
  Subscribe_race_orphans 0 0 1 (by decide) "client" newBlockQuery

end Tendermint.Pubsub
