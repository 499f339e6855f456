import Tendermint.Lib.GoMap
import Tendermint.Types.Basic

/-!
# The ABCI socket client (abci/client/socket_client.go)

The client queues each request as a `ReqRes`; `sendRequestsRoutine` takes it from the queue,
records it in `reqSent` and writes it to the connection; `recvResponseRoutine` reads each response
and hands it to the oldest request in `reqSent`, after `resMatchesReq` has checked that the kinds
agree.  A response that does not match, an `Exception`, or a response when nothing is expected
stops the client with an error, and `flushQueue` then releases every waiting `ReqRes`.

The model is the client with the connection and an application behind it, stepped by `step`:
calls of the client (`call`, `setCallback`), the flush timer (`tick`), the two routines (`send`,
`recv`) and the application answering the oldest request it was sent (`serve`).  A request is
its kind and its fields as bytes; `ReqRes` objects are named by number.

What the model shows:
* against an application that answers each request with a response of its kind, a client whose
  requests are of the kinds `resMatchesReq` lists pairs every request with its own response and
  never stops (`run_pairs`);
* `resMatchesReq` has no arm for the four snapshot requests, so the matching response to any of
  them stops the client with an error (`snapshot_request_stops_client`).
-/

namespace Tendermint.Abci

open GoMap

/-- The kinds of ABCI requests and responses. -/
inductive Kind where
  | Echo | Flush | Info | SetOption | DeliverTx | CheckTx | Query | Commit | InitChain
  | BeginBlock | EndBlock | ListSnapshots | OfferSnapshot | LoadSnapshotChunk | ApplySnapshotChunk
  deriving DecidableEq, Repr

def Kind.name : Kind → String
  | .Echo => "Echo"
  | .Flush => "Flush"
  | .Info => "Info"
  | .SetOption => "SetOption"
  | .DeliverTx => "DeliverTx"
  | .CheckTx => "CheckTx"
  | .Query => "Query"
  | .Commit => "Commit"
  | .InitChain => "InitChain"
  | .BeginBlock => "BeginBlock"
  | .EndBlock => "EndBlock"
  | .ListSnapshots => "ListSnapshots"
  | .OfferSnapshot => "OfferSnapshot"
  | .LoadSnapshotChunk => "LoadSnapshotChunk"
  | .ApplySnapshotChunk => "ApplySnapshotChunk"

/-- The four kinds of the state-sync snapshot connection. -/
def Kind.snapshot : Kind → Bool
  | .ListSnapshots | .OfferSnapshot | .LoadSnapshotChunk | .ApplySnapshotChunk => true
  | _ => false

/-- `types.Request`: its kind, and its fields, encoded. -/
structure Request where
  kind : Kind
  body : Bytes
  deriving DecidableEq, Repr

/-- `types.Response`: one of the kinds, or an `Exception`. -/
inductive Response where
  | value (kind : Kind) (body : Bytes)
  | Exception (error : String)
  deriving DecidableEq, Repr

namespace Response

/-- `_, ok = res.Value.(*types.Response_X)`. -/
def isKind (res : Response) (k : Kind) : Bool :=
  match res with
  | .value k' _ => k' == k
  | .Exception _ => false

/-- `reflect.TypeOf(res.Value)`, as `%v` prints it. -/
def typeName : Response → String
  | .value k _ => "*types.Response_" ++ k.name
  | .Exception _ => "*types.Response_Exception"

end Response

/-- `resMatchesReq`: one arm per request kind it knows; any other request matches nothing. -/
def resMatchesReq (req : Request) (res : Response) : Bool :=
  match req.kind with
  | .Echo => res.isKind .Echo
  | .Flush => res.isKind .Flush
  | .Info => res.isKind .Info
  | .SetOption => res.isKind .SetOption
  | .DeliverTx => res.isKind .DeliverTx
  | .CheckTx => res.isKind .CheckTx
  | .Commit => res.isKind .Commit
  | .Query => res.isKind .Query
  | .InitChain => res.isKind .InitChain
  | .BeginBlock => res.isKind .BeginBlock
  | .EndBlock => res.isKind .EndBlock
  | _ => false

/-- `reqQueueSize`. -/
def reqQueueSize : Nat := 256

/-- `ReqRes`: the request, the response once it came, the `WaitGroup` of one, the `done` flag
and the callback. -/
structure ReqRes where
  Request : Request
  Response : Option Response
  /-- the `WaitGroup` still holds: `Done` was not called -/
  waiting : Bool
  /-- `done`, which only `SetDone` sets -/
  done : Bool
  /-- a callback is set -/
  cb : Bool
  /-- how many times the callback ran -/
  cbRuns : Nat
  deriving DecidableEq, Repr

/-- `NewReqRes`. -/
def NewReqRes (req : Request) : ReqRes := ⟨req, none, true, false, false, 0⟩

/-- `socketClient`, with the global callback `resCb` set: `resCbRuns` lists the requests it ran
for.  The queue and `reqSent` hold each `ReqRes` by number, with its request, which never
changes. -/
structure socketClient where
  reqQueue : List (Nat × Request)
  reqSent : List (Nat × Request)
  reqres : Map Nat ReqRes
  nextID : Nat
  err : Option String
  running : Bool
  flushTimerSet : Bool
  resCbRuns : List Nat

/-- The connection: requests written and not answered yet, responses not read yet. -/
structure conn where
  toServer : List Request
  toClient : List Response

def NewSocketClient : socketClient := ⟨[], [], ∅, 0, none, true, false, []⟩

namespace socketClient

def updateReqRes (cli : socketClient) (id : Nat) (f : ReqRes → ReqRes) : socketClient :=
  match cli.reqres.lookup id with
  | some rr => { cli with reqres := cli.reqres.insert id (f rr) }
  | none => cli

@[simp] lemma updateReqRes_reqSent (cli : socketClient) (id : Nat) (f : ReqRes → ReqRes) :
    (cli.updateReqRes id f).reqSent = cli.reqSent := by
  unfold updateReqRes
  split <;> rfl

@[simp] lemma updateReqRes_reqQueue (cli : socketClient) (id : Nat) (f : ReqRes → ReqRes) :
    (cli.updateReqRes id f).reqQueue = cli.reqQueue := by
  unfold updateReqRes
  split <;> rfl

@[simp] lemma updateReqRes_running (cli : socketClient) (id : Nat) (f : ReqRes → ReqRes) :
    (cli.updateReqRes id f).running = cli.running := by
  unfold updateReqRes
  split <;> rfl

@[simp] lemma updateReqRes_err (cli : socketClient) (id : Nat) (f : ReqRes → ReqRes) :
    (cli.updateReqRes id f).err = cli.err := by
  unfold updateReqRes
  split <;> rfl

lemma lookup_updateReqRes (cli : socketClient) (id id' : Nat) (f : ReqRes → ReqRes) :
    (cli.updateReqRes id f).reqres.lookup id' =
      if id' = id then (cli.reqres.lookup id).map f else cli.reqres.lookup id' := by
  unfold updateReqRes
  split
  · next rr hrr =>
    rw [lookup_insert_ite]
    split_ifs with h
    · rw [hrr]; rfl
    · rfl
  · next hrr =>
    split_ifs with h
    · rw [h, hrr]; rfl
    · rfl

lemma lookup_updateReqRes_isSome (cli : socketClient) (id id' : Nat) (f : ReqRes → ReqRes) :
    ((cli.updateReqRes id f).reqres.lookup id').isSome = (cli.reqres.lookup id').isSome := by
  rw [lookup_updateReqRes]
  split_ifs with h
  · subst h
    cases cli.reqres.lookup id' <;> rfl
  · rfl

/-- `reqres.Done()`: the waiters are released. -/
def Done (cli : socketClient) (id : Nat) : socketClient :=
  cli.updateReqRes id fun rr => { rr with waiting := false }

/-- `flushQueue`: every request sent or queued is released. -/
def flushQueue (cli : socketClient) : socketClient :=
  let cli := cli.reqSent.foldl (fun cli e => cli.Done e.1) cli
  let cli := cli.reqQueue.foldl (fun cli e => cli.Done e.1) cli
  { cli with reqQueue := [] }

/-- `StopForError`: the first error is kept, and `OnStop` flushes the queue. -/
def StopForError (cli : socketClient) (err : String) : socketClient :=
  if !cli.running then cli
  else
    let cli := { cli with err := cli.err.orElse fun _ => some err, running := false }
    cli.flushQueue

/-- `queueRequest`: a new `ReqRes` on the queue; `none` while the queue is full, where the
caller blocks.  A flush request unsets the flush timer, any other sets it. -/
def queueRequest (cli : socketClient) (req : Request) : Option (Nat × socketClient) :=
  if cli.reqQueue.length ≥ reqQueueSize then none
  else
    let id := cli.nextID
    some (id, { cli with reqQueue := cli.reqQueue ++ [(id, req)], nextID := id + 1,
                         reqres := cli.reqres.insert id (NewReqRes req),
                         flushTimerSet := req.kind != .Flush })

/-- `SetCallback`: run at once if the `ReqRes` is `done`, kept otherwise. -/
def SetCallback (cli : socketClient) (id : Nat) : socketClient :=
  cli.updateReqRes id fun rr =>
    if rr.done then { rr with cbRuns := rr.cbRuns + 1 } else { rr with cb := true }

/-- `didRecvResponse`: the response goes to the oldest request sent, if the kinds match. -/
def didRecvResponse (cli : socketClient) (res : Response) : Except String socketClient :=
  match cli.reqSent with
  | [] => .error ("unexpected result type " ++ res.typeName ++ " when nothing expected")
  | (id, req) :: rest =>
    if !resMatchesReq req res then
      .error ("unexpected result type " ++ res.typeName ++ " when response to " ++
        "*types.Request_" ++ req.kind.name ++ " expected")
    else
      let cli := cli.updateReqRes id fun rr =>
        { rr with Response := some res, waiting := false,
                  cbRuns := if rr.cb then rr.cbRuns + 1 else rr.cbRuns }
      .ok { cli with reqSent := rest, resCbRuns := cli.resCbRuns ++ [id] }

end socketClient

/-- A call, a tick of the flush timer, a step of one of the client's routines, or the
application answering. -/
inductive Event where
  | call (req : Request)
  | setCallback (id : Nat)
  | tick
  | send
  | serve
  | recv

/-- One step, with the application answering `answer`; `none` when the step cannot be taken (a
full queue, nothing to send or read, or a stopped client's routines). -/
def step (answer : Request → Response) (s : socketClient × conn) :
    Event → Option (socketClient × conn)
  | .call req => (s.1.queueRequest req).map fun r => (r.2, s.2)
  | .setCallback id => some (s.1.SetCallback id, s.2)
  | .tick =>
    if !s.1.flushTimerSet then none
    else
      let cli := { s.1 with flushTimerSet := false }
      -- the flush request is dropped when the queue is full
      match cli.queueRequest ⟨.Flush, []⟩ with
      | some (_, cli') => some ({ cli' with flushTimerSet := false }, s.2)
      | none => some (cli, s.2)
  | .send =>
    match s.1.running, s.1.reqQueue with
    | true, (id, req) :: rest =>
      some ({ s.1 with reqQueue := rest, reqSent := s.1.reqSent ++ [(id, req)] },
            { s.2 with toServer := s.2.toServer ++ [req] })
    | _, _ => none
  | .serve =>
    match s.2.toServer with
    | req :: rest => some (s.1, ⟨rest, s.2.toClient ++ [answer req]⟩)
    | [] => none
  | .recv =>
    match s.1.running, s.2.toClient with
    | true, res :: rest =>
      let c := { s.2 with toClient := rest }
      match res with
      | .Exception e => some (s.1.StopForError e, c)
      | res =>
        match s.1.didRecvResponse res with
        | .ok cli => some (cli, c)
        | .error err => some (s.1.StopForError err, c)
    | _, _ => none

def run (answer : Request → Response) (s : socketClient × conn) : List Event →
    Option (socketClient × conn)
  | [] => some s
  | ev :: evs => (step answer s ev).bind fun s => run answer s evs


/-! ## Which responses a request takes -/

/-- A response of its own kind matches every request but the four snapshot ones. -/
lemma resMatchesReq_self {req : Request} (h : req.kind.snapshot = false) (body : Bytes) :
    resMatchesReq req (.value req.kind body) = true := by
  obtain ⟨k, b⟩ := req
  cases k <;> simp_all [resMatchesReq, Kind.snapshot, Response.isKind]

/-- A snapshot request matches no response. -/
lemma resMatchesReq_snapshot {req : Request} (h : req.kind.snapshot = true) (res : Response) :
    resMatchesReq req res = false := by
  obtain ⟨k, b⟩ := req
  cases k <;> simp_all [resMatchesReq, Kind.snapshot]

lemma run_append (answer : Request → Response) (s : socketClient × conn) (l₁ l₂ : List Event) :
    run answer s (l₁ ++ l₂) = (run answer s l₁).bind fun s => run answer s l₂ := by
  induction l₁ generalizing s with
  | nil => rfl
  | cons ev l₁ ih =>
    simp only [List.cons_append, run]
    cases step answer s ev with
    | none => rfl
    | some s₁ => exact ih s₁

/-- The matching response to a snapshot request stops the client.  Against an application
that answers a `ListSnapshots`, `OfferSnapshot`, `LoadSnapshotChunk` or `ApplySnapshotChunk`
request with a response of the same kind, the new client sends the request, reads the response,
finds that it does not match, and stops with an error; the request is released without a
response. -/
theorem snapshot_request_stops_client (answer : Request → Response) (req : Request)
    (hsnap : req.kind.snapshot = true) (body : Bytes) (hans : answer req = .value req.kind body) :
    ∃ cli c, run answer (NewSocketClient, ⟨[], []⟩) [.call req, .send, .serve, .recv] =
        some (cli, c) ∧
      cli.running = false ∧
      cli.err = some ("unexpected result type " ++ (Response.value req.kind body).typeName ++
        " when response to " ++ "*types.Request_" ++ req.kind.name ++ " expected") ∧
      cli.reqres.lookup 0 = some { NewReqRes req with waiting := false } := by
  have hm := resMatchesReq_snapshot hsnap (.value req.kind body)
  -- the request is queued, sent and answered
  have hsent : run answer (NewSocketClient, ⟨[], []⟩) [.call req, .send, .serve] =
      some ({ NewSocketClient with reqSent := [(0, req)], nextID := 1,
                                   reqres := (∅ : Map Nat ReqRes).insert 0 (NewReqRes req),
                                   flushTimerSet := req.kind != .Flush },
            ⟨[], [answer req]⟩) := rfl
  -- the answer does not match the request
  have hdid : socketClient.didRecvResponse
      { NewSocketClient with reqSent := [(0, req)], nextID := 1,
                             reqres := (∅ : Map Nat ReqRes).insert 0 (NewReqRes req),
                             flushTimerSet := req.kind != .Flush } (.value req.kind body) =
      .error ("unexpected result type " ++ (Response.value req.kind body).typeName ++
        " when response to " ++ "*types.Request_" ++ req.kind.name ++ " expected") := by
    simp [socketClient.didRecvResponse, hm]
  have hrun : run answer (NewSocketClient, ⟨[], []⟩) [.call req, .send, .serve, .recv] =
      some (socketClient.StopForError
        { NewSocketClient with reqSent := [(0, req)], nextID := 1,
                               reqres := (∅ : Map Nat ReqRes).insert 0 (NewReqRes req),
                               flushTimerSet := req.kind != .Flush }
        ("unexpected result type " ++ (Response.value req.kind body).typeName ++
          " when response to " ++ "*types.Request_" ++ req.kind.name ++ " expected"), ⟨[], []⟩) := by
    rw [show [Event.call req, .send, .serve, .recv] = [.call req, .send, .serve] ++ [.recv] from rfl,
      run_append, hsent, Option.bind_some]
    simp only [run, step, hans, NewSocketClient]
    simp only [NewSocketClient] at hdid
    simp only [hdid, Option.bind_some]
  refine ⟨_, _, hrun, rfl, rfl, ?_⟩
  simp [socketClient.StopForError, NewSocketClient, socketClient.flushQueue, socketClient.Done,
    socketClient.lookup_updateReqRes, NewReqRes, -AList.insert_empty]


theorem snapshot_request_stops_client_listSnapshots :
    ∃ cli c, run (fun r => .value r.kind []) (NewSocketClient, ⟨[], []⟩)
        [.call ⟨.ListSnapshots, []⟩, .send, .serve, .recv] = some (cli, c) ∧
      cli.running = false ∧
      cli.err = some ("unexpected result type " ++ (Response.value .ListSnapshots []).typeName ++
        " when response to " ++ "*types.Request_" ++ Kind.ListSnapshots.name ++ " expected") ∧
      cli.reqres.lookup 0 = some { NewReqRes ⟨.ListSnapshots, []⟩ with waiting := false } :=
  snapshot_request_stops_client (fun r => .value r.kind []) ⟨.ListSnapshots, []⟩ rfl [] rfl

/-! ## Against an application that answers in kind -/

/-- What holds while the application answers each request with a response of its kind: the
client runs without an error; the requests sent are those answered, whose responses are on the
way back in order, followed by those the application has not read; every request sent or queued
is of a kind `resMatchesReq` knows, and its `ReqRes` holds it; and every response a `ReqRes` got
is the application's answer to its own request. -/
structure Paired (answer : Request → Response) (s : socketClient × conn) : Prop where
  running : s.1.running = true
  noErr : s.1.err = none
  window : ∃ answered inflight, s.1.reqSent = answered ++ inflight ∧
    s.2.toServer = inflight.map (·.2) ∧ s.2.toClient = answered.map fun e => answer e.2
  known : ∀ e ∈ s.1.reqSent ++ s.1.reqQueue,
    e.2.kind.snapshot = false ∧ ∃ rr, s.1.reqres.lookup e.1 = some rr ∧ rr.Request = e.2
  fresh : ∀ id ∈ s.1.reqres, id < s.1.nextID
  own : ∀ id rr r, s.1.reqres.lookup id = some rr → rr.Response = some r → r = answer rr.Request

section Paired

variable {answer : Request → Response} {cli cli' : socketClient} {c : conn}

lemma Paired.init : Paired answer (NewSocketClient, ⟨[], []⟩) :=
  ⟨rfl, rfl, ⟨[], [], rfl, rfl, rfl⟩, by simp [NewSocketClient], by simp [NewSocketClient],
    by simp [NewSocketClient]⟩

/-- A new request of a known kind is queued under a fresh number. -/
lemma Paired.queueRequest (h : Paired answer (cli, c)) {req : Request} {id : Nat}
    (hk : req.kind.snapshot = false) (hq : cli.queueRequest req = some (id, cli')) :
    Paired answer (cli', c) := by
  unfold socketClient.queueRequest at hq
  split_ifs at hq
  cases hq
  -- the old numbers are below `nextID`, so the new entry leaves their lookups alone
  have hold : ∀ e ∈ cli.reqSent ++ cli.reqQueue, e.1 ≠ cli.nextID := by
    intro e he hid
    obtain ⟨-, rr, hrr, -⟩ := h.known e he
    have hlt : e.1 < cli.nextID := h.fresh e.1 (AList.lookup_isSome.mp (by rw [hrr]; rfl))
    omega
  refine ⟨h.running, h.noErr, h.window, fun e he => ?_, fun k hk' => ?_, fun k rr r hrr hr => ?_⟩
  · simp only [List.mem_append, List.mem_singleton] at he
    rcases he with he | he | rfl
    · obtain ⟨hs, rr, hrr, hreq⟩ := h.known e (List.mem_append_left _ he)
      exact ⟨hs, rr, by rw [lookup_insert_ite, if_neg (hold e (List.mem_append_left _ he)), hrr],
        hreq⟩
    · obtain ⟨hs, rr, hrr, hreq⟩ := h.known e (List.mem_append_right _ he)
      exact ⟨hs, rr, by rw [lookup_insert_ite, if_neg (hold e (List.mem_append_right _ he)), hrr],
        hreq⟩
    · exact ⟨hk, _, AList.lookup_insert _, rfl⟩
  · rcases (AList.mem_insert _).mp hk' with rfl | hk'
    · exact Nat.lt_succ_self _
    · exact Nat.lt_succ_of_lt (h.fresh k hk')
  · rw [lookup_insert_ite] at hrr
    split_ifs at hrr
    · cases hrr
      cases hr
    · exact h.own k rr r hrr hr

/-- A change of one `ReqRes` that keeps its request, and gives it no response but the
application's answer to it. -/
lemma Paired.updateReqRes (h : Paired answer (cli, c)) (id : Nat) {f : ReqRes → ReqRes}
    (hf : ∀ rr, (f rr).Request = rr.Request)
    (hres : ∀ rr r, cli.reqres.lookup id = some rr → (f rr).Response = some r →
      r = answer rr.Request) :
    Paired answer (cli.updateReqRes id f, c) := by
  refine ⟨by simpa using h.running, by simpa using h.noErr, by simpa using h.window,
    fun e he => ?_, fun k hk => ?_, fun k rr' r hk hr => ?_⟩
  · obtain ⟨hs, rr, hrr, hreq⟩ := h.known e (by simpa using he)
    refine ⟨hs, ?_⟩
    rw [socketClient.lookup_updateReqRes]
    split_ifs with hei
    · subst hei
      exact ⟨f rr, by rw [hrr]; rfl, (hf rr).trans hreq⟩
    · exact ⟨rr, hrr, hreq⟩
  · have hmem : k ∈ cli.reqres := by
      rw [← AList.lookup_isSome, ← socketClient.lookup_updateReqRes_isSome]
      exact AList.lookup_isSome.mpr hk
    have := h.fresh k hmem
    unfold socketClient.updateReqRes
    split <;> exact this
  · rw [socketClient.lookup_updateReqRes] at hk
    split_ifs at hk with hki
    · subst hki
      obtain ⟨rr, hrr, rfl⟩ := Option.map_eq_some_iff.mp hk
      rw [hf rr]
      exact hres rr r hrr hr
    · exact h.own k rr' r hk hr

/-- The queue's head is sent: it goes to the end of `reqSent`, and onto the connection. -/
lemma Paired.send (h : Paired answer (cli, c)) {e : Nat × Request} {rest : List (Nat × Request)}
    (hq : cli.reqQueue = e :: rest) :
    Paired answer ({ cli with reqQueue := rest, reqSent := cli.reqSent ++ [e] },
      { c with toServer := c.toServer ++ [e.2] }) := by
  obtain ⟨answered, inflight, hsent, hserver, hclient⟩ := h.window
  dsimp only at hsent hserver hclient
  refine ⟨h.running, h.noErr, ⟨answered, inflight ++ [e], by simp [hsent], by simp [hserver],
    hclient⟩, fun e' he' => h.known e' ?_, h.fresh, h.own⟩
  -- the same requests: one of them moved from the queue to the end of `reqSent`
  simp only [List.mem_append, List.mem_singleton] at he'
  simp only [hq, List.mem_append, List.mem_cons]
  tauto

/-- The application reads the oldest request it has not answered, and answers it. -/
lemma Paired.serve (h : Paired answer (cli, c)) {req : Request} {rest : List Request}
    (hs : c.toServer = req :: rest) :
    Paired answer (cli, ⟨rest, c.toClient ++ [answer req]⟩) := by
  obtain ⟨answered, inflight, hsent, hserver, hclient⟩ := h.window
  dsimp only at hsent hserver hclient
  cases inflight with
  | nil => simp [hserver] at hs
  | cons e inflight' =>
    simp only [hserver, List.map_cons, List.cons.injEq] at hs
    obtain ⟨rfl, rfl⟩ := hs
    exact ⟨h.running, h.noErr, ⟨answered ++ [e], inflight', by simp [hsent], rfl,
      by simp [hclient]⟩, h.known, h.fresh, h.own⟩

/-- The oldest answer is read: it is the answer to the oldest request sent, which takes it. -/
lemma Paired.recv
    (hmatch : ∀ r : Request, r.kind.snapshot = false → ∃ body, answer r = .value r.kind body)
    (h : Paired answer (cli, c)) {s' : socketClient × conn}
    (hs : step answer (cli, c) .recv = some s') : Paired answer s' := by
  obtain ⟨answered, inflight, hsent, hserver, hclient⟩ := h.window
  dsimp only at hsent hserver hclient
  cases answered with
  | nil =>
    -- nothing on the way back: the routine waits
    simp [step, hclient] at hs
  | cons e answered' =>
    obtain ⟨hk, rr, hrr, hreq⟩ := h.known e (by simp [hsent])
    obtain ⟨body, hbody⟩ := hmatch e.2 hk
    -- the response matches, and `didRecvResponse` hands it to `e`
    let g : ReqRes → ReqRes := fun rr =>
      { rr with Response := some (.value e.2.kind body), waiting := false,
                cbRuns := if rr.cb then rr.cbRuns + 1 else rr.cbRuns }
    have hdid : cli.didRecvResponse (.value e.2.kind body) =
        .ok { cli.updateReqRes e.1 g with reqSent := answered' ++ inflight,
                                          resCbRuns := (cli.updateReqRes e.1 g).resCbRuns ++ [e.1] } := by
      simp only [socketClient.didRecvResponse, hsent, List.cons_append,
        resMatchesReq_self hk body, Bool.not_true, Bool.false_eq_true, if_false]
      rfl
    have hrunning : cli.running = true := h.running
    simp only [step, hrunning, hclient, List.map_cons, hbody, hdid, Option.some.injEq] at hs
    subst hs
    have hu : Paired answer (cli.updateReqRes e.1 g, c) :=
      h.updateReqRes e.1 (fun _ => rfl) fun rr' r hrr' hr => by
        rw [hrr] at hrr'
        cases hrr'
        cases hr
        rw [hreq, hbody]
    refine ⟨hu.running, hu.noErr, ⟨answered', inflight, rfl, hserver, rfl⟩, fun e' he' => ?_,
      hu.fresh, hu.own⟩
    -- `e` left `reqSent`; the other requests are where they were
    refine hu.known e' ?_
    simp only [List.mem_append, socketClient.updateReqRes_reqSent,
      socketClient.updateReqRes_reqQueue, hsent, List.cons_append, List.mem_cons] at he' ⊢
    tauto

/-- The flush timer is no part of the pairing. -/
lemma Paired.flushTimer (h : Paired answer (cli, c)) (b : Bool) :
    Paired answer ({ cli with flushTimerSet := b }, c) :=
  ⟨h.running, h.noErr, h.window, h.known, h.fresh, h.own⟩

/-- A callback set on a `ReqRes` changes neither its request nor its response. -/
lemma Paired.SetCallback (h : Paired answer (cli, c)) (id : Nat) :
    Paired answer (cli.SetCallback id, c) := by
  have hkeep : ∀ rr : ReqRes, (if rr.done then { rr with cbRuns := rr.cbRuns + 1 }
      else { rr with cb := true }).Request = rr.Request ∧
      (if rr.done then { rr with cbRuns := rr.cbRuns + 1 }
      else { rr with cb := true }).Response = rr.Response := by
    intro rr
    split <;> exact ⟨rfl, rfl⟩
  refine h.updateReqRes id (fun rr => (hkeep rr).1) fun rr r hrr hr => ?_
  rw [(hkeep rr).2] at hr
  exact h.own id rr r hrr hr

/-- A tick of the flush timer queues a flush request, unless the queue is full. -/
lemma Paired.tick (h : Paired answer (cli, c)) {s' : socketClient × conn}
    (hs : step answer (cli, c) .tick = some s') : Paired answer s' := by
  simp only [step] at hs
  split_ifs at hs
  have h₁ := h.flushTimer false
  split at hs
  · next id cli' hq =>
    cases hs
    exact (h₁.queueRequest rfl hq).flushTimer false
  · cases hs
    exact h₁

/-- An event that asks for no snapshot. -/
def Event.plain : Event → Bool
  | .call req => !req.kind.snapshot
  | _ => true

/-- Every step of a plain event keeps the pairing. -/
lemma Paired.step
    (hmatch : ∀ r : Request, r.kind.snapshot = false → ∃ body, answer r = .value r.kind body)
    {s s' : socketClient × conn} (h : Paired answer s) {ev : Event} (hev : ev.plain = true)
    (hs : step answer s ev = some s') : Paired answer s' := by
  obtain ⟨cli, c⟩ := s
  cases ev with
  | call req =>
    simp only [Abci.step, Option.map_eq_some_iff] at hs
    obtain ⟨⟨id, cli'⟩, hq, rfl⟩ := hs
    exact h.queueRequest (by simpa [Event.plain] using hev) hq
  | setCallback id =>
    cases hs
    exact h.SetCallback id
  | tick => exact h.tick hs
  | send =>
    simp only [Abci.step] at hs
    split at hs
    · next id req rest _ hq =>
      cases hs
      exact h.send hq
    · cases hs
  | serve =>
    simp only [Abci.step] at hs
    split at hs
    · next req rest hsrv =>
      cases hs
      exact h.serve hsrv
    · cases hs
  | recv => exact Paired.recv hmatch h hs

/-- A run of plain events keeps the pairing. -/
lemma Paired.run
    (hmatch : ∀ r : Request, r.kind.snapshot = false → ∃ body, answer r = .value r.kind body) :
    ∀ (evs : List Event) {s s' : socketClient × conn}, Paired answer s →
      (∀ ev ∈ evs, ev.plain = true) → run answer s evs = some s' → Paired answer s'
  | [], _, _, h, _, hr => by
    cases hr
    exact h
  | ev :: evs, s, s', h, hev, hr => by
    simp only [Tendermint.Abci.run, Option.bind_eq_some_iff] at hr
    obtain ⟨s₁, h₁, hr⟩ := hr
    exact Paired.run hmatch evs (h.step hmatch (hev ev (by simp)) h₁)
      (fun ev' h' => hev ev' (List.mem_cons_of_mem ev h')) hr

/-- Against an application that answers each request with a response of its kind, a run of
calls that ask for no snapshot, with the flush timer's ticks and the routines' steps in any
order, leaves the client running without an error, and every `ReqRes` that has a response has
the application's answer to its own request. -/
theorem run_pairs (answer : Request → Response)
    (hmatch : ∀ r : Request, r.kind.snapshot = false → ∃ body, answer r = .value r.kind body)
    (evs : List Event) (hev : ∀ ev ∈ evs, ev.plain = true) {s' : socketClient × conn}
    (hr : run answer (NewSocketClient, ⟨[], []⟩) evs = some s') :
    s'.1.running = true ∧ s'.1.err = none ∧
      ∀ id rr r, s'.1.reqres.lookup id = some rr → rr.Response = some r → r = answer rr.Request := by
  have h := Paired.run hmatch evs Paired.init hev hr
  exact ⟨h.running, h.noErr, h.own⟩

/-- An application that echoes each request's body in a response of its kind. -/
def echoAnswer (r : Request) : Response := .value r.kind r.body

/-- An `Echo` and a `CheckTx` call, each sent, served and read, then a tick of the flush timer
and its `Flush`, sent, served and read. -/
def echoEvents : List Event :=
  [.call ⟨.Echo, [7]⟩, .call ⟨.CheckTx, [1]⟩, .send, .send, .serve, .recv, .serve, .recv, .tick,
    .send, .serve, .recv]

theorem run_pairs_echo :
    (∀ r : Request, r.kind.snapshot = false → ∃ body, echoAnswer r = .value r.kind body) ∧
    (∀ ev ∈ echoEvents, ev.plain = true) ∧
    ∃ s', run echoAnswer (NewSocketClient, ⟨[], []⟩) echoEvents = some s' ∧
      (s'.1.running = true ∧ s'.1.err = none ∧
        ∀ id rr r, s'.1.reqres.lookup id = some rr → rr.Response = some r →
          r = echoAnswer rr.Request) ∧
      (s'.1.reqres.lookup 1).bind ReqRes.Response = some (.value .CheckTx [1]) ∧
      (s'.1.reqres.lookup 2).bind ReqRes.Response = some (.value .Flush []) := by
  have hmatch : ∀ r : Request, r.kind.snapshot = false → ∃ body, echoAnswer r = .value r.kind body :=
    fun r _ => ⟨r.body, rfl⟩
  have hev : ∀ ev ∈ echoEvents, ev.plain = true := by decide
  obtain ⟨s', hr⟩ : ∃ s', run echoAnswer (NewSocketClient, ⟨[], []⟩) echoEvents = some s' :=
    ⟨_, rfl⟩
  refine ⟨hmatch, hev, s', hr, run_pairs echoAnswer hmatch echoEvents hev hr, ?_⟩
  cases hr
  exact ⟨rfl, rfl⟩

end Paired

end Tendermint.Abci
