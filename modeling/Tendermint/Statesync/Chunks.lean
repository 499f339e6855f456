import Tendermint.Lib.Except
import Tendermint.Statesync.Snapshots

/-!
# The chunk queue of a state sync

`chunkQueue` (statesync/chunks.go) holds the chunks of the snapshot being restored.  Fetchers
`Allocate` indexes and `Add` what peers send; the restore loop takes the chunks in order with
`Next` and asks for some again with `Discard`, `DiscardSender`, `Retry` and `RetryAll`.  Chunks
are kept in files of a temporary directory, and a `Next` that finds its chunk missing waits on
a channel that `WaitFor` registers and `Add` fills.

Every method but `Next` runs under the queue's mutex, so each is one step of `step`.  `Next`
releases the mutex while it waits, so it is four steps of its caller, between which any other
step may run: `nextLock` (`nextUp`, then `load`), `nextWaitFor`, the receive `nextRecv` (or
`nextTimeout`), and `nextRelock` (the second `load`).

What the model shows:
* `Allocate` hands out only free indexes, and on an open queue it answers `errDone` only when
  every index is out (`run_allocInv`, `Allocate_ok`, `Allocate_done`);
* the first locked part of `Next` marks its index returned also when it has no chunk to give,
  and a `Discard` that runs after the chunk arrived and before `Next` locks again makes `Next`
  return neither a chunk nor an error (`Next_discard_race`).
-/

namespace Tendermint.Statesync

open GoMap

/-- `errDone`: `Next` and `Allocate` once nothing is left, or the queue is closed. -/
def errDone : String := "chunk queue has completed"

/-- `errTimeout`, of the syncer: `Next` when its chunk did not come in time. -/
def errTimeout : String := "timed out waiting for chunk"

/-- A chunk of a snapshot; `Chunk` is `none` for a nil slice. -/
structure chunk where
  Height : Nat
  Format : Nat
  Index : Nat
  Chunk : Option Bytes
  Sender : PeerID
  deriving DecidableEq, Repr

/-- `chunkQueue`.  The waiter channels are named by number; their contents are in `chunkEnv`. -/
structure chunkQueue where
  /-- `nil` once the queue is closed -/
  snapshot : Option snapshot
  dir : String
  chunkFiles : Map Nat String
  chunkSenders : Map Nat PeerID
  chunkAllocated : Map Nat Bool
  chunkReturned : Map Nat Bool
  waiters : Map Nat (List Nat)

/-- A waiter channel, made by `make(chan uint32, 1)`. -/
structure waitChan where
  buf : List Nat
  closed : Bool
  deriving DecidableEq, Repr

/-- What the queue's methods touch beside the queue: the files and the channels. -/
structure chunkEnv where
  files : Map String Bytes
  chans : Map Nat waitChan
  nextChan : Nat

/-- `newChunkQueue`, in the directory that `ioutil.TempDir` made. -/
def newChunkQueue (snapshot : snapshot) (dir : String) : Go chunkQueue :=
  if snapshot.Chunks = 0 then .error (.err "snapshot has no chunks")
  else .ok { snapshot := some snapshot, dir, chunkFiles := ∅, chunkSenders := ∅,
             chunkAllocated := ∅, chunkReturned := ∅, waiters := ∅ }

/-- `filepath.Join(q.dir, strconv.FormatUint(uint64(index), 10))`. -/
def chunkPath (dir : String) (index : Nat) : String := dir ++ "/" ++ toString index

lemma chunkPath_ne_empty (dir : String) (index : Nat) : chunkPath dir index ≠ "" := by
  intro h
  have hlen := congrArg String.length h
  simp [chunkPath] at hlen

namespace chunkEnv

/-- `ioutil.WriteFile`, which the model lets succeed. -/
def writeFile (e : chunkEnv) (path : String) (body : Bytes) : chunkEnv :=
  { e with files := e.files.insert path body }

/-- `ioutil.ReadFile`. -/
def readFile (e : chunkEnv) (path : String) : Except String Bytes :=
  match e.files.lookup path with
  | some body => .ok body
  | none => .error ("open " ++ path ++ ": no such file or directory")

/-- `os.Remove`. -/
def remove (e : chunkEnv) (path : String) : Except String chunkEnv :=
  if path ∈ e.files then .ok { e with files := e.files.erase path }
  else .error ("remove " ++ path ++ ": no such file or directory")

/-- `os.RemoveAll(dir)`: every file under the directory. -/
def removeAll (e : chunkEnv) (dir : String) : chunkEnv :=
  { e with files := filterKeys e.files fun path => !(dir ++ "/").isPrefixOf path }

/-- `make(chan uint32, 1)`: a fresh channel. -/
def makeChan (e : chunkEnv) : Nat × chunkEnv :=
  (e.nextChan, { e with chans := e.chans.insert e.nextChan ⟨[], false⟩,
                        nextChan := e.nextChan + 1 })

def updateChan (e : chunkEnv) (ch : Nat) (f : waitChan → waitChan) : chunkEnv :=
  match e.chans.lookup ch with
  | some c => { e with chans := e.chans.insert ch (f c) }
  | none => e

/-- `ch <- v`.  A waiter channel is sent to once, before it is closed, so its buffer of one
never makes the sender block. -/
def send (e : chunkEnv) (ch v : Nat) : chunkEnv :=
  e.updateChan ch fun c => { c with buf := c.buf ++ [v] }

/-- `close(ch)`. -/
def close (e : chunkEnv) (ch : Nat) : chunkEnv :=
  e.updateChan ch fun c => { c with closed := true }

/-- `v, ok := <-ch`: the buffered value, or `none` (not ok) once the channel is closed and
empty; `none` outside when the receiver blocks. -/
def recv (e : chunkEnv) (ch : Nat) : Option (Option Nat × chunkEnv) :=
  match e.chans.lookup ch with
  | some ⟨v :: rest, closed⟩ =>
    some (some v, { e with chans := e.chans.insert ch ⟨rest, closed⟩ })
  | some ⟨[], true⟩ => some (none, e)
  | _ => none

end chunkEnv

namespace chunkQueue

/-- The first index below `n` that `p` picks: the loops of `Allocate` and `nextUp`. -/
def firstBelow (n : Nat) (p : Nat → Bool) : Option Nat := (List.range n).find? p

/-- `Add`: a new chunk is written to its file and handed to the index's waiters. -/
def Add (q : chunkQueue) (e : chunkEnv) (chunk : Option chunk) :
    Go (Bool × chunkQueue × chunkEnv) :=
  match chunk with
  | none => .error (.err "cannot add nil chunk")
  | some chunk =>
    match chunk.Chunk with
    | none => .error (.err "cannot add nil chunk")
    | some body =>
      match q.snapshot with
      | none => .ok (false, q, e)
      | some s =>
        if chunk.Height ≠ s.Height then
          .error (.err ("invalid chunk height " ++ toString chunk.Height ++ ", expected " ++
            toString s.Height))
        else if chunk.Format ≠ s.Format then
          .error (.err ("invalid chunk format " ++ toString chunk.Format ++ ", expected " ++
            toString s.Format))
        else if chunk.Index ≥ s.Chunks then
          .error (.err ("received unexpected chunk " ++ toString chunk.Index))
        else if (q.chunkFiles.lookup chunk.Index).getD "" ≠ "" then .ok (false, q, e)
        else
          let path := chunkPath q.dir chunk.Index
          let e := e.writeFile path body
          let q := { q with chunkFiles := q.chunkFiles.insert chunk.Index path,
                            chunkSenders := q.chunkSenders.insert chunk.Index chunk.Sender }
          let e := ((q.waiters.lookup chunk.Index).getD []).foldl
            (fun e waiter => (e.send waiter chunk.Index).close waiter) e
          .ok (true, { q with waiters := q.waiters.erase chunk.Index }, e)

/-- `Allocate`: the first index not allocated yet. -/
def Allocate (q : chunkQueue) : Go (Nat × chunkQueue) :=
  match q.snapshot with
  | none => .error (.err errDone)
  | some s =>
    -- the count of the map is compared, not the indexes in it
    if q.chunkAllocated.entries.length ≥ s.Chunks then .error (.err errDone)
    else
      match firstBelow s.Chunks fun i => !(q.chunkAllocated.lookup i).getD false with
      | some i => .ok (i, { q with chunkAllocated := q.chunkAllocated.insert i true })
      | none => .error (.err errDone)

/-- `Close`: the waiters' channels are closed and the directory removed. -/
def Close (q : chunkQueue) (e : chunkEnv) : chunkQueue × chunkEnv :=
  match q.snapshot with
  | none => (q, e)
  | some _ =>
    let e := q.waiters.entries.foldl (fun e ws => ws.2.foldl chunkEnv.close e) e
    ({ q with waiters := ∅, snapshot := none }, e.removeAll q.dir)

/-- `discard`: the chunk's file goes, and the index is neither returned nor allocated. -/
def discard (q : chunkQueue) (e : chunkEnv) (index : Nat) : Go (chunkQueue × chunkEnv) :=
  match q.snapshot with
  | none => .ok (q, e)
  | some _ =>
    let path := (q.chunkFiles.lookup index).getD ""
    if path = "" then .ok (q, e)
    else
      match e.remove path with
      | .error err => .error (.err ("failed to remove chunk " ++ toString index ++ ": " ++ err))
      | .ok e => .ok ({ q with chunkFiles := q.chunkFiles.erase index,
                               chunkReturned := q.chunkReturned.erase index,
                               chunkAllocated := q.chunkAllocated.erase index }, e)

/-- `Discard` takes the mutex and calls `discard`. -/
def Discard (q : chunkQueue) (e : chunkEnv) (index : Nat) : Go (chunkQueue × chunkEnv) :=
  q.discard e index

/-- `DiscardSender`: the sender's chunks that were not returned are discarded. -/
def DiscardSender (q : chunkQueue) (e : chunkEnv) (peerID : PeerID) : Go (chunkQueue × chunkEnv) :=
  q.chunkSenders.entries.foldlM (fun (qe : chunkQueue × chunkEnv) entry =>
    let (q, e) := qe
    if entry.2 = peerID ∧ !(q.chunkReturned.lookup entry.1).getD false then do
      let (q, e) ← q.discard e entry.1
      pure ({ q with chunkSenders := q.chunkSenders.erase entry.1 }, e)
    else pure (q, e)) (q, e)

/-- `load`: the chunk from its file, or nothing when the index has no file. -/
def load (q : chunkQueue) (e : chunkEnv) (index : Nat) : Go (Option chunk) :=
  match q.chunkFiles.lookup index with
  | none => .ok none
  | some path =>
    match e.readFile path with
    | .error err => .error (.err ("failed to load chunk " ++ toString index ++ ": " ++ err))
    | .ok body =>
      match q.snapshot with
      | none => .error (.panic nilDereference)
      | some s => .ok (some { Height := s.Height, Format := s.Format, Index := index,
                              Chunk := some body,
                              Sender := (q.chunkSenders.lookup index).getD "" })

/-- `load`, and the index marked returned unless `load` failed: both locked parts of `Next`
do this. -/
def loadReturned (q : chunkQueue) (e : chunkEnv) (index : Nat) : Go (Option chunk) × chunkQueue :=
  match q.load e index with
  | .error err => (.error err, q)
  | .ok c => (.ok c, { q with chunkReturned := q.chunkReturned.insert index true })

/-- `nextUp`: the first index not returned. -/
def nextUp (q : chunkQueue) : Go Nat :=
  match q.snapshot with
  | none => .error (.err errDone)
  | some s =>
    match firstBelow s.Chunks fun i => !(q.chunkReturned.lookup i).getD false with
    | some i => .ok i
    | none => .error (.err errDone)

/-- The first locked part of `Next`: its index, and what `Next` returns unless that is
`(nil, nil)`, after which it waits for the index. -/
def nextLocked (q : chunkQueue) (e : chunkEnv) : Nat × Go (Option chunk) × chunkQueue :=
  match q.nextUp with
  | .error err => (0, .error err, q)
  | .ok index =>
    let (r, q) := q.loadReturned e index
    (index, r, q)

def Retry (q : chunkQueue) (index : Nat) : chunkQueue :=
  { q with chunkReturned := q.chunkReturned.erase index }

def RetryAll (q : chunkQueue) : chunkQueue := { q with chunkReturned := ∅ }

/-- `WaitFor`: a channel that gets the index when its chunk is there; closed without a value
on a closed queue or an index out of range. -/
def WaitFor (q : chunkQueue) (e : chunkEnv) (index : Nat) : Nat × chunkQueue × chunkEnv :=
  let (ch, e) := e.makeChan
  match q.snapshot with
  | none => (ch, q, e.close ch)
  | some s =>
    if index ≥ s.Chunks then (ch, q, e.close ch)
    else if (q.chunkFiles.lookup index).getD "" ≠ "" then (ch, q, (e.send ch index).close ch)
    else
      let waiters := q.waiters.insert index ((q.waiters.lookup index).getD [] ++ [ch])
      (ch, { q with waiters }, e)

end chunkQueue

/-! ## Callers of `Next`, and the interleaving of the queue's methods -/

/-- Where a caller of `Next` is. -/
inductive nextPhase where
  /-- not in `Next` -/
  | idle
  /-- the first locked part found no chunk for `index` and released the mutex -/
  | unlocked (index : Nat)
  /-- in the select, on the channel `ch` of `WaitFor(index)` -/
  | waiting (index ch : Nat)
  /-- woken by a value on the channel, before it locks again -/
  | woken (index : Nat)
  /-- `Next` returned `r` -/
  | done (r : Go (Option chunk))
  deriving DecidableEq, Repr

/-- The queue, what it touches, and the callers of `Next`. -/
structure world where
  q : chunkQueue
  env : chunkEnv
  callers : Map Nat nextPhase

def world.phase (w : world) (caller : Nat) : nextPhase := (w.callers.lookup caller).getD .idle

/-- A call of a method, or a step of a caller of `Next`. -/
inductive Event where
  | add (c : Option chunk)
  | allocate
  | discard (index : Nat)
  | discardSender (peerID : PeerID)
  | retry (index : Nat)
  | retryAll
  | waitFor (index : Nat)
  | close
  | nextLock (caller : Nat)
  | nextWaitFor (caller : Nat)
  | nextRecv (caller : Nat)
  | nextTimeout (caller : Nat)
  | nextRelock (caller : Nat)

namespace world

/-- A method's result: a failed call leaves the queue and its files as they were. -/
def apply {α : Type} (w : world) (f : α → chunkQueue × chunkEnv) (r : Go α) : world :=
  match r with
  | .ok a => { w with q := (f a).1, env := (f a).2 }
  | .error _ => w

def setPhase (w : world) (caller : Nat) (ph : nextPhase) : world :=
  { w with callers := w.callers.insert caller ph }

/-- One step; `none` when it cannot be taken (a caller in another phase, or a blocked
receive). -/
def step (w : world) : Event → Option world
  | .add c => some (w.apply (·.2) (w.q.Add w.env c))
  | .allocate => some (w.apply (fun r => (r.2, w.env)) w.q.Allocate)
  | .discard index => some (w.apply id (w.q.Discard w.env index))
  | .discardSender peerID => some (w.apply id (w.q.DiscardSender w.env peerID))
  | .retry index => some { w with q := w.q.Retry index }
  | .retryAll => some { w with q := w.q.RetryAll }
  | .waitFor index =>
    let (_, q, e) := w.q.WaitFor w.env index
    some { w with q, env := e }
  | .close =>
    let (q, e) := w.q.Close w.env
    some { w with q, env := e }
  | .nextLock caller =>
    match w.phase caller with
    | .idle | .done _ =>
      let (index, r, q) := w.q.nextLocked w.env
      match r with
      | .ok none => some ({ w with q }.setPhase caller (.unlocked index))
      | r => some ({ w with q }.setPhase caller (.done r))
    | _ => none
  | .nextWaitFor caller =>
    match w.phase caller with
    | .unlocked index =>
      let (ch, q, e) := w.q.WaitFor w.env index
      some ({ w with q, env := e }.setPhase caller (.waiting index ch))
    | _ => none
  | .nextRecv caller =>
    match w.phase caller with
    | .waiting index ch =>
      match w.env.recv ch with
      | some (some _, e) => some ({ w with env := e }.setPhase caller (.woken index))
      -- a closed channel: the queue was closed
      | some (none, e) => some ({ w with env := e }.setPhase caller (.done (.error (.err errDone))))
      | none => none
    | _ => none
  | .nextTimeout caller =>
    match w.phase caller with
    | .waiting _ _ => some (w.setPhase caller (.done (.error (.err errTimeout))))
    | _ => none
  | .nextRelock caller =>
    match w.phase caller with
    | .woken index =>
      let (r, q) := w.q.loadReturned w.env index
      some ({ w with q }.setPhase caller (.done r))
    | _ => none

def run (w : world) : List Event → Option world
  | [] => some w
  | ev :: evs => (w.step ev).bind fun w => run w evs

end world

/-! ## The channels and files a step leaves -/

namespace chunkEnv

variable {e : chunkEnv} {ch ch' : Nat} {f : waitChan → waitChan}

@[simp] lemma updateChan_files : (e.updateChan ch f).files = e.files := by
  unfold updateChan
  split <;> rfl

lemma lookup_updateChan :
    (e.updateChan ch f).chans.lookup ch' =
      if ch' = ch then (e.chans.lookup ch).map f else e.chans.lookup ch' := by
  unfold updateChan
  split
  · next c hc =>
    rw [lookup_insert_ite]
    split_ifs with h
    · subst h; rw [hc]; rfl
    · rfl
  · next hc =>
    split_ifs with h
    · subst h; rw [hc]; rfl
    · rfl

/-- `Add`'s loop over the waiters: each gets the index, and its channel is closed. -/
def notify (e : chunkEnv) (ws : List Nat) (index : Nat) : chunkEnv :=
  ws.foldl (fun e waiter => (e.send waiter index).close waiter) e

@[simp] lemma notify_files (ws : List Nat) (index : Nat) : ∀ e : chunkEnv,
    (e.notify ws index).files = e.files := by
  induction ws with
  | nil => intro e; rfl
  | cons w ws ih =>
    intro e
    rw [notify, List.foldl_cons, ← notify, ih]
    simp [send, close]

/-- A notified channel holds a value, and one that held a value still does. -/
lemma notify_buf (index : Nat) : ∀ (ws : List Nat) (e : chunkEnv) {c : waitChan},
    e.chans.lookup ch = some c → (c.buf ≠ [] ∨ ch ∈ ws) →
    ∃ c', (e.notify ws index).chans.lookup ch = some c' ∧ c'.buf ≠ []
  | [], e, c, hc, hbuf => ⟨c, hc, by simpa using hbuf⟩
  | w :: ws, e, c, hc, hbuf => by
    rw [notify, List.foldl_cons, ← notify]
    by_cases hw : ch = w
    · -- the channel is this waiter: it gets the index
      subst hw
      have hc' : ((e.send ch index).close ch).chans.lookup ch =
          some { c with buf := c.buf ++ [index], closed := true } := by
        simp [send, close, lookup_updateChan, hc]
      exact notify_buf index ws _ hc' (.inl (by simp))
    · refine notify_buf index ws _ ?_ (hbuf.imp_right ?_)
      · simp [send, close, lookup_updateChan, hw, hc]
      · intro h
        simpa [hw] using h

end chunkEnv

namespace chunkQueue

variable {q : chunkQueue} {e : chunkEnv}

lemma Add_eq_notify (chunk : Option chunk) : q.Add e chunk =
    match chunk with
    | none => .error (.err "cannot add nil chunk")
    | some chunk =>
      match chunk.Chunk with
      | none => .error (.err "cannot add nil chunk")
      | some body =>
        match q.snapshot with
        | none => .ok (false, q, e)
        | some s =>
          if chunk.Height ≠ s.Height then
            .error (.err ("invalid chunk height " ++ toString chunk.Height ++ ", expected " ++
              toString s.Height))
          else if chunk.Format ≠ s.Format then
            .error (.err ("invalid chunk format " ++ toString chunk.Format ++ ", expected " ++
              toString s.Format))
          else if chunk.Index ≥ s.Chunks then
            .error (.err ("received unexpected chunk " ++ toString chunk.Index))
          else if (q.chunkFiles.lookup chunk.Index).getD "" ≠ "" then .ok (false, q, e)
          else
            .ok (true, { q with chunkFiles := q.chunkFiles.insert chunk.Index
                                  (chunkPath q.dir chunk.Index),
                                chunkSenders := q.chunkSenders.insert chunk.Index chunk.Sender,
                                waiters := q.waiters.erase chunk.Index },
                 (e.writeFile (chunkPath q.dir chunk.Index) body).notify
                   ((q.waiters.lookup chunk.Index).getD []) chunk.Index) := rfl

/-- A chunk of the snapshot, for an index without a file, is stored and its waiters told. -/
lemma Add_of_missing {s : Statesync.snapshot} {i : Nat} (sender : PeerID) (body : Bytes)
    (hs : q.snapshot = some s) (hi : i < s.Chunks) (hf : q.chunkFiles.lookup i = none) :
    q.Add e (some ⟨s.Height, s.Format, i, some body, sender⟩) =
      .ok (true, { q with chunkFiles := q.chunkFiles.insert i (chunkPath q.dir i),
                          chunkSenders := q.chunkSenders.insert i sender,
                          waiters := q.waiters.erase i },
           (e.writeFile (chunkPath q.dir i) body).notify ((q.waiters.lookup i).getD []) i) := by
  rw [Add_eq_notify]
  simp [hs, hf, Nat.not_le.mpr hi]

lemma load_of_missing {i : Nat} (hf : q.chunkFiles.lookup i = none) : q.load e i = .ok none := by
  simp [load, hf]

lemma loadReturned_of_missing {i : Nat} (hf : q.chunkFiles.lookup i = none) :
    q.loadReturned e i = (.ok none, { q with chunkReturned := q.chunkReturned.insert i true }) := by
  simp [loadReturned, load_of_missing hf]

lemma nextUp_lt {s : Statesync.snapshot} {i : Nat} (hs : q.snapshot = some s) (h : q.nextUp = .ok i) :
    i < s.Chunks := by
  rw [nextUp, hs] at h
  dsimp only at h
  split at h
  · next j hfind =>
    cases h
    exact List.mem_range.mp (List.mem_of_find?_eq_some hfind)
  · cases h

/-- `WaitFor` on an index of the snapshot without a file: a fresh channel among its waiters. -/
lemma WaitFor_of_missing {s : Statesync.snapshot} {i : Nat} (hs : q.snapshot = some s) (hi : i < s.Chunks)
    (hf : q.chunkFiles.lookup i = none) :
    q.WaitFor e i =
      (e.nextChan,
       { q with waiters := q.waiters.insert i ((q.waiters.lookup i).getD [] ++ [e.nextChan]) },
       e.makeChan.2) := by
  simp [WaitFor, hs, hf, Nat.not_le.mpr hi, chunkEnv.makeChan]

/-- `discard` of an index whose file is there: the file goes, and so do the index's marks. -/
lemma discard_of_file {s : Statesync.snapshot} {i : Nat} {path : String} (hs : q.snapshot = some s)
    (hf : q.chunkFiles.lookup i = some path) (hp : path ≠ "") (hfile : path ∈ e.files) :
    q.discard e i = .ok ({ q with chunkFiles := q.chunkFiles.erase i,
                                  chunkReturned := q.chunkReturned.erase i,
                                  chunkAllocated := q.chunkAllocated.erase i },
                         { e with files := e.files.erase path }) := by
  simp [discard, hs, hf, hp, chunkEnv.remove, hfile]

end chunkQueue

/-! ## `Next` against `Discard` -/

namespace world

variable {w : world} {c i : Nat}

@[simp] lemma phase_setPhase (w : world) (c c' : Nat) (ph : nextPhase) :
    (w.setPhase c ph).phase c' = if c' = c then ph else w.phase c' := by
  unfold phase setPhase
  rw [lookup_insert_ite]
  split_ifs <;> rfl

@[simp] lemma setPhase_q (w : world) (c : Nat) (ph : nextPhase) : (w.setPhase c ph).q = w.q := rfl

@[simp] lemma setPhase_env (w : world) (c : Nat) (ph : nextPhase) :
    (w.setPhase c ph).env = w.env := rfl

lemma step_nextLock_of_missing (hph : w.phase c = .idle) (hup : w.q.nextUp = .ok i)
    (hf : w.q.chunkFiles.lookup i = none) :
    w.step (.nextLock c) =
      some ({ w with q := { w.q with chunkReturned := w.q.chunkReturned.insert i true } }.setPhase
        c (.unlocked i)) := by
  simp [step, hph, chunkQueue.nextLocked, hup, chunkQueue.loadReturned_of_missing hf]

lemma step_nextWaitFor {index : Nat} (hph : w.phase c = .unlocked index) :
    w.step (.nextWaitFor c) =
      let (ch, q, e) := w.q.WaitFor w.env index
      some ({ w with q, env := e }.setPhase c (.waiting index ch)) := by
  simp [step, hph]

lemma step_nextRecv_of_value {index ch v : Nat} {rest : List Nat} {closed : Bool}
    (hph : w.phase c = .waiting index ch) (hch : w.env.chans.lookup ch = some ⟨v :: rest, closed⟩) :
    w.step (.nextRecv c) =
      let e := { w.env with chans := w.env.chans.insert ch ⟨rest, closed⟩ }
      some ({ w with env := e }.setPhase c (.woken index)) := by
  simp [step, hph, chunkEnv.recv, hch]

lemma step_nextRelock {index : Nat} (hph : w.phase c = .woken index) :
    w.step (.nextRelock c) =
      let (r, q) := w.q.loadReturned w.env index
      some ({ w with q }.setPhase c (.done r)) := by
  simp [step, hph]

lemma run_append (w : world) (l₁ l₂ : List Event) :
    w.run (l₁ ++ l₂) = (w.run l₁).bind fun w => w.run l₂ := by
  induction l₁ generalizing w with
  | nil => rfl
  | cons ev l₁ ih =>
    simp only [List.cons_append, run]
    cases w.step ev with
    | none => rfl
    | some w₁ => exact ih w₁

variable {s : snapshot}

/-- The first locked part of `Next` finds no file for the index: it marks the index returned
anyway and waits on a fresh channel. -/
lemma run_nextLock_nextWaitFor (hph : w.phase c = .idle) (hs : w.q.snapshot = some s)
    (hup : w.q.nextUp = .ok i) (hf : w.q.chunkFiles.lookup i = none) :
    ∃ w', w.run [.nextLock c, .nextWaitFor c] = some w' ∧
      w'.phase c = .waiting i w.env.nextChan ∧ w'.q.snapshot = some s ∧
      w'.q.chunkFiles.lookup i = none ∧ w'.q.dir = w.q.dir ∧
      w.env.nextChan ∈ (w'.q.waiters.lookup i).getD [] ∧
      (∃ cw, w'.env.chans.lookup w.env.nextChan = some cw) := by
  have hi : i < s.Chunks := chunkQueue.nextUp_lt hs hup
  set w₁ := { w with q := { w.q with chunkReturned := w.q.chunkReturned.insert i true } }.setPhase
    c (.unlocked i) with hw₁
  have h₁ : w.step (.nextLock c) = some w₁ := step_nextLock_of_missing hph hup hf
  have hph₁ : w₁.phase c = .unlocked i := by simp [hw₁]
  have hwait : w₁.q.WaitFor w₁.env i = _ :=
    chunkQueue.WaitFor_of_missing (by simpa [hw₁] using hs) hi (by simpa [hw₁] using hf)
  have hrun : w.run [.nextLock c, .nextWaitFor c] =
      let r := w₁.q.WaitFor w₁.env i
      some ({ w₁ with q := r.2.1, env := r.2.2 }.setPhase c (.waiting i r.1)) := by
    simp only [run, h₁, Option.bind_some, step_nextWaitFor hph₁]
  refine ⟨_, hrun, ?_, ?_, ?_, ?_, ?_, ?_⟩
  all_goals
    simp only [hwait]
    simp [hw₁, chunkEnv.makeChan, hs, hf]

/-- `Add` of the chunk that a `Next` waits for stores it and wakes that `Next`. -/
lemma run_add_nextRecv {ch : Nat} (sender : PeerID) (body : Bytes)
    (hph : w.phase c = .waiting i ch) (hs : w.q.snapshot = some s) (hi : i < s.Chunks)
    (hf : w.q.chunkFiles.lookup i = none) (hw : ch ∈ (w.q.waiters.lookup i).getD [])
    (hch : ∃ cw, w.env.chans.lookup ch = some cw) :
    ∃ w', w.run [.add (some ⟨s.Height, s.Format, i, some body, sender⟩), .nextRecv c] = some w' ∧
      w'.phase c = .woken i ∧ w'.q.snapshot = some s ∧
      w'.q.chunkFiles.lookup i = some (chunkPath w.q.dir i) ∧
      chunkPath w.q.dir i ∈ w'.env.files := by
  obtain ⟨cw, hcw⟩ := hch
  have hadd : w.q.Add w.env (some ⟨s.Height, s.Format, i, some body, sender⟩) = _ :=
    chunkQueue.Add_of_missing sender body hs hi hf
  set e₃ := (w.env.writeFile (chunkPath w.q.dir i) body).notify ((w.q.waiters.lookup i).getD []) i
    with he₃
  -- the waiting `Next`'s channel got the index
  obtain ⟨⟨_ | ⟨v, rest⟩, closed⟩, hc₃, hbuf⟩ :=
    chunkEnv.notify_buf i ((w.q.waiters.lookup i).getD []) (w.env.writeFile (chunkPath w.q.dir i) body)
      (by simpa [chunkEnv.writeFile] using hcw) (.inr hw)
  · exact absurd rfl hbuf
  set w₃ : world := w.apply (·.2) (w.q.Add w.env (some ⟨s.Height, s.Format, i, some body, sender⟩))
    with hw₃
  have h₃ : w.step (.add (some ⟨s.Height, s.Format, i, some body, sender⟩)) = some w₃ := rfl
  have hph₃ : w₃.phase c = .waiting i ch := by simpa [hw₃, hadd, apply, phase] using hph
  have h₄ := step_nextRecv_of_value hph₃ (by simpa [hw₃, hadd, apply, ← he₃] using hc₃)
  refine ⟨_, by simp only [run, h₃, Option.bind_some, h₄]; rfl, ?_, ?_, ?_, ?_⟩
  all_goals simp [hw₃, hadd, apply, hs, he₃, chunkEnv.writeFile]

/-- A `Discard` of the index between the wake-up of `Next` and its second lock: `Next` finds no
file, returns no chunk and no error, and leaves the index marked returned. -/
lemma run_discard_nextRelock {path : String} (hph : w.phase c = .woken i)
    (hs : w.q.snapshot = some s) (hf : w.q.chunkFiles.lookup i = some path) (hp : path ≠ "")
    (hfile : path ∈ w.env.files) :
    ∃ w', w.run [.discard i, .nextRelock c] = some w' ∧ w'.phase c = .done (.ok none) ∧
      w'.q.chunkReturned.lookup i = some true ∧ w'.q.chunkFiles.lookup i = none := by
  have hdis : w.q.discard w.env i = _ := chunkQueue.discard_of_file hs hf hp hfile
  set w₅ : world := w.apply id (w.q.Discard w.env i) with hw₅
  have h₅ : w.step (.discard i) = some w₅ := rfl
  have hph₅ : w₅.phase c = .woken i := by
    simpa [hw₅, chunkQueue.Discard, hdis, apply, phase] using hph
  have hf₅ : w₅.q.chunkFiles.lookup i = none := by
    simp [hw₅, chunkQueue.Discard, hdis, apply]
  have h₆ := step_nextRelock hph₅
  rw [chunkQueue.loadReturned_of_missing hf₅] at h₆
  refine ⟨_, by simp only [run, h₅, Option.bind_some, h₆]; rfl, ?_, ?_, ?_⟩
  all_goals simp [hf₅]

end world

open world

/-- `Next` against `Discard`.  On an open queue whose next index to return has no chunk yet,
the first locked part of `Next` marks the index returned though no chunk is stored for it.  If
the chunk is then added, wakes `Next`, and is discarded before `Next` locks again, `Next`
returns neither a chunk nor an error, and the index stays marked returned without a chunk. -/
theorem Next_discard_race {w : world} {s : snapshot} {c i : Nat} (sender : PeerID) (body : Bytes)
    (hph : w.phase c = .idle) (hs : w.q.snapshot = some s) (hup : w.q.nextUp = .ok i)
    (hf : w.q.chunkFiles.lookup i = none) :
    (∃ w₁, w.step (.nextLock c) = some w₁ ∧
      w₁.q.chunkReturned.lookup i = some true ∧ w₁.q.chunkFiles.lookup i = none) ∧
    ∃ w', w.run [.nextLock c, .nextWaitFor c, .add (some ⟨s.Height, s.Format, i, some body, sender⟩),
        .nextRecv c, .discard i, .nextRelock c] = some w' ∧
      w'.phase c = .done (.ok none) ∧
      w'.q.chunkReturned.lookup i = some true ∧ w'.q.chunkFiles.lookup i = none := by
  have hi : i < s.Chunks := chunkQueue.nextUp_lt hs hup
  refine ⟨⟨_, step_nextLock_of_missing hph hup hf, by simp, by simpa using hf⟩, ?_⟩
  -- `Next` waits; `Add` wakes it; `Discard` runs before `Next` locks again
  obtain ⟨w₂, h₂, hph₂, hs₂, hf₂, -, hw₂, hch₂⟩ := run_nextLock_nextWaitFor hph hs hup hf
  obtain ⟨w₄, h₄, hph₄, hs₄, hf₄, hfile₄⟩ := run_add_nextRecv sender body hph₂ hs₂ hi hf₂ hw₂ hch₂
  obtain ⟨w₆, h₆, hph₆, hr₆, hf₆⟩ :=
    run_discard_nextRelock hph₄ hs₄ hf₄ (chunkPath_ne_empty _ _) hfile₄
  refine ⟨w₆, ?_, hph₆, hr₆, hf₆⟩
  have hsplit : [Event.nextLock c, .nextWaitFor c,
      .add (some ⟨s.Height, s.Format, i, some body, sender⟩), .nextRecv c, .discard i,
      .nextRelock c] = [.nextLock c, .nextWaitFor c] ++
      ([.add (some ⟨s.Height, s.Format, i, some body, sender⟩), .nextRecv c] ++
        [.discard i, .nextRelock c]) := rfl
  rw [hsplit, run_append, h₂, Option.bind_some, run_append, h₄, Option.bind_some, h₆]

/-- A queue just made for a snapshot of one chunk, with nobody in `Next`. -/
def oneChunkWorld : world :=
  ⟨{ snapshot := some ⟨1, 1, 1, [], [], []⟩, dir := "tm-statesync", chunkFiles := ∅,
     chunkSenders := ∅, chunkAllocated := ∅, chunkReturned := ∅, waiters := ∅ }, ⟨∅, ∅, 0⟩, ∅⟩

theorem Next_discard_race_oneChunk :
    (∃ w₁, oneChunkWorld.step (.nextLock 0) = some w₁ ∧
      w₁.q.chunkReturned.lookup 0 = some true ∧ w₁.q.chunkFiles.lookup 0 = none) ∧
    ∃ w', oneChunkWorld.run [.nextLock 0, .nextWaitFor 0, .add (some ⟨1, 1, 0, some [7], "p"⟩),
        .nextRecv 0, .discard 0, .nextRelock 0] = some w' ∧
      w'.phase 0 = .done (.ok none) ∧
      w'.q.chunkReturned.lookup 0 = some true ∧ w'.q.chunkFiles.lookup 0 = none :=
  @Next_discard_race oneChunkWorld ⟨1, 1, 1, [], [], []⟩ 0 0 "p" [7] rfl rfl rfl rfl


/-! ## What `Allocate` hands out -/

namespace chunkQueue

variable {q q' : chunkQueue} {e e' : chunkEnv} {n : Nat}

/-- What a successful `discard` can do: nothing, or drop the index's file and marks. -/
lemma discard_cases {index : Nat} (hd : q.discard e index = .ok (q', e')) :
    q' = q ∨ q' = { q with chunkFiles := q.chunkFiles.erase index,
                           chunkReturned := q.chunkReturned.erase index,
                           chunkAllocated := q.chunkAllocated.erase index } := by
  unfold discard at hd
  split at hd
  · cases hd
    exact .inl rfl
  · dsimp only at hd
    split_ifs at hd
    · cases hd
      exact .inl rfl
    · split at hd
      · cases hd
      · cases hd
        exact .inr rfl

/-- The allocation marks of a queue made for a snapshot of `n` chunks: indexes below `n`, each
marked `true`. -/
structure AllocInv (n : Nat) (q : chunkQueue) : Prop where
  chunks : ∀ s, q.snapshot = some s → s.Chunks = n
  allocated : ∀ i v, q.chunkAllocated.lookup i = some v → i < n ∧ v = true

/-- A queue just made has no allocation marks. -/
lemma AllocInv.init {s : Statesync.snapshot} {dir : String} (h : newChunkQueue s dir = .ok q) :
    AllocInv s.Chunks q := by
  unfold newChunkQueue at h
  split_ifs at h
  cases h
  refine ⟨fun s' hs' => ?_, fun i v hv => ?_⟩
  · cases hs'
    rfl
  · simp at hv

/-- Fewer marks, and the snapshot kept or dropped, keep the invariant. -/
lemma AllocInv.mono (h : AllocInv n q) (hs : ∀ s, q'.snapshot = some s → q.snapshot = some s)
    (ha : ∀ i v, q'.chunkAllocated.lookup i = some v → q.chunkAllocated.lookup i = some v) :
    AllocInv n q' :=
  ⟨fun s h' => h.chunks s (hs s h'), fun i v h' => h.allocated i v (ha i v h')⟩

/-- A method that leaves the snapshot and the allocation marks as they are. -/
lemma AllocInv.of_eq (h : AllocInv n q) (hs : q'.snapshot = q.snapshot)
    (ha : q'.chunkAllocated = q.chunkAllocated) : AllocInv n q' :=
  h.mono (fun _ h' => hs ▸ h') (fun _ _ h' => ha ▸ h')

lemma AllocInv.Add (h : AllocInv n q) {chunk : Option chunk} {b : Bool}
    (hadd : q.Add e chunk = .ok (b, q', e')) : AllocInv n q' := by
  rw [Add_eq_notify] at hadd
  split at hadd
  · cases hadd
  · split at hadd
    · cases hadd
    · split at hadd
      · cases hadd
        exact h
      · split_ifs at hadd <;> cases hadd <;> exact h.of_eq rfl rfl

lemma AllocInv.Allocate (h : AllocInv n q) {i : Nat} (ha : q.Allocate = .ok (i, q')) :
    AllocInv n q' := by
  unfold chunkQueue.Allocate firstBelow at ha
  split at ha
  · cases ha
  · next s hs =>
    split_ifs at ha
    split at ha
    · next j hfind =>
      cases ha
      have hj := List.mem_range.mp (List.mem_of_find?_eq_some hfind)
      rw [h.chunks s hs] at hj
      refine ⟨h.chunks, fun k v hk => ?_⟩
      rw [lookup_insert_ite] at hk
      split_ifs at hk with hkj
      · cases hk
        exact ⟨hkj ▸ hj, rfl⟩
      · exact h.allocated k v hk
    · cases ha

lemma AllocInv.discard (h : AllocInv n q) {index : Nat} (hd : q.discard e index = .ok (q', e')) :
    AllocInv n q' := by
  rcases discard_cases hd with rfl | rfl
  · exact h
  · refine h.mono (fun s hs => hs) fun k v hk => ?_
    rw [lookup_erase_ite] at hk
    split_ifs at hk
    exact hk

lemma AllocInv.DiscardSender (h : AllocInv n q) {peerID : PeerID}
    (hd : q.DiscardSender e peerID = .ok (q', e')) : AllocInv n q' := by
  refine @ExceptRun.foldlM_inv _ _ _ (fun qe => AllocInv n qe.1) _ ?_ _ (q, e) (q', e') h hd
  -- one entry: the chunk is discarded and its sender forgotten, or nothing happens
  rintro ⟨q₀, e₀⟩ entry ⟨q₁, e₁⟩ h₀ hstep
  dsimp only at hstep h₀ ⊢
  split_ifs at hstep
  · obtain ⟨⟨q₂, e₂⟩, hd₂, hrest⟩ := ExceptRun.bind_eq_ok hstep
    cases hrest
    exact (h₀.discard hd₂).of_eq rfl rfl
  · cases hstep
    exact h₀

lemma AllocInv.WaitFor (h : AllocInv n q) (index : Nat) : AllocInv n (q.WaitFor e index).2.1 := by
  unfold chunkQueue.WaitFor
  -- past the channel that is made, on the snapshot
  split
  split
  · exact h
  · split_ifs
    · exact h
    · exact h
    · exact h.of_eq rfl rfl

lemma AllocInv.Close (h : AllocInv n q) : AllocInv n (q.Close e).1 := by
  unfold chunkQueue.Close
  split
  · exact h
  · exact h.mono (fun _ hs => by cases hs) fun _ _ ha => ha

lemma AllocInv.loadReturned (h : AllocInv n q) (index : Nat) :
    AllocInv n (q.loadReturned e index).2 := by
  unfold chunkQueue.loadReturned
  split
  · exact h
  · exact h.of_eq rfl rfl

lemma AllocInv.nextLocked (h : AllocInv n q) : AllocInv n (q.nextLocked e).2.2 := by
  unfold chunkQueue.nextLocked
  split
  · exact h
  · exact h.loadReturned _

end chunkQueue

namespace chunkQueue

variable {w w' : world} {n : Nat}

lemma AllocInv.apply {α : Type} {f : α → chunkQueue × chunkEnv} {r : Go α}
    (h : AllocInv n w.q) (hr : ∀ a, r = .ok a → AllocInv n (f a).1) :
    AllocInv n (w.apply f r).q := by
  unfold world.apply
  cases r with
  | ok a => exact hr a rfl
  | error _ => exact h

/-- Every step keeps the allocation marks below the snapshot's chunk count. -/
lemma AllocInv.step (h : AllocInv n w.q) {ev : Event} (hs : w.step ev = some w') :
    AllocInv n w'.q := by
  cases ev with
  | add c =>
    cases hs
    exact AllocInv.apply h fun a ha => h.Add ha
  | allocate =>
    cases hs
    exact AllocInv.apply h fun a ha => h.Allocate ha
  | discard index =>
    cases hs
    exact AllocInv.apply h fun a ha => h.discard ha
  | discardSender peerID =>
    cases hs
    exact AllocInv.apply h fun a ha => h.DiscardSender ha
  | retry index =>
    cases hs
    exact h.of_eq rfl rfl
  | retryAll =>
    cases hs
    exact h.of_eq rfl rfl
  | waitFor index =>
    cases hs
    exact h.WaitFor index
  | close =>
    cases hs
    exact h.Close
  | nextLock caller =>
    simp only [world.step] at hs
    have hn : AllocInv n (w.q.nextLocked w.env).2.2 := h.nextLocked
    generalize w.q.nextLocked w.env = t at hs hn
    obtain ⟨index, r, q⟩ := t
    split at hs
    · split at hs <;> cases hs <;> exact hn
    · split at hs <;> cases hs <;> exact hn
    · cases hs
  | nextWaitFor caller =>
    simp only [world.step] at hs
    split at hs
    · cases hs
      exact h.WaitFor _
    · cases hs
  | nextRecv caller =>
    simp only [world.step] at hs
    split at hs
    · split at hs <;> cases hs <;> exact h
    · cases hs
  | nextTimeout caller =>
    simp only [world.step] at hs
    split at hs
    · cases hs
      exact h
    · cases hs
  | nextRelock caller =>
    simp only [world.step] at hs
    split at hs
    · cases hs
      exact h.loadReturned _
    · cases hs

/-- Along every run, the allocation marks stay below the snapshot's chunk count. -/
lemma run_allocInv (h : AllocInv n w.q) : ∀ {evs : List Event}, w.run evs = some w' →
    AllocInv n w'.q := by
  intro evs
  induction evs generalizing w with
  | nil =>
    intro hrun
    cases hrun
    exact h
  | cons ev evs ih =>
    intro hrun
    simp only [world.run] at hrun
    cases hs : w.step ev with
    | none => rw [hs] at hrun; cases hrun
    | some w₁ =>
      rw [hs, Option.bind_some] at hrun
      exact ih (h.step hs) hrun


/-- `Allocate` hands out an index of the snapshot that was not allocated, and marks it. -/
lemma Allocate_ok {q q' : chunkQueue} {i : Nat} (ha : q.Allocate = .ok (i, q')) :
    (∃ s, q.snapshot = some s ∧ i < s.Chunks) ∧ (q.chunkAllocated.lookup i).getD false = false ∧
      q'.chunkAllocated.lookup i = some true := by
  unfold chunkQueue.Allocate firstBelow at ha
  split at ha
  · cases ha
  · next s hs =>
    split_ifs at ha
    split at ha
    · next j hfind =>
      cases ha
      refine ⟨⟨s, hs, List.mem_range.mp (List.mem_of_find?_eq_some hfind)⟩, ?_,
        AList.lookup_insert _⟩
      simpa using List.find?_some hfind
    · cases ha

/-- On an open queue, `Allocate` answers `errDone` only when every index is allocated. -/
lemma Allocate_done {q : chunkQueue} {s : Statesync.snapshot} (h : AllocInv n q)
    (hs : q.snapshot = some s)
    (hd : q.Allocate = .error (.err errDone)) : ∀ i < n, q.chunkAllocated.lookup i = some true := by
  have hn : s.Chunks = n := h.chunks s hs
  unfold chunkQueue.Allocate firstBelow at hd
  rw [hs] at hd
  dsimp only at hd
  intro i hi
  split_ifs at hd with hlen
  · -- as many marks as indexes, all below `n`: none of them can be missing
    by_contra hne
    have hnone : q.chunkAllocated.lookup i = none := by
      cases hv : q.chunkAllocated.lookup i with
      | none => rfl
      | some v => exact absurd ((h.allocated i v hv).2 ▸ hv) hne
    have hle : q.chunkAllocated.entries.length ≤ ((Finset.range n).erase i).card :=
      length_le_card _ fun k hk => by
        obtain ⟨v, hv⟩ := Option.isSome_iff_exists.mp (AList.lookup_isSome.mpr hk)
        refine Finset.mem_erase.mpr ⟨fun hki => ?_, Finset.mem_range.mpr (h.allocated k v hv).1⟩
        rw [hki, hnone] at hv
        cases hv
    rw [Finset.card_erase_of_mem (Finset.mem_range.mpr hi), Finset.card_range] at hle
    omega
  · split at hd
    · cases hd
    · next hfind =>
      have hi' : i ∈ List.range s.Chunks := List.mem_range.mpr (hn ▸ hi)
      have hmarked := List.find?_eq_none.mp hfind i hi'
      cases hv : q.chunkAllocated.lookup i with
      | none => simp [hv] at hmarked
      | some v =>
        obtain ⟨-, rfl⟩ := h.allocated i v hv
        rfl

end chunkQueue

/-- Along every run from a queue just made for a snapshot, the allocation marks are indexes of
the snapshot.  So `Allocate` hands out an index of the snapshot that is not allocated and marks
it, and on an open queue answers `errDone` only when every index is allocated: the count of the
marks that it compares stands for the indexes allocated. -/
theorem run_Allocate {s : snapshot} {dir : String} {w w' : world} {evs : List Event}
    (hnew : newChunkQueue s dir = .ok w.q) (hrun : w.run evs = some w') :
    (∀ i v, w'.q.chunkAllocated.lookup i = some v → i < s.Chunks ∧ v = true) ∧
    (∀ i q', w'.q.Allocate = .ok (i, q') → i < s.Chunks ∧
      (w'.q.chunkAllocated.lookup i).getD false = false ∧ q'.chunkAllocated.lookup i = some true) ∧
    (w'.q.Allocate = .error (.err errDone) →
      w'.q.snapshot = none ∨ ∀ i < s.Chunks, w'.q.chunkAllocated.lookup i = some true) := by
  have h : chunkQueue.AllocInv s.Chunks w'.q :=
    chunkQueue.run_allocInv (chunkQueue.AllocInv.init hnew) hrun
  refine ⟨h.allocated, fun i q' ha => ?_, fun hd => ?_⟩
  · obtain ⟨⟨s', hs', hi⟩, hfree, hmark⟩ := chunkQueue.Allocate_ok ha
    exact ⟨h.chunks s' hs' ▸ hi, hfree, hmark⟩
  · cases hs : w'.q.snapshot with
    | none => exact .inl rfl
    | some s' => exact .inr (chunkQueue.Allocate_done h hs hd)

/-- A queue just made for a snapshot of two chunks, with nobody in `Next`. -/
def twoChunkWorld : world :=
  ⟨{ snapshot := some ⟨1, 1, 2, [], [], []⟩, dir := "tm-statesync", chunkFiles := ∅,
     chunkSenders := ∅, chunkAllocated := ∅, chunkReturned := ∅, waiters := ∅ }, ⟨∅, ∅, 0⟩, ∅⟩

/-- After one `Allocate` the other index is handed out; after two, `errDone` and both marked. -/
theorem run_Allocate_twoChunks :
    newChunkQueue ⟨1, 1, 2, [], [], []⟩ "tm-statesync" = .ok twoChunkWorld.q ∧
    (∃ w', twoChunkWorld.run [.allocate] = some w' ∧
      ((∀ i v, w'.q.chunkAllocated.lookup i = some v → i < 2 ∧ v = true) ∧
        (∀ i q', w'.q.Allocate = .ok (i, q') → i < 2 ∧
          (w'.q.chunkAllocated.lookup i).getD false = false ∧
          q'.chunkAllocated.lookup i = some true) ∧
        (w'.q.Allocate = .error (.err errDone) →
          w'.q.snapshot = none ∨ ∀ i < 2, w'.q.chunkAllocated.lookup i = some true)) ∧
      ∃ q', w'.q.Allocate = .ok (1, q')) ∧
    (∃ w', twoChunkWorld.run [.allocate, .allocate] = some w' ∧
      ((∀ i v, w'.q.chunkAllocated.lookup i = some v → i < 2 ∧ v = true) ∧
        (∀ i q', w'.q.Allocate = .ok (i, q') → i < 2 ∧
          (w'.q.chunkAllocated.lookup i).getD false = false ∧
          q'.chunkAllocated.lookup i = some true) ∧
        (w'.q.Allocate = .error (.err errDone) →
          w'.q.snapshot = none ∨ ∀ i < 2, w'.q.chunkAllocated.lookup i = some true)) ∧
      w'.q.Allocate = .error (.err errDone)) := by
  have hnew : newChunkQueue ⟨1, 1, 2, [], [], []⟩ "tm-statesync" = .ok twoChunkWorld.q := rfl
  obtain ⟨w₁, h₁⟩ : ∃ w₁, twoChunkWorld.run [.allocate] = some w₁ := ⟨_, rfl⟩
  obtain ⟨w₂, h₂⟩ : ∃ w₂, twoChunkWorld.run [.allocate, .allocate] = some w₂ := ⟨_, rfl⟩
  refine ⟨hnew, ⟨w₁, h₁, run_Allocate hnew h₁, ?_⟩, ⟨w₂, h₂, run_Allocate hnew h₂, ?_⟩⟩
  · cases h₁
    exact ⟨_, rfl⟩
  · cases h₂
    rfl

end Tendermint.Statesync
