import Tendermint.Types.VoteSet
import Tendermint.Lib.Except

/-!
# The mempool (`mempool/clist_mempool.go`)

`CListMempool` keeps the transactions the application accepted in a list (`txs`), an index from
`TxKey` to their list element (`txsMap`) and a byte counter (`txsBytes`).  `CheckTx` turns away
a transaction when the mempool is full, when it is too large, or when the cache has seen it,
and otherwise sends it to the application; the response (`resCbFirstTime`) adds it once more
`isFull` lets it through.  `Update` removes committed transactions and may start a recheck, whose
responses (`resCbRecheck`) drop the transactions that turned invalid, and `Flush` empties it.

The model is the state machine of these calls with the application connection as a queue of
requests, answered in order (`Respond`).  Elements of the list carry an identity, as Go's
pointers do: a recheck walks from the element that was at the front to the one that was at the
back when it started, through elements that may have been removed since.  No `preCheck` or
`postCheck` filter is installed; the write-ahead log, the metrics and the senders of each
transaction do not change what is modelled.

Over every run, the counter is the sum of the sizes in the list and both limits of the
configuration hold (`run_inv`).  The keys in the list are not distinct, though: the mempool looks
up a transaction in its cache only, and with `CacheSize ≤ 0` (a `nopTxCache`) the same
transaction checked twice is added twice (`CheckTx_twice_duplicates`).
-/

namespace Tendermint

namespace Mempool

open ExceptRun

/-- `abci.CodeTypeOK`. -/
def CodeTypeOK : UInt32 := 0

/-- `config.MempoolConfig`, with the fields the mempool reads. -/
structure MempoolConfig where
  size : Int
  maxTxsBytes : Int
  maxTxBytes : Int
  cacheSize : Int
  recheck : Bool
  deriving DecidableEq, Repr

/-- `mempoolTx`, without its senders. -/
structure mempoolTx where
  height : Int
  gasWanted : Int
  tx : Bytes
  deriving DecidableEq, Repr

/-- The mempool's `txCache`: a `mapTxCache` of `size` with its keys from the least to the most
recently pushed, or a `nopTxCache`. -/
inductive txCache where
  | mapTxCache (size : Int) (keys : List Bytes)
  | nopTxCache
  deriving DecidableEq, Repr

/-- A request the mempool has sent the application, whose response is still to come. -/
inductive Request where
  | checkTx (tx : Bytes)
  | recheckTx (tx : Bytes)
  deriving DecidableEq, Repr

/-- The transaction of a request. -/
def Request.tx : Request → Bytes
  | .checkTx tx => tx
  | .recheckTx tx => tx

/-- `abci.ResponseCheckTx`, with the fields the mempool reads. -/
structure ResponseCheckTx where
  code : UInt32
  gasWanted : Int
  deriving DecidableEq, Repr

/-- `CListMempool`.  `txs` holds the list's elements with their identities, front first;
`recheckQueue` the elements from `recheckCursor` to `recheckEnd` (empty when the cursor is
`nil`); `pending` the requests on the application connection. -/
structure CListMempool where
  config : MempoolConfig
  height : Int
  txs : List (Nat × mempoolTx)
  txsMap : Bytes → Option Nat
  txsBytes : Int
  cache : txCache
  recheckQueue : List (Nat × mempoolTx)
  nextElem : Nat
  pending : List Request

/-- `ErrTxInCache`. -/
def ErrTxInCache : String := "tx already exists in cache"

/-- `ErrTxTooLarge`. -/
def ErrTxTooLarge (max actual : Int) : String :=
  "Tx too large. Max size is " ++ toString max ++ ", but got " ++ toString actual

/-- `ErrMempoolIsFull`. -/
def ErrMempoolIsFull (numTxs maxTxs txsBytes maxTxsBytes : Int) : String :=
  "mempool is full: number of txs " ++ toString numTxs ++ " (max: " ++ toString maxTxs ++
    "), total txs bytes " ++ toString txsBytes ++ " (max: " ++ toString maxTxsBytes ++ ")"

/-- `clist.CList.Remove`: a removed element keeps no predecessor, so removing it again panics. -/
def clistRemove (l : List (Nat × mempoolTx)) (e : Nat) : Go (List (Nat × mempoolTx)) :=
  if l = [] then throw (.panic "Remove(e) on empty CList")
  else if e ∉ l.map Prod.fst then throw (.panic "Remove(e) with false head")
  else pure (l.filter fun x => x.1 ≠ e)

section Key

variable (TxKey : Bytes → Bytes)

namespace txCache

/-- `Push`: `false`, and the key moved to the back, if the key is cached; otherwise the oldest
key goes once the cache is full, and the new one is added at the back. -/
def Push : txCache → Bytes → Bool × txCache
  | .nopTxCache, _ => (true, .nopTxCache)
  | .mapTxCache size keys, tx =>
    let txHash := TxKey tx
    if txHash ∈ keys then (false, .mapTxCache size (keys.erase txHash ++ [txHash]))
    else
      let keys' := if (keys.length : Int) ≥ size then keys.drop 1 else keys
      (true, .mapTxCache size (keys' ++ [txHash]))

/-- `Remove`. -/
def Remove : txCache → Bytes → txCache
  | .nopTxCache, _ => .nopTxCache
  | .mapTxCache size keys, tx => .mapTxCache size (keys.erase (TxKey tx))

/-- `Reset`. -/
def Reset : txCache → txCache
  | .nopTxCache => .nopTxCache
  | .mapTxCache size _ => .mapTxCache size []

end txCache

/-- `NewCListMempool`: a `mapTxCache` for a positive `CacheSize`, a `nopTxCache` otherwise. -/
def NewCListMempool (config : MempoolConfig) (height : Int) : CListMempool :=
  { config := config, height := height, txs := [], txsMap := fun _ => none, txsBytes := 0,
    cache := if config.cacheSize > 0 then .mapTxCache config.cacheSize [] else .nopTxCache,
    recheckQueue := [], nextElem := 0, pending := [] }

namespace CListMempool

/-- `Size`. -/
def Size (mem : CListMempool) : Int := mem.txs.length

/-- `isFull`. -/
def isFull (mem : CListMempool) (txSize : Int) : Except String Unit :=
  if mem.Size ≥ mem.config.size ∨ txSize + mem.txsBytes > mem.config.maxTxsBytes then
    throw (ErrMempoolIsFull mem.Size mem.config.size mem.txsBytes mem.config.maxTxsBytes)
  else pure ()

/-- `CheckTx`: the error it returns, and the mempool after it (a cache hit moves the key). -/
def CheckTx (mem : CListMempool) (tx : Bytes) : Except String Unit × CListMempool :=
  let txSize : Int := tx.length
  match mem.isFull txSize with
  | .error e => (.error e, mem)
  | .ok () =>
    if txSize > mem.config.maxTxBytes then (.error (ErrTxTooLarge mem.config.maxTxBytes txSize), mem)
    else
      let (pushed, cache) := mem.cache.Push TxKey tx
      if !pushed then (.error ErrTxInCache, { mem with cache := cache })
      else (.ok (), { mem with cache := cache, pending := mem.pending ++ [.checkTx tx] })

/-- `addTx`: a new element at the back, indexed by its key. -/
def addTx (mem : CListMempool) (memTx : mempoolTx) : CListMempool :=
  let e := mem.nextElem
  { mem with txs := mem.txs ++ [(e, memTx)],
             txsMap := fun k => if k = TxKey memTx.tx then some e else mem.txsMap k,
             txsBytes := mem.txsBytes + memTx.tx.length, nextElem := e + 1 }

/-- `removeTx`. -/
def removeTx (mem : CListMempool) (tx : Bytes) (elem : Nat) (removeFromCache : Bool) :
    Go CListMempool := do
  let txs ← clistRemove mem.txs elem
  pure { mem with txs := txs,
                  txsMap := fun k => if k = TxKey tx then none else mem.txsMap k,
                  txsBytes := mem.txsBytes - tx.length,
                  cache := if removeFromCache then mem.cache.Remove TxKey tx else mem.cache }

/-- `resCbFirstTime`. -/
def resCbFirstTime (mem : CListMempool) (tx : Bytes) (res : ResponseCheckTx) : CListMempool :=
  if res.code = CodeTypeOK then
    match mem.isFull tx.length with
    | .error _ => { mem with cache := mem.cache.Remove TxKey tx }
    | .ok () => mem.addTx TxKey ⟨mem.height, res.gasWanted, tx⟩
  else { mem with cache := mem.cache.Remove TxKey tx }

/-- `resCbRecheck`: the response is for the element at the cursor. -/
def resCbRecheck (mem : CListMempool) (tx : Bytes) (res : ResponseCheckTx) : Go CListMempool :=
  match mem.recheckQueue with
  | [] => pure mem
  | (elem, memTx) :: rest =>
    if tx ≠ memTx.tx then
      throw (.panic "Unexpected tx response from proxy during recheck\nExpected %X, got %X")
    else do
      let mem' ← if res.code = CodeTypeOK then pure mem else mem.removeTx TxKey tx elem true
      pure { mem' with recheckQueue := rest }

/-- `globalCb`, called on every response: it rechecks while the cursor is set. -/
def globalCb (mem : CListMempool) (req : Request) (res : ResponseCheckTx) : Go CListMempool :=
  if mem.recheckQueue = [] then pure mem else mem.resCbRecheck TxKey req.tx res

/-- `reqResCb`, the callback of a `CheckTx` request. -/
def reqResCb (mem : CListMempool) (tx : Bytes) (res : ResponseCheckTx) : Go CListMempool :=
  if mem.recheckQueue ≠ [] then throw (.panic "recheck cursor is not nil in reqResCb")
  else pure (mem.resCbFirstTime TxKey tx res)

/-- The application answers the oldest request: the global callback runs first, then the
request's own. -/
def Respond (mem : CListMempool) (res : ResponseCheckTx) : Go CListMempool :=
  match mem.pending with
  | [] => pure mem
  | req :: rest => do
    let mem' ← ({ mem with pending := rest } : CListMempool).globalCb TxKey req res
    match req with
    | .checkTx tx => mem'.reqResCb TxKey tx res
    | .recheckTx _ => pure mem'

/-- `recheckTxs`: the cursor goes to the front, and every transaction is sent again. -/
def recheckTxs (mem : CListMempool) : Go CListMempool :=
  if mem.Size = 0 then throw (.panic "recheckTxs is called, but the mempool is empty")
  else pure { mem with recheckQueue := mem.txs,
                       pending := mem.pending ++ mem.txs.map fun e => .recheckTx e.2.tx }

/-- One committed transaction in `Update`. -/
def updateTx (mem : CListMempool) (tx : Bytes) (code : UInt32) : Go CListMempool :=
  let cache := if code = CodeTypeOK then (mem.cache.Push TxKey tx).2 else mem.cache.Remove TxKey tx
  let mem' := { mem with cache := cache }
  match mem'.txsMap (TxKey tx) with
  | some e => mem'.removeTx TxKey tx e false
  | none => pure mem'

/-- The loop of `Update` over the committed transactions, `i` their index. -/
def updateTxs (deliverTxResponses : List UInt32) :
    CListMempool → Nat → List Bytes → Go CListMempool
  | mem, _, [] => pure mem
  | mem, i, tx :: rest => do
    let code ← goIndex deliverTxResponses i
    let mem' ← mem.updateTx TxKey tx code
    updateTxs deliverTxResponses mem' (i + 1) rest

/-- `Update`. -/
def Update (mem : CListMempool) (height : Int) (txs : List Bytes)
    (deliverTxResponses : List UInt32) : Go CListMempool := do
  let mem' ← updateTxs TxKey deliverTxResponses { mem with height := height } 0 txs
  if mem'.Size > 0 ∧ mem'.config.recheck then mem'.recheckTxs else pure mem'

/-- `Flush`. -/
def Flush (mem : CListMempool) : CListMempool :=
  { mem with txsBytes := 0, cache := mem.cache.Reset, txs := [], txsMap := fun _ => none }

end CListMempool

/-- What happens to the mempool: calls, and responses of the application. -/
inductive Event where
  | checkTx (tx : Bytes)
  | respond (res : ResponseCheckTx)
  | update (height : Int) (txs : List Bytes) (deliverTxResponses : List UInt32)
  | flush

/-- One event; a `CheckTx` error is returned to its caller and the run goes on. -/
def step (mem : CListMempool) : Event → Go CListMempool
  | .checkTx tx => pure (mem.CheckTx TxKey tx).2
  | .respond res => mem.Respond TxKey res
  | .update height txs codes => mem.Update TxKey height txs codes
  | .flush => pure mem.Flush

/-- A run of events; it stops at a panic. -/
def run : CListMempool → List Event → Go CListMempool
  | mem, [] => pure mem
  | mem, ev :: evs => do
    let mem' ← step TxKey mem ev
    run mem' evs

/-! ## The counter and the limits over every run -/

/-- Removing the one element of identity `e` takes its size off the sum of sizes. -/
lemma sum_filter_ne : ∀ {l : List (Nat × mempoolTx)}, (l.map Prod.fst).Nodup → ∀ {e : Nat}
    {m : mempoolTx}, (e, m) ∈ l →
    ((l.filter fun x => x.1 ≠ e).map fun x => (x.2.tx.length : Int)).sum + m.tx.length =
      (l.map fun x => (x.2.tx.length : Int)).sum
  | [], _, _, _, hm => by simp at hm
  | x :: l, hnd, e, m, hm => by
    rw [List.map_cons, List.nodup_cons] at hnd
    rcases List.mem_cons.mp hm with rfl | hm'
    · -- the element is the head: no other element has its identity
      have hrest : ∀ y ∈ l, y.1 ≠ e := fun y hy hye => hnd.1 (List.mem_map.mpr ⟨y, hy, hye⟩)
      rw [List.filter_cons_of_neg (by simp),
        List.filter_eq_self.mpr fun y hy => by simpa using hrest y hy]
      simp only [List.map_cons, List.sum_cons]
      ring
    · have hxe : x.1 ≠ e := fun hxe =>
        hnd.1 (List.mem_map.mpr ⟨(e, m), hm', hxe.symm⟩)
      simp only [List.filter_cons, hxe, ne_eq, not_false_eq_true, decide_true, if_true,
        List.map_cons, List.sum_cons]
      rw [add_assoc, sum_filter_ne hnd.2 hm']

lemma isFull_eq_ok {mem : CListMempool} {txSize : Int} :
    mem.isFull txSize = .ok () ↔
      mem.Size < mem.config.size ∧ txSize + mem.txsBytes ≤ mem.config.maxTxsBytes := by
  unfold CListMempool.isFull
  split_ifs with h
  · constructor
    · intro h'
      cases h'
    · intro h'
      omega
  · exact ⟨fun _ => by omega, fun _ => rfl⟩

namespace CListMempool

/-- What every reachable mempool satisfies: element identities are distinct and below the next
one, the index points into the list at an element of its key, the counter is the sum of the
sizes, both limits hold, and the elements still to recheck are known by their identity. -/
structure Inv (cfg : MempoolConfig) (mem : CListMempool) : Prop where
  nodup : (mem.txs.map Prod.fst).Nodup
  fresh : ∀ x ∈ mem.txs, x.1 < mem.nextElem
  mapped : ∀ k e, mem.txsMap k = some e → ∃ m, (e, m) ∈ mem.txs ∧ TxKey m.tx = k
  bytes : mem.txsBytes = (mem.txs.map fun x => (x.2.tx.length : Int)).sum
  size_le : mem.Size ≤ mem.config.size
  bytes_le : mem.txsBytes ≤ mem.config.maxTxsBytes
  queueFresh : ∀ x ∈ mem.recheckQueue, x.1 < mem.nextElem
  queueAgree : ∀ x ∈ mem.recheckQueue, ∀ m, (x.1, m) ∈ mem.txs → m = x.2
  config_eq : mem.config = cfg

variable {TxKey} {cfg : MempoolConfig}

lemma Inv.val_unique {mem : CListMempool} (h : mem.Inv TxKey cfg) {e : Nat} {m m' : mempoolTx}
    (hm : (e, m) ∈ mem.txs) (hm' : (e, m') ∈ mem.txs) : m = m' := by
  have := List.inj_on_of_nodup_map h.nodup hm hm' rfl
  simpa using congrArg Prod.snd this

/-- Both limits hold of an empty mempool exactly when they are not negative. -/
lemma NewCListMempool_inv {config : MempoolConfig} (hsize : 0 ≤ config.size)
    (hbytes : 0 ≤ config.maxTxsBytes) (height : Int) :
    (NewCListMempool config height).Inv TxKey config where
  nodup := List.nodup_nil
  fresh := by simp [NewCListMempool]
  mapped := by simp [NewCListMempool]
  bytes := rfl
  size_le := by simpa [NewCListMempool, Size] using hsize
  bytes_le := hbytes
  queueFresh := by simp [NewCListMempool]
  queueAgree := by simp [NewCListMempool]
  config_eq := rfl

/-- The invariant reads only the list, the index, the counter, the limits, the recheck queue and
the next identity: a mempool that agrees on those has it too. -/
lemma Inv.of_same {mem mem' : CListMempool} (h : mem.Inv TxKey cfg) (htxs : mem'.txs = mem.txs)
    (hmap : mem'.txsMap = mem.txsMap) (hbytes : mem'.txsBytes = mem.txsBytes)
    (hconfig : mem'.config = mem.config) (hq : mem'.recheckQueue = mem.recheckQueue)
    (hnext : mem'.nextElem = mem.nextElem) : mem'.Inv TxKey cfg := by
  obtain ⟨config, height, txs, txsMap, txsBytes, cache, recheckQueue, nextElem, pending⟩ := mem
  obtain ⟨config', height', txs', txsMap', txsBytes', cache', recheckQueue', nextElem',
    pending'⟩ := mem'
  simp only at htxs hmap hbytes hconfig hq hnext
  subst htxs hmap hbytes hconfig hq hnext
  exact ⟨h.nodup, h.fresh, h.mapped, h.bytes, h.size_le, h.bytes_le, h.queueFresh, h.queueAgree,
    h.config_eq⟩

lemma Inv.addTx {mem : CListMempool} (h : mem.Inv TxKey cfg) {memTx : mempoolTx}
    (hfull : mem.isFull memTx.tx.length = .ok ()) : (mem.addTx TxKey memTx).Inv TxKey cfg := by
  obtain ⟨hsize, hbytes⟩ := isFull_eq_ok.mp hfull
  have hnew : ∀ x ∈ mem.txs, x.1 ≠ mem.nextElem := fun x hx => by
    have := h.fresh x hx
    omega
  refine ⟨?_, ?_, ?_, ?_, ?_, ?_, ?_, ?_, h.config_eq⟩
  · simp only [CListMempool.addTx, List.map_append, List.map_cons, List.map_nil]
    rw [List.nodup_append]
    refine ⟨h.nodup, List.nodup_singleton _, ?_⟩
    intro a ha b hb
    rw [List.mem_singleton] at hb
    subst hb
    obtain ⟨x, hx, rfl⟩ := List.mem_map.mp ha
    exact hnew x hx
  · intro x hx
    simp only [CListMempool.addTx, List.mem_append, List.mem_singleton] at hx ⊢
    rcases hx with hx | rfl
    · have := h.fresh x hx
      omega
    · simp
  · intro k e hk
    simp only [CListMempool.addTx] at hk ⊢
    split_ifs at hk with hkey
    · cases hk
      exact ⟨memTx, by simp, hkey.symm⟩
    · obtain ⟨m, hm, hmk⟩ := h.mapped k e hk
      exact ⟨m, List.mem_append_left _ hm, hmk⟩
  · simp [CListMempool.addTx, h.bytes]
  · simp only [Size] at hsize
    simp only [CListMempool.addTx, Size, List.length_append, List.length_singleton]
    omega
  · simp only [CListMempool.addTx]
    omega
  · intro x hx
    have := h.queueFresh x hx
    simp only [CListMempool.addTx]
    omega
  · intro x hx m hm
    simp only [CListMempool.addTx, List.mem_append, List.mem_singleton] at hm
    rcases hm with hm | hm
    · exact h.queueAgree x hx m hm
    · have := h.queueFresh x hx
      simp only [Prod.mk.injEq] at hm
      omega

/-- Removing an element whose transaction is `tx` keeps the invariant. -/
lemma Inv.removeTx {mem mem' : CListMempool} (h : mem.Inv TxKey cfg) {tx : Bytes} {elem : Nat}
    {removeFromCache : Bool} (helem : ∀ m, (elem, m) ∈ mem.txs → m.tx = tx)
    (hrem : mem.removeTx TxKey tx elem removeFromCache = .ok mem') : mem'.Inv TxKey cfg := by
  unfold CListMempool.removeTx clistRemove at hrem
  by_cases hnil : mem.txs = []
  · rw [if_pos hnil] at hrem
    cases hrem
  rw [if_neg hnil] at hrem
  by_cases hin : elem ∉ mem.txs.map Prod.fst
  · rw [if_pos hin] at hrem
    cases hrem
  rw [if_neg hin] at hrem
  obtain ⟨x, hx, hxe⟩ := List.mem_map.mp (not_not.mp hin)
  obtain ⟨e, m⟩ := x
  simp only at hxe
  subst hxe
  have hmtx := helem m hx
  obtain ⟨txs, htxs, hrem⟩ := bind_eq_ok hrem
  cases htxs
  cases hrem
  have hsub : ∀ y ∈ mem.txs.filter (fun y => y.1 ≠ e), y ∈ mem.txs := fun y hy =>
    (List.mem_filter.mp hy).1
  refine ⟨?_, fun y hy => h.fresh y (hsub y hy), ?_, ?_, ?_, ?_, h.queueFresh, ?_, h.config_eq⟩
  · exact (List.filter_sublist.map Prod.fst).nodup h.nodup
  · intro k e' hk
    simp only at hk
    split_ifs at hk with hkey
    obtain ⟨m', hm', hmk⟩ := h.mapped k e' hk
    refine ⟨m', List.mem_filter.mpr ⟨hm', ?_⟩, hmk⟩
    -- the element of identity `e` has the key of `tx`, which is not `k`
    have hne : e' ≠ e := by
      rintro rfl
      rw [h.val_unique hm' hx, hmtx] at hmk
      exact hkey hmk.symm
    simpa using hne
  · have := sum_filter_ne h.nodup hx
    rw [h.bytes, ← this, hmtx]
    ring
  · have := List.length_filter_le (fun y : Nat × mempoolTx => decide (y.1 ≠ e)) mem.txs
    have hs := h.size_le
    simp only [Size] at hs ⊢
    omega
  · have hb := h.bytes_le
    have : (0 : Int) ≤ tx.length := by positivity
    simp only
    omega
  · intro y hy m' hm'
    exact h.queueAgree y hy m' (hsub _ hm')

lemma Inv.Flush {mem : CListMempool} (h : mem.Inv TxKey cfg) : mem.Flush.Inv TxKey cfg := by
  have hs := h.size_le
  have hb := h.bytes_le
  have hsum : (0 : Int) ≤ (mem.txs.map fun x => (x.2.tx.length : Int)).sum :=
    List.sum_nonneg fun a ha => by
      obtain ⟨x, -, rfl⟩ := List.mem_map.mp ha
      positivity
  refine ⟨List.nodup_nil, by simp [CListMempool.Flush], by simp [CListMempool.Flush], rfl, ?_, ?_,
    h.queueFresh, by simp [CListMempool.Flush], h.config_eq⟩
  · simp only [Size, CListMempool.Flush, List.length_nil, Nat.cast_zero] at hs ⊢
    omega
  · simp only [CListMempool.Flush]
    rw [h.bytes] at hb
    omega

lemma Inv.recheckTxs {mem mem' : CListMempool} (h : mem.Inv TxKey cfg)
    (hre : mem.recheckTxs = .ok mem') : mem'.Inv TxKey cfg := by
  unfold CListMempool.recheckTxs at hre
  by_cases h0 : mem.Size = 0
  · rw [if_pos h0] at hre
    cases hre
  · rw [if_neg h0] at hre
    cases hre
    exact ⟨h.nodup, h.fresh, h.mapped, h.bytes, h.size_le, h.bytes_le, h.fresh,
      fun x hx m hm => h.val_unique hm hx, h.config_eq⟩

lemma Inv.resCbFirstTime {mem : CListMempool} (h : mem.Inv TxKey cfg) (tx : Bytes)
    (res : ResponseCheckTx) : (mem.resCbFirstTime TxKey tx res).Inv TxKey cfg := by
  unfold CListMempool.resCbFirstTime
  split_ifs
  · split
    · exact h.of_same rfl rfl rfl rfl rfl rfl
    · rename_i hfull
      exact h.addTx hfull
  · exact h.of_same rfl rfl rfl rfl rfl rfl

/-- A recheck response keeps the invariant; the element it removes is the cursor's. -/
lemma Inv.resCbRecheck {mem mem' : CListMempool} (h : mem.Inv TxKey cfg) {tx : Bytes}
    {res : ResponseCheckTx} (hre : mem.resCbRecheck TxKey tx res = .ok mem') : mem'.Inv TxKey cfg := by
  unfold CListMempool.resCbRecheck at hre
  split at hre
  · cases hre
    exact h
  · rename_i elem memTx rest hq
    split_ifs at hre with htx hcode
    · cases hre
      exact ⟨h.nodup, h.fresh, h.mapped, h.bytes, h.size_le, h.bytes_le,
        fun x hx => h.queueFresh x (by simp [hq, hx]),
        fun x hx => h.queueAgree x (by simp [hq, hx]), h.config_eq⟩
    · obtain ⟨mem1, hrem, hre⟩ := bind_eq_ok hre
      cases hre
      have hagree : ∀ m, (elem, m) ∈ mem.txs → m.tx = tx := fun m hm => by
        rw [h.queueAgree (elem, memTx) (by simp [hq]) m hm]
        exact (not_not.mp htx).symm
      have h1 := h.removeTx hagree hrem
      have hq1 : mem1.recheckQueue = mem.recheckQueue := by
        unfold CListMempool.removeTx at hrem
        obtain ⟨txs, -, hrem⟩ := bind_eq_ok hrem
        cases hrem
        rfl
      exact ⟨h1.nodup, h1.fresh, h1.mapped, h1.bytes, h1.size_le, h1.bytes_le,
        fun x hx => h1.queueFresh x (by simp [hq1, hq, hx]),
        fun x hx => h1.queueAgree x (by simp [hq1, hq, hx]), h1.config_eq⟩

lemma Inv.globalCb {mem mem' : CListMempool} (h : mem.Inv TxKey cfg) {req : Request}
    {res : ResponseCheckTx} (hg : mem.globalCb TxKey req res = .ok mem') : mem'.Inv TxKey cfg := by
  unfold CListMempool.globalCb at hg
  by_cases hq : mem.recheckQueue = []
  · rw [if_pos hq] at hg
    cases hg
    exact h
  · rw [if_neg hq] at hg
    exact h.resCbRecheck hg

lemma Inv.reqResCb {mem mem' : CListMempool} (h : mem.Inv TxKey cfg) {tx : Bytes}
    {res : ResponseCheckTx} (hr : mem.reqResCb TxKey tx res = .ok mem') : mem'.Inv TxKey cfg := by
  unfold CListMempool.reqResCb at hr
  by_cases hq : mem.recheckQueue ≠ []
  · rw [if_pos hq] at hr
    cases hr
  · rw [if_neg hq] at hr
    cases hr
    exact h.resCbFirstTime tx res

lemma Inv.Respond {mem mem' : CListMempool} (h : mem.Inv TxKey cfg) {res : ResponseCheckTx}
    (hr : mem.Respond TxKey res = .ok mem') : mem'.Inv TxKey cfg := by
  unfold CListMempool.Respond at hr
  split at hr
  · cases hr
    exact h
  · rename_i req rest hp
    obtain ⟨mem1, hg, hr⟩ := bind_eq_ok hr
    have h0 : ({ mem with pending := rest } : CListMempool).Inv TxKey cfg :=
      h.of_same rfl rfl rfl rfl rfl rfl
    have h1 := h0.globalCb hg
    cases req with
    | checkTx tx => exact h1.reqResCb hr
    | recheckTx tx =>
      cases hr
      exact h1

/-- `CheckTx` changes the cache and the requests only. -/
lemma CheckTx_snd (mem : CListMempool) (tx : Bytes) : ∃ cache pending,
    (mem.CheckTx TxKey tx).2 = { mem with cache := cache, pending := pending } := by
  unfold CListMempool.CheckTx
  dsimp only
  split
  · exact ⟨mem.cache, mem.pending, rfl⟩
  · split_ifs
    · exact ⟨mem.cache, mem.pending, rfl⟩
    · exact ⟨_, mem.pending, rfl⟩
    · exact ⟨_, _, rfl⟩

lemma Inv.CheckTx {mem : CListMempool} (h : mem.Inv TxKey cfg) (tx : Bytes) :
    (mem.CheckTx TxKey tx).2.Inv TxKey cfg := by
  obtain ⟨cache, pending, heq⟩ := CheckTx_snd mem tx
  rw [heq]
  exact h.of_same rfl rfl rfl rfl rfl rfl

section Injective

variable (hkey : Function.Injective TxKey)
include hkey

/-- A committed transaction leaves the mempool through its index entry; with distinct keys for
distinct transactions, the element removed holds that very transaction. -/
lemma Inv.updateTx {mem mem' : CListMempool} (h : mem.Inv TxKey cfg) {tx : Bytes} {code : UInt32}
    (hu : mem.updateTx TxKey tx code = .ok mem') : mem'.Inv TxKey cfg := by
  unfold CListMempool.updateTx at hu
  generalize (if code = CodeTypeOK then (mem.cache.Push TxKey tx).2
    else mem.cache.Remove TxKey tx) = cache at hu
  have h0 : ({ mem with cache := cache } : CListMempool).Inv TxKey cfg :=
    h.of_same rfl rfl rfl rfl rfl rfl
  dsimp only at hu
  split at hu
  · rename_i e he
    refine h0.removeTx (fun m hm => ?_) hu
    obtain ⟨m', hm', hk⟩ := h0.mapped _ e he
    rw [h0.val_unique hm hm']
    exact hkey hk
  · cases hu
    exact h0

lemma Inv.updateTxs (codes : List UInt32) : ∀ {mem mem' : CListMempool} {i : Nat}
    {txs : List Bytes}, mem.Inv TxKey cfg → updateTxs TxKey codes mem i txs = .ok mem' →
      mem'.Inv TxKey cfg
  | _, _, _, [], h, hu => by
    cases hu
    exact h
  | _, _, _, _ :: _, h, hu => by
    obtain ⟨_, -, hu⟩ := bind_eq_ok hu
    obtain ⟨_, h1, hu⟩ := bind_eq_ok hu
    exact Inv.updateTxs codes (h.updateTx hkey h1) hu

lemma Inv.Update {mem mem' : CListMempool} (h : mem.Inv TxKey cfg) {height : Int} {txs : List Bytes}
    {codes : List UInt32} (hu : mem.Update TxKey height txs codes = .ok mem') : mem'.Inv TxKey cfg := by
  unfold CListMempool.Update at hu
  obtain ⟨mem1, h1, hu⟩ := bind_eq_ok hu
  have h0 : ({ mem with height := height } : CListMempool).Inv TxKey cfg :=
    h.of_same rfl rfl rfl rfl rfl rfl
  have hm1 := Inv.updateTxs hkey codes h0 h1
  by_cases hre : mem1.Size > 0 ∧ mem1.config.recheck = true
  · rw [if_pos hre] at hu
    exact hm1.recheckTxs hu
  · rw [if_neg hre] at hu
    cases hu
    exact hm1

/-- The step lemma: every event keeps the invariant, unless it panics. -/
lemma Inv.step {mem mem' : CListMempool} (h : mem.Inv TxKey cfg) {ev : Event}
    (hs : step TxKey mem ev = .ok mem') : mem'.Inv TxKey cfg := by
  cases ev with
  | checkTx tx =>
    cases hs
    exact h.CheckTx tx
  | respond res => exact h.Respond hs
  | update height txs codes => exact h.Update hkey hs
  | flush =>
    cases hs
    exact h.Flush

/-- The run lemma. -/
theorem Inv.run : ∀ {mem mem' : CListMempool} {evs : List Event}, mem.Inv TxKey cfg →
    run TxKey mem evs = .ok mem' → mem'.Inv TxKey cfg
  | _, _, [], h, hr => by
    cases hr
    exact h
  | _, _, _ :: _, h, hr => by
    obtain ⟨_, h1, hr⟩ := bind_eq_ok hr
    exact Inv.run (h.step hkey h1) hr

end Injective

/-- Over every run from a new mempool whose limits are not negative, up to a panic, the byte
counter is the sum of the sizes of the transactions in the list, and neither limit is passed. -/
theorem run_limits (hkey : Function.Injective TxKey) {config : MempoolConfig}
    (hsize : 0 ≤ config.size) (hbytes : 0 ≤ config.maxTxsBytes) (height : Int)
    (evs : List Event) {mem : CListMempool}
    (hrun : run TxKey (NewCListMempool config height) evs = .ok mem) :
    mem.txsBytes = (mem.txs.map fun x => (x.2.tx.length : Int)).sum ∧
      mem.Size ≤ config.size ∧ mem.txsBytes ≤ config.maxTxsBytes := by
  have h := (NewCListMempool_inv hsize hbytes height).run hkey hrun
  exact ⟨h.bytes, h.config_eq ▸ h.size_le, h.config_eq ▸ h.bytes_le⟩

/-- Three transactions checked before any response, on a mempool of size two: each passes
`isFull` when checked, and the third is turned away when its response comes. -/
def threeChecks : List Event :=
  [.checkTx [1, 2], .checkTx [3, 4], .checkTx [5], .respond ⟨CodeTypeOK, 0⟩,
    .respond ⟨CodeTypeOK, 0⟩, .respond ⟨CodeTypeOK, 0⟩]

theorem run_limits_threeChecks :
    Function.Injective (id : Bytes → Bytes) ∧ (0 : Int) ≤ 2 ∧ (0 : Int) ≤ 5 ∧
      ∃ mem, run id (NewCListMempool ⟨2, 5, 10, 0, false⟩ 1) threeChecks = .ok mem ∧
        (mem.txsBytes = (mem.txs.map fun x => (x.2.tx.length : Int)).sum ∧
          mem.Size ≤ 2 ∧ mem.txsBytes ≤ 5) ∧
        mem.Size = 2 ∧ mem.txsBytes = 4 := by
  obtain ⟨mem, hrun⟩ : ∃ mem, run id (NewCListMempool ⟨2, 5, 10, 0, false⟩ 1) threeChecks =
      .ok mem := ⟨_, rfl⟩
  refine ⟨Function.injective_id, by decide, by decide, mem, hrun,
    run_limits Function.injective_id (by decide) (by decide) 1 threeChecks hrun, ?_⟩
  cases hrun
  exact ⟨rfl, rfl⟩

/-! ## What the cache lookup lets through -/

lemma run_cons_of_step {mem mem' : CListMempool} {ev : Event} (evs : List Event)
    (hs : step TxKey mem ev = .ok mem') : run TxKey mem (ev :: evs) = run TxKey mem' evs := by
  rw [run, hs, ok_bind]

/-- With a `nopTxCache`, a transaction that fits is always sent to the application. -/
lemma CheckTx_nopTxCache {mem : CListMempool} (hc : mem.cache = .nopTxCache) {tx : Bytes}
    (hfull : mem.isFull tx.length = .ok ()) (hmax : (tx.length : Int) ≤ mem.config.maxTxBytes) :
    mem.CheckTx TxKey tx =
      (.ok (), { mem with cache := .nopTxCache, pending := mem.pending ++ [.checkTx tx] }) := by
  unfold CListMempool.CheckTx
  dsimp only
  rw [hfull]
  simp only [gt_iff_lt, not_lt.mpr hmax, if_false, hc, txCache.Push, Bool.not_true,
    Bool.false_eq_true]

/-- The response to a `CheckTx` request, outside a recheck, is handled by `resCbFirstTime`. -/
lemma Respond_checkTx {mem : CListMempool} {tx : Bytes} {rest : List Request}
    (hp : mem.pending = .checkTx tx :: rest) (hq : mem.recheckQueue = []) (res : ResponseCheckTx) :
    mem.Respond TxKey res =
      .ok (({ mem with pending := rest } : CListMempool).resCbFirstTime TxKey tx res) := by
  unfold CListMempool.Respond
  rw [hp]
  simp only [CListMempool.globalCb, hq, if_true, CListMempool.reqResCb, ne_eq,
    not_true_eq_false, if_false, pure, Except.pure, ok_bind]

/-- An accepted response adds the transaction when the mempool has room for it. -/
lemma resCbFirstTime_ok {mem : CListMempool} {tx : Bytes} (hfull : mem.isFull tx.length = .ok ())
    (gasWanted : Int) :
    mem.resCbFirstTime TxKey tx ⟨CodeTypeOK, gasWanted⟩ = mem.addTx TxKey ⟨mem.height, gasWanted, tx⟩ := by
  unfold CListMempool.resCbFirstTime
  rw [if_pos rfl, hfull]

/-- With `CacheSize ≤ 0`, one transaction checked twice and accepted twice by the application is
in the mempool twice, and the index keeps only the second element. -/
theorem CheckTx_twice_duplicates (config : MempoolConfig) (height : Int) (tx : Bytes)
    (hcache : config.cacheSize ≤ 0) (hsize : 2 ≤ config.size)
    (hbytes : 2 * (tx.length : Int) ≤ config.maxTxsBytes)
    (hmax : (tx.length : Int) ≤ config.maxTxBytes) :
    ∃ mem, run TxKey (NewCListMempool config height)
        [.checkTx tx, .checkTx tx, .respond ⟨CodeTypeOK, 0⟩, .respond ⟨CodeTypeOK, 0⟩] = .ok mem ∧
      mem.txs.map (fun x => TxKey x.2.tx) = [TxKey tx, TxKey tx] ∧
      mem.txsMap (TxKey tx) = some 1 := by
  have hlen : (0 : Int) ≤ tx.length := by positivity
  set mem0 := NewCListMempool config height with hmem0
  have hc0 : mem0.cache = .nopTxCache := by simp [hmem0, NewCListMempool, not_lt.mpr hcache]
  -- the two checks: the mempool is empty, so both pass and both are sent
  have hfull0 : mem0.isFull tx.length = .ok () := by
    refine isFull_eq_ok.mpr ⟨?_, ?_⟩
    · simp only [hmem0, NewCListMempool, Size, List.length_nil, Nat.cast_zero]
      omega
    · simp only [hmem0, NewCListMempool]
      omega
  set mem1 := { mem0 with cache := .nopTxCache, pending := mem0.pending ++ [Request.checkTx tx] }
    with hmem1
  have hfull1 : mem1.isFull tx.length = .ok () := hfull0
  set mem2 := { mem1 with cache := .nopTxCache, pending := mem1.pending ++ [Request.checkTx tx] }
    with hmem2
  -- the two responses: each adds the transaction, the mempool having room for two
  have hfull2 : ({ mem2 with pending := [.checkTx tx] } : CListMempool).isFull tx.length = .ok () :=
    hfull0
  set mem3 := ({ mem2 with pending := [.checkTx tx] } : CListMempool).addTx TxKey
    ⟨height, 0, tx⟩ with hmem3
  have hfull3 : ({ mem3 with pending := [] } : CListMempool).isFull tx.length = .ok () := by
    refine isFull_eq_ok.mpr ⟨?_, ?_⟩
    · simp only [hmem3, hmem2, hmem1, hmem0, CListMempool.addTx, NewCListMempool, Size,
        List.nil_append, List.length_singleton, Nat.cast_one]
      omega
    · simp only [hmem3, hmem2, hmem1, hmem0, CListMempool.addTx, NewCListMempool]
      omega
  set mem4 := ({ mem3 with pending := [] } : CListMempool).addTx TxKey ⟨height, 0, tx⟩ with hmem4
  have hs1 : step TxKey mem0 (.checkTx tx) = .ok mem1 := by
    rw [step, CheckTx_nopTxCache hc0 hfull0 hmax]
    rfl
  have hs2 : step TxKey mem1 (.checkTx tx) = .ok mem2 := by
    rw [step, CheckTx_nopTxCache rfl hfull1 hmax]
    rfl
  have hs3 : step TxKey mem2 (.respond ⟨CodeTypeOK, 0⟩) = .ok mem3 := by
    rw [step, @Respond_checkTx TxKey mem2 tx [Request.checkTx tx] rfl rfl,
      resCbFirstTime_ok hfull2]
    rfl
  have hs4 : step TxKey mem3 (.respond ⟨CodeTypeOK, 0⟩) = .ok mem4 := by
    rw [step, @Respond_checkTx TxKey mem3 tx [] rfl rfl, resCbFirstTime_ok hfull3]
    rfl
  refine ⟨mem4, ?_, ?_, ?_⟩
  · rw [run_cons_of_step _ hs1, run_cons_of_step _ hs2, run_cons_of_step _ hs3,
      run_cons_of_step _ hs4]
    rfl
  · simp [hmem4, hmem3, hmem2, hmem1, hmem0, CListMempool.addTx, NewCListMempool]
  · simp [hmem4, hmem3, hmem2, hmem1, hmem0, CListMempool.addTx, NewCListMempool]

theorem CheckTx_twice_duplicates_identity :
    ∃ mem, run id (NewCListMempool ⟨10, 100, 10, 0, false⟩ 1)
        [.checkTx [7], .checkTx [7], .respond ⟨CodeTypeOK, 0⟩, .respond ⟨CodeTypeOK, 0⟩] = .ok mem ∧
      mem.txs.map (fun x => id x.2.tx) = [id [7], id [7]] ∧ mem.txsMap (id [7]) = some 1 :=
  @CheckTx_twice_duplicates id ⟨10, 100, 10, 0, false⟩ 1 [7] (by decide) (by decide) (by decide)
    (by decide)

end CListMempool

end Key

/-! ## Reaping

`ReapMaxTxs` and `ReapMaxBytesMaxGas` walk the list from the front and stop at the first
transaction they do not take.  `ReapMaxTxs` tests `len(txs) <= max` before it appends, so it
takes one transaction more than `max` (`ReapMaxTxs_eq`).  `ReapMaxBytesMaxGas` keeps its sums in
`int64`, and the sum of the gas the application asked for wraps around. -/

namespace CListMempool

/-- The loop of `ReapMaxTxs`. -/
def reapMaxTxs (max : Int) : List Bytes → List (Nat × mempoolTx) → List Bytes
  | txs, [] => txs
  | txs, e :: rest =>
    if (txs.length : Int) ≤ max then reapMaxTxs max (txs ++ [e.2.tx]) rest else txs

/-- `ReapMaxTxs`: a negative `max` is the length of the list. -/
def ReapMaxTxs (mem : CListMempool) (max : Int) : List Bytes :=
  let max : Int := if max < 0 then mem.txs.length else max
  reapMaxTxs max [] mem.txs

/-- The loop of `ReapMaxBytesMaxGas`, with its two `int64` sums. -/
def reapMaxBytesMaxGas (maxBytes maxGas : Int) :
    Int → Int → List Bytes → List (Nat × mempoolTx) → List Bytes
  | _, _, txs, [] => txs
  | totalBytes, totalGas, txs, e :: rest =>
    if maxBytes > -1 ∧ wrap64 (totalBytes + e.2.tx.length) > maxBytes then txs
    else
      let totalBytes := wrap64 (totalBytes + e.2.tx.length)
      let newTotalGas := wrap64 (totalGas + e.2.gasWanted)
      if maxGas > -1 ∧ newTotalGas > maxGas then txs
      else reapMaxBytesMaxGas maxBytes maxGas totalBytes newTotalGas (txs ++ [e.2.tx]) rest

/-- `ReapMaxBytesMaxGas`. -/
def ReapMaxBytesMaxGas (mem : CListMempool) (maxBytes maxGas : Int) : List Bytes :=
  reapMaxBytesMaxGas maxBytes maxGas 0 0 [] mem.txs

/-- The loop of `ReapMaxTxs` appends to what it has until it holds `max + 1`. -/
lemma reapMaxTxs_eq (max : Int) :
    ∀ (l : List (Nat × mempoolTx)) (txs : List Bytes), (txs.length : Int) ≤ max + 1 →
      reapMaxTxs max txs l = txs ++ (l.map (·.2.tx)).take ((max + 1).toNat - txs.length)
  | [], txs, _ => by simp [reapMaxTxs]
  | e :: rest, txs, h => by
    rw [reapMaxTxs]
    split_ifs with hle
    · -- room for one more: it is appended, and the rest is taken from `rest`
      have hlen : ((txs ++ [e.2.tx]).length : Int) ≤ max + 1 := by simp; omega
      have hn : (max + 1).toNat - txs.length = ((max + 1).toNat - (txs.length + 1)) + 1 := by
        omega
      rw [reapMaxTxs_eq max rest _ hlen, List.length_append, List.length_singleton, hn,
        List.map_cons, List.take_succ_cons, List.append_assoc, List.singleton_append]
    · -- `max + 1` taken: the loop stops
      have hn : (max + 1).toNat - txs.length = 0 := by omega
      rw [hn, List.take_zero, List.append_nil]

/-- What the loop of `ReapMaxBytesMaxGas` has taken stays at the front of what it returns. -/
lemma prefix_reapMaxBytesMaxGas (maxBytes maxGas : Int) :
    ∀ (l : List (Nat × mempoolTx)) (totalBytes totalGas : Int) (txs : List Bytes),
      txs <+: reapMaxBytesMaxGas maxBytes maxGas totalBytes totalGas txs l
  | [], _, _, txs => by simp [reapMaxBytesMaxGas]
  | e :: rest, totalBytes, totalGas, txs => by
    rw [reapMaxBytesMaxGas]
    dsimp only
    split_ifs
    · exact List.prefix_refl txs
    · exact List.prefix_refl txs
    · exact (List.prefix_append txs [e.2.tx]).trans (prefix_reapMaxBytesMaxGas maxBytes maxGas
        rest _ _ _)

/-- `ReapMaxTxs` of a `max` that is not negative returns `max + 1` transactions, when there are
that many. -/
lemma ReapMaxTxs_eq (mem : CListMempool) {max : Int} (hmax : 0 ≤ max) :
    mem.ReapMaxTxs max = (mem.txs.map (·.2.tx)).take (max.toNat + 1) := by
  have h := reapMaxTxs_eq max mem.txs [] (by simp; omega)
  have hn : (max + 1).toNat = max.toNat + 1 := by omega
  simp only [ReapMaxTxs, if_neg (not_lt.mpr hmax)]
  rw [h, List.nil_append, List.length_nil, Nat.sub_zero, hn]

/-- `ReapMaxTxs` returns one transaction more than `max`.  And the gas the application asked
for is summed in `int64`: two transactions whose gas adds up past `MaxInt64` have a negative
sum, so `ReapMaxBytesMaxGas` takes both though their sum is over `maxGas`. -/
theorem Reap_passes_limits :
    (∀ (mem : CListMempool) (max : Int), 0 ≤ max →
      mem.ReapMaxTxs max = (mem.txs.map (·.2.tx)).take (max.toNat + 1)) ∧
    ∀ (mem : CListMempool) (maxGas : Int) (e₁ e₂ : Nat × mempoolTx) (rest : List (Nat × mempoolTx)),
      mem.txs = e₁ :: e₂ :: rest → maxGas ≤ MaxInt64 → 0 ≤ e₁.2.gasWanted →
      e₁.2.gasWanted ≤ maxGas → e₂.2.gasWanted ≤ MaxInt64 →
      MaxInt64 < e₁.2.gasWanted + e₂.2.gasWanted →
      maxGas < e₁.2.gasWanted + e₂.2.gasWanted ∧
        [e₁.2.tx, e₂.2.tx] <+: mem.ReapMaxBytesMaxGas (-1) maxGas := by
  refine ⟨fun mem max hmax => ReapMaxTxs_eq mem hmax, ?_⟩
  intro mem maxGas e₁ e₂ rest htxs hmaxGas h₁ h₁le h₂ hsum
  have hin : InInt64 (0 + e₁.2.gasWanted) := by
    unfold InInt64 MinInt64 MaxInt64 at *
    omega
  have hw₁ : wrap64 (0 + e₁.2.gasWanted) = e₁.2.gasWanted := by
    rw [wrap64_of_mem hin, zero_add]
  -- the second sum wraps to a negative number, under any `maxGas` the first one passes
  have hw₂ : wrap64 (e₁.2.gasWanted + e₂.2.gasWanted) < 0 := by
    rw [wrap64_of_gt hsum (by omega)]
    unfold MaxInt64 at h₂ hmaxGas
    omega
  refine ⟨by omega, ?_⟩
  unfold ReapMaxBytesMaxGas
  rw [htxs, reapMaxBytesMaxGas]
  simp only [gt_iff_lt, lt_self_iff_false, false_and, if_false, hw₁, not_lt.mpr h₁le,
    and_false]
  rw [reapMaxBytesMaxGas]
  simp only [gt_iff_lt, lt_self_iff_false, false_and, if_false, List.nil_append]
  rw [if_neg (by omega)]
  exact prefix_reapMaxBytesMaxGas _ _ _ _ _ _

/-- Two transactions, the second asking for `MaxInt64` gas: `ReapMaxTxs 1` returns both, and
so does `ReapMaxBytesMaxGas` under a gas limit of 10. -/
theorem Reap_passes_limits_twoTxs :
    let mem : CListMempool := { NewCListMempool ⟨10, 100, 10, 0, false⟩ 1 with
      txs := [(0, ⟨1, 5, [1]⟩), (1, ⟨1, MaxInt64, [2]⟩)] }
    mem.ReapMaxTxs 1 = [[1], [2]] ∧ (10 : Int) < 5 + MaxInt64 ∧
      [[1], [2]] <+: mem.ReapMaxBytesMaxGas (-1) 10 :=
  ⟨(Reap_passes_limits.1 _ 1 (by decide)).trans rfl,
    Reap_passes_limits.2 _ 10 (0, ⟨1, 5, [1]⟩) (1, ⟨1, MaxInt64, [2]⟩) [] rfl (by decide)
      (by decide) (by decide) (by decide) (by decide)⟩

end CListMempool

end Mempool

end Tendermint
