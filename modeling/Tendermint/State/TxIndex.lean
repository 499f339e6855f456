import Mathlib.Logic.Encodable.Basic
import Tendermint.Libs.Query
import Tendermint.Lib.Except
import Tendermint.Lib.Varint

/-!
# The key-value transaction indexer (state/txindex/kv)

`Index` stores a transaction result under its hash and, for the search, one key per indexed
event attribute, `type.key/value/height/index`, and one per height,
`tx.height/height/height/index`, each holding the hash.  `Search` answers a query from those
keys: a `tx.hash` condition is looked up directly; the range conditions on one key are folded
into one `queryRange` and read by a scan of the key's prefix; every other condition is read by
a prefix scan; and the sets of hashes are intersected.

The database is any tm-db database (`BytesDB`), of which the model uses the contract only; a scan
is its prefix iteration (`KVStore.DB.IteratePrefix`), and since every scan only fills a Go map
of hashes, the order of the iteration does not matter.  The hash of a transaction (`TxHash`) and the proto
encoding of a result (`TxCodec`) are parameters, each a structure with the one property the
indexer relies on.  The context is taken as never cancelled.

What a search should return is stated by `ev`, the events of a result as the query language
sees them.  `Search_lastLowerBound` shows that two lower bounds on one key are answered by the
last one alone: in a database holding one result with `acc.n = 3`, the query
`acc.n > 5 AND acc.n > 1` returns it, and `Matches` rejects it.
-/

namespace Tendermint.TxIndex

open Query

variable {σ : Type}

structure EventAttribute where
  Key : Bytes
  Value : Bytes
  Index : Bool
  deriving DecidableEq, Repr

/-- `abci.Event`. -/
structure AbciEvent where
  «Type» : Bytes
  Attributes : List EventAttribute
  deriving DecidableEq, Repr

/-- `abci.TxResult`, with the events of its `Result`, the one part of it the indexer reads. -/
structure TxResult where
  Height : Int
  Index : Nat
  Tx : Bytes
  Events : List AbciEvent
  deriving DecidableEq, Repr

/-- `types.Tx(tx).Hash()`: a hash that is never empty. -/
structure TxHash where
  Hash : Bytes → Bytes
  Hash_ne_nil : ∀ tx, Hash tx ≠ []

/-- `proto.Marshal` and `proto.Unmarshal` of a `TxResult`: what is marshalled unmarshals. -/
structure TxCodec where
  Marshal : TxResult → Bytes
  Unmarshal : Bytes → Except String TxResult
  Unmarshal_Marshal : ∀ r, Unmarshal (Marshal r) = .ok r

/-- The key-value store, whose states are `σ`. -/
abbrev DB (σ : Type) := BytesDB σ Bytes

/-- `types.TxHashKey`. -/
def TxHashKey : Bytes := goString "tx.hash"

/-- `types.TxHeightKey`. -/
def TxHeightKey : Bytes := goString "tx.height"

/-- `tagKeySeparator`. -/
def tagKeySeparator : Bytes := goString "/"

/-- `%d` of an integer. -/
def fmtD (n : Int) : Bytes := goString (toString n)

/-- `%X` of bytes: two upper-case hex digits a byte. -/
def hexUpper (b : Bytes) : Bytes :=
  b.flatMap fun x => [hexDigit (x.toNat / 16), hexDigit (x.toNat % 16)]
where
  hexDigit (d : Nat) : UInt8 := if d < 10 then (48 + d).toUInt8 else (55 + d).toUInt8

@[simp] lemma hexUpper_cons (x : UInt8) (b : Bytes) :
    hexUpper (x :: b) =
      hexUpper.hexDigit (x.toNat / 16) :: hexUpper.hexDigit (x.toNat % 16) :: hexUpper b := rfl

/-! ## Keys -/

def isTagKey (key : Bytes) : Bool := key.count 47 == 3

/-- `strings.SplitN(key, "/", 3)[1]`, on a key with a separator. -/
def extractValueFromKey (key : Bytes) : Bytes :=
  ((key.dropWhile (· != 47)).drop 1).takeWhile (· != 47)

def keyForEvent (key value : Bytes) (result : TxResult) : Bytes :=
  key ++ tagKeySeparator ++ value ++ tagKeySeparator ++ fmtD result.Height ++ tagKeySeparator ++
    fmtD result.Index

def keyForHeight (result : TxResult) : Bytes :=
  TxHeightKey ++ tagKeySeparator ++ fmtD result.Height ++ tagKeySeparator ++
    fmtD result.Height ++ tagKeySeparator ++ fmtD result.Index

/-- `startKey(fields...)`: each field, `%v`-formatted, followed by the separator. -/
def startKey (fields : List Bytes) : Bytes := (fields.map (· ++ tagKeySeparator)).flatten

/-- `%v` of an operand. -/
def fmtV : Operand → Bytes
  | .str s => s
  | .int n => fmtD n
  | .nil => goString "<nil>"

def startKeyForCondition (c : Condition) (height : Int) : Bytes :=
  if height > 0 then startKey [c.CompositeKey, fmtV c.Operand, fmtD height]
  else startKey [c.CompositeKey, fmtV c.Operand]

/-! ## Indexing -/

section Indexing

variable (txHash : TxHash) (codec : TxCodec)

/-- `indexEvents`: one key per attribute marked for indexing, of an event with a type. -/
def indexEvents (result : TxResult) (hash : Bytes) (store : DB σ) : DB σ :=
  result.Events.foldl (fun store event =>
    if event.«Type».length = 0 then store
    else event.Attributes.foldl (fun store attr =>
      if attr.Key.length = 0 then store
      else
        let compositeTag := event.«Type» ++ goString "." ++ attr.Key
        if attr.Index then store.Set (keyForEvent compositeTag attr.Value result) hash
        else store) store) store

def Index (store : DB σ) (result : TxResult) : DB σ :=
  let hash := txHash.Hash result.Tx
  let store := indexEvents result hash store
  let store := store.Set (keyForHeight result) hash
  store.Set hash (codec.Marshal result)

/-- `AddBatch`: each result indexed in turn. -/
def AddBatch (store : DB σ) (ops : List TxResult) : DB σ := ops.foldl (Index txHash codec) store

/-- `Get`: the result stored under a hash. -/
def Get (store : DB σ) (hash : Bytes) : Except String (Option TxResult) :=
  if hash.length = 0 then throw "transaction hash cannot be empty"
  else match store.Get hash with
    | none => pure none
    | some rawBytes =>
      match codec.Unmarshal rawBytes with
      | .error e => throw ("error reading TxResult: " ++ e)
      | .ok txResult => pure (some txResult)

/-- The result indexed last is found under its hash. -/
theorem Get_Index (store : DB σ) (r : TxResult) :
    Get codec (Index txHash codec store r) (txHash.Hash r.Tx) = .ok (some r) := by
  have hne : (txHash.Hash r.Tx).length ≠ 0 := by simpa using txHash.Hash_ne_nil r.Tx
  rw [Get, if_neg hne]
  simp [Index, codec.Unmarshal_Marshal]
  rfl

end Indexing

/-! ## Searching -/

/-- The hexadecimal value of a digit, upper or lower case. -/
def fromHexChar (c : UInt8) : Option Nat :=
  if 48 ≤ c ∧ c ≤ 57 then some (c.toNat - 48)
  else if 97 ≤ c ∧ c ≤ 102 then some (c.toNat - 87)
  else if 65 ≤ c ∧ c ≤ 70 then some (c.toNat - 55)
  else none

/-- `hex.DecodeString`: pairs of hex digits; an invalid byte is reported before an odd
length. -/
def hexDecode : Bytes → Except String Bytes
  | [] => pure []
  | [a] => match fromHexChar a with
    | none => throw ("encoding/hex: invalid byte: " ++ showBytes [a])
    | some _ => throw "encoding/hex: odd length hex string"
  | a :: b :: rest =>
    match fromHexChar a, fromHexChar b with
    | some x, some y => do
      let tail ← hexDecode rest
      pure ((16 * x + y).toUInt8 :: tail)
    | none, _ => throw ("encoding/hex: invalid byte: " ++ showBytes [a])
    | some _, none => throw ("encoding/hex: invalid byte: " ++ showBytes [b])

lemma fromHexChar_hexDigit : ∀ d, d < 16 → fromHexChar (hexUpper.hexDigit d) = some d := by
  decide

/-- The panic of a failed `.(string)` or `.(int64)` type assertion. -/
def interfaceConversion : String := "interface conversion: interface \x7b\x7d is not the asserted type"

/-- `lookForHash`: the first `tx.hash` condition, its operand decoded from hex. -/
def lookForHash : List Condition → Go (Option (Except String Bytes))
  | [] => pure none
  | c :: cs =>
    if c.CompositeKey = TxHashKey then
      match c.Operand with
      | .str s => pure (some (hexDecode s))
      | _ => throw (.panic interfaceConversion)
    else lookForHash cs

/-- `lookForHeight`: the operand of the first `tx.height = h` condition, or `0`. -/
def lookForHeight : List Condition → Go Int
  | [] => pure 0
  | c :: cs =>
    if c.CompositeKey = TxHeightKey ∧ c.Op = .OpEqual then
      match c.Operand with
      | .int h => pure h
      | _ => throw (.panic interfaceConversion)
    else lookForHeight cs

structure queryRange where
  lowerBound : Option Operand
  upperBound : Option Operand
  key : Bytes
  includeLowerBound : Bool
  includeUpperBound : Bool
  deriving DecidableEq, Repr

/-- An operand stored in an `interface{}` field: `nil` stays absent. -/
def iface : Operand → Option Operand
  | .nil => none
  | o => some o

/-- `lowerBoundValue`: an exclusive bound moves up by one, with `int64` wrap-around. -/
def queryRange.lowerBoundValue (r : queryRange) : Go (Option Operand) :=
  match r.lowerBound with
  | none => pure none
  | some b =>
    if r.includeLowerBound then pure (some b)
    else match b with
      | .int t => pure (some (.int (wrap64 (t + 1))))
      | _ => throw (.panic "not implemented")

/-- `upperBoundValue`: an exclusive bound moves down by one, with `int64` wrap-around. -/
def queryRange.upperBoundValue (r : queryRange) : Go (Option Operand) :=
  match r.upperBound with
  | none => pure none
  | some b =>
    if r.includeUpperBound then pure (some b)
    else match b with
      | .int t => pure (some (.int (wrap64 (t - 1))))
      | _ => throw (.panic "not implemented")

def queryRange.AnyBound (r : queryRange) : Option Operand :=
  match r.lowerBound with
  | some b => some b
  | none => r.upperBound

def isRangeOperation : Operator → Bool
  | .OpGreater | .OpGreaterEqual | .OpLess | .OpLessEqual => true
  | _ => false

/-- One condition of `lookForRanges`, the `i`-th: a range condition updates its key's range. -/
def addRange (acc : GoMap.Map Bytes queryRange × List Nat) (ci : Condition × Nat) :
    GoMap.Map Bytes queryRange × List Nat :=
  let (ranges, indexes) := acc
  let (c, i) := ci
  if isRangeOperation c.Op then
    let r := (ranges.lookup c.CompositeKey).getD
      { key := c.CompositeKey, lowerBound := none, upperBound := none,
        includeLowerBound := false, includeUpperBound := false }
    -- the last bound of each side wins; an inclusive flag, once set, stays
    let r := match c.Op with
      | .OpGreater => { r with lowerBound := iface c.Operand }
      | .OpGreaterEqual => { r with includeLowerBound := true, lowerBound := iface c.Operand }
      | .OpLess => { r with upperBound := iface c.Operand }
      | .OpLessEqual => { r with includeUpperBound := true, upperBound := iface c.Operand }
      | _ => r
    (ranges.insert c.CompositeKey r, indexes ++ [i])
  else (ranges, indexes)

def lookForRanges (conditions : List Condition) : GoMap.Map Bytes queryRange × List Nat :=
  (conditions.zipIdx).foldl addRange (∅, [])

/-- The hashes a scan collects, each under itself. -/
def collectHashes (entries : List (Bytes × Bytes)) : GoMap.Map Bytes Bytes :=
  entries.foldl (fun tmp e => tmp.insert e.2 e.2) ∅

/-- The intersection step shared by `match` and `matchRange`. -/
def intersect (filteredHashes tmpHashes : GoMap.Map Bytes Bytes) (firstRun : Bool) :
    GoMap.Map Bytes Bytes :=
  if tmpHashes.entries.length = 0 || firstRun then tmpHashes
  else GoMap.filterKeys filteredHashes fun k => (tmpHashes.lookup k).isSome

/-- The first scan of a search starts the set of hashes. -/
lemma intersect_firstRun (filteredHashes tmpHashes : GoMap.Map Bytes Bytes) :
    intersect filteredHashes tmpHashes true = tmpHashes := by
  simp [intersect]

section Search

variable (txHash : TxHash) (codec : TxCodec) (store : DB σ)

/-- The hashes one non-range condition selects. -/
def matchHashes (c : Condition) (startKeyBz : Bytes) : Go (GoMap.Map Bytes Bytes) :=
  match c.Op with
  | .OpEqual => pure (collectHashes (store.IteratePrefix startKeyBz))
  | .OpExists => pure (collectHashes (store.IteratePrefix (startKey [c.CompositeKey])))
  | .OpContains =>
    match c.Operand with
    | .str s => pure (collectHashes ((store.IteratePrefix (startKey [c.CompositeKey])).filter
        fun e => isTagKey e.1 && stringsContains (extractValueFromKey e.1) s))
    | _ => throw (.panic interfaceConversion)
  | _ => throw (.panic "other operators should be handled already")

/-- `TxIndex.match`. -/
def match_ (c : Condition) (startKeyBz : Bytes) (filteredHashes : GoMap.Map Bytes Bytes)
    (firstRun : Bool) : Go (GoMap.Map Bytes Bytes) :=
  if !firstRun && filteredHashes.entries.length = 0 then pure filteredHashes
  else do
    let tmpHashes ← matchHashes store c startKeyBz
    pure (intersect filteredHashes tmpHashes firstRun)

/-- Whether a scanned value lies within the bounds, both `int64`. -/
def inBounds (lowerBound upperBound : Option Operand) (v : Int) : Go Bool := do
  let aboveLower ← match lowerBound with
    | none => pure true
    | some (.int l) => pure (decide (l ≤ v))
    | some _ => throw (.panic interfaceConversion)
  let belowUpper ← match upperBound with
    | none => pure true
    | some (.int u) => pure (decide (v ≤ u))
    | some _ => throw (.panic interfaceConversion)
  pure (aboveLower && belowUpper)

/-- The body of the loop of `matchRange` at one entry: whether its hash is collected. -/
def rangeIncludes (r : queryRange) (lowerBound upperBound : Option Operand)
    (e : Bytes × Bytes) : Go Bool :=
  if !isTagKey e.1 then pure false
  else match r.AnyBound with
    | some (.int _) =>
      match parseInt (extractValueFromKey e.1) with
      | .error _ => pure false
      | .ok v => inBounds lowerBound upperBound v
    | _ => pure false

/-- A range scan reads the keys only. -/
lemma rangeIncludes_key (r : queryRange) (lowerBound upperBound : Option Operand)
    (e : Bytes × Bytes) :
    rangeIncludes r lowerBound upperBound e = rangeIncludes r lowerBound upperBound (e.1, []) :=
  rfl

/-- `TxIndex.matchRange`. -/
def matchRange (r : queryRange) (startKeyBz : Bytes) (filteredHashes : GoMap.Map Bytes Bytes)
    (firstRun : Bool) : Go (GoMap.Map Bytes Bytes) :=
  if !firstRun && filteredHashes.entries.length = 0 then pure filteredHashes
  else do
    let lowerBound ← r.lowerBoundValue
    let upperBound ← r.upperBoundValue
    let hits ← (store.IteratePrefix startKeyBz).filterM (rangeIncludes r lowerBound upperBound)
    pure (intersect filteredHashes (collectHashes hits) firstRun)

/-- The loop of `Search` over the ranges: the first scan starts the set, an empty set stops. -/
def rangesLoop : List (Σ _ : Bytes, queryRange) → Bool × GoMap.Map Bytes Bytes →
    Go (Bool × GoMap.Map Bytes Bytes)
  | [], st => pure st
  | e :: rs, (hashesInitialized, filteredHashes) =>
    if !hashesInitialized then do
      let filteredHashes ← matchRange store e.2 (startKey [e.2.key]) filteredHashes true
      if filteredHashes.entries.length = 0 then pure (true, filteredHashes)
      else rangesLoop rs (true, filteredHashes)
    else do
      let filteredHashes ← matchRange store e.2 (startKey [e.2.key]) filteredHashes false
      rangesLoop rs (true, filteredHashes)

/-- The loop of `Search` over the other conditions, skipping those at `skipIndexes`. -/
def conditionsLoop (skipIndexes : List Nat) (height : Int) :
    List (Condition × Nat) → Bool × GoMap.Map Bytes Bytes → Go (Bool × GoMap.Map Bytes Bytes)
  | [], st => pure st
  | (c, i) :: cs, (hashesInitialized, filteredHashes) =>
    if i ∈ skipIndexes then conditionsLoop skipIndexes height cs (hashesInitialized, filteredHashes)
    else if !hashesInitialized then do
      let filteredHashes ← match_ store c (startKeyForCondition c height) filteredHashes true
      if filteredHashes.entries.length = 0 then pure (true, filteredHashes)
      else conditionsLoop skipIndexes height cs (true, filteredHashes)
    else do
      let filteredHashes ← match_ store c (startKeyForCondition c height) filteredHashes false
      conditionsLoop skipIndexes height cs (true, filteredHashes)

/-- The conditions folded into ranges are not read again: a loop over skipped conditions keeps
the hashes it starts with. -/
lemma conditionsLoop_skipped (skipIndexes : List Nat) (height : Int) :
    ∀ (cs : List (Condition × Nat)) st, (∀ c ∈ cs, c.2 ∈ skipIndexes) →
      conditionsLoop store skipIndexes height cs st = .ok st
  | [], _, _ => rfl
  | (c, i) :: cs, (hashesInitialized, filteredHashes), h => by
    rw [conditionsLoop, if_pos (h _ List.mem_cons_self)]
    exact conditionsLoop_skipped skipIndexes height cs _ fun c hc => h c (List.mem_cons_of_mem _ hc)

/-- The results of the hashes a search selects; a hash with no result gives `nil`. -/
def getResults : List (Σ _ : Bytes, Bytes) → Go (List (Option TxResult))
  | [] => pure []
  | e :: es =>
    match Get codec store e.2 with
    | .error err => throw (.err ("failed to get Tx\x7b" ++ showBytes (hexUpper e.2) ++ "\x7d: " ++
        err))
    | .ok res => do
      let rest ← getResults es
      pure (res :: rest)

/-- `TxIndex.Search`, for a query given by its conditions and a context never cancelled. -/
def Search (conditions : List Condition) : Go (List (Option TxResult)) := do
  match ← lookForHash conditions with
  | some (.error err) =>
    throw (.err ("error during searching for a hash in the query: " ++ err))
  | some (.ok hash) =>
    -- a hash condition answers the query at once
    match Get codec store hash with
    | .error err => throw (.err ("error while retrieving the result: " ++ err))
    | .ok none => pure []
    | .ok (some res) => pure [some res]
  | none =>
    let (ranges, rangeIndexes) := lookForRanges conditions
    let skipIndexes := if ranges.entries.length > 0 then rangeIndexes else []
    let st ← rangesLoop store ranges.entries (false, ∅)
    let height ← lookForHeight conditions
    let (_, filteredHashes) ← conditionsLoop store skipIndexes height (conditions.zipIdx) st
    getResults codec store filteredHashes.entries

end Search

/-! ## What a search should answer -/

/-- The events of a result as a query sees them: every indexed attribute under
`type.key`, with the values in order, and the result's height and hash. -/
def ev (txHash : TxHash) (r : TxResult) : GoMap.Map Bytes (List Bytes) :=
  let attrs : GoMap.Map Bytes (List Bytes) := r.Events.foldl (fun m event =>
    event.Attributes.foldl (fun m attr =>
      if attr.Index then
        let key := event.«Type» ++ goString "." ++ attr.Key
        m.insert key ((m.lookup key).getD [] ++ [attr.Value])
      else m) m) ∅
  (attrs.insert TxHeightKey [fmtD r.Height]).insert TxHashKey [hexUpper (txHash.Hash r.Tx)]

/-! ## Two lower bounds on one key -/

/-- A result at height 1, index 0, whose one indexed attribute is `acc.n = 3`. -/
def accResult : TxResult :=
  ⟨1, 0, [1], [⟨goString "acc", [⟨goString "n", goString "3", true⟩]⟩]⟩

/-- The query `acc.n > 5 AND acc.n > 1`. -/
def twoLowerBounds : List Condition :=
  [⟨goString "acc.n", .OpGreater, .int 5⟩, ⟨goString "acc.n", .OpGreater, .int 1⟩]

section Divergence

variable (txHash : TxHash) (codec : TxCodec)

/-- `lookForRanges` keeps the last of two lower bounds on a key: in any database that holds
`accResult` alone, `acc.n > 5 AND acc.n > 1` is answered as `acc.n > 1` and returns the result,
which `Matches` rejects since 3 is not above 5.  The one assumption on the hash is that the scan
of `acc.n/` does not reach the key it stores the result under. -/
theorem Search_lastLowerBound (store : DB σ) (hempty : ∀ k, store.Get k = none)
    (hh : ¬ startKey [goString "acc.n"] <+: txHash.Hash accResult.Tx) :
    Search codec (Index txHash codec store accResult) twoLowerBounds = .ok [some accResult] ∧
      Matches twoLowerBounds (ev txHash accResult) = .ok false := by
  set hash := txHash.Hash accResult.Tx
  set accKey := keyForEvent (goString "acc.n") (goString "3") accResult with haccKey
  have hindex : Index txHash codec store accResult =
      ((store.Set accKey hash).Set (keyForHeight accResult) hash).Set hash
        (codec.Marshal accResult) := by
    have hacc : goString "acc" ≠ [] := by decide +kernel
    have hn : goString "n" ≠ [] := by decide +kernel
    have hkey : goString "acc" ++ (goString "." ++ goString "n") = goString "acc.n" := by
      decide +kernel
    simp [Index, indexEvents, accResult, hacc, hn, hkey]
    rfl
  have hpre : startKey [goString "acc.n"] <+: accKey := by decide +kernel
  -- the scan of acc.n/ finds the one attribute key, by the contract of the database
  have hscan : (Index txHash codec store accResult).IteratePrefix (startKey [goString "acc.n"]) =
      [(accKey, hash)] := by
    have hheight : ¬ startKey [goString "acc.n"] <+: keyForHeight accResult := by decide +kernel
    have hne_hash : accKey ≠ hash := fun h => hh (h ▸ hpre)
    have hne_height : accKey ≠ keyForHeight accResult := fun h => hheight (h ▸ hpre)
    refine KVStore.DB.IteratePrefix_eq (fun _ _ => bytesLt_asymm) _ _ (List.pairwise_singleton _ _)
      fun k v => ?_
    rw [hindex, List.mem_singleton, Prod.mk.injEq]
    simp only [KVStore.DB.Get_Set, hempty]
    by_cases hk : k = accKey
    · simp [hk, hne_hash, hne_height, hpre, eq_comm]
    · simp only [hk, false_and, false_iff, not_and]
      intro hp
      have h1 : k ≠ hash := fun h => hh (h ▸ hp)
      have h2 : k ≠ keyForHeight accResult := fun h => hheight (h ▸ hp)
      simp [h1, h2]
  constructor
  · have hlook : lookForHash twoLowerBounds = .ok none := by decide +kernel
    have hheight : lookForHeight twoLowerBounds = .ok 0 := by decide +kernel
    have hranges : lookForRanges twoLowerBounds =
        ((∅ : GoMap.Map Bytes queryRange).insert (goString "acc.n")
          ⟨some (.int 1), none, goString "acc.n", false, false⟩, [0, 1]) := by
      refine Prod.ext (AList.ext ?_) ?_ <;> decide +kernel
    rw [Search, hlook, ExceptRun.ok_bind]
    dsimp only
    rw [hranges]
    dsimp only
    have hloop : rangesLoop (Index txHash codec store accResult)
        ((∅ : GoMap.Map Bytes queryRange).insert (goString "acc.n")
          ⟨some (.int 1), none, goString "acc.n", false, false⟩).entries (false, ∅) =
        .ok (true, collectHashes [(accKey, hash)]) := by
      -- the key holds 3, within the bounds [2, ∞) of the last lower bound
      have hinc : rangeIncludes ⟨some (.int 1), none, goString "acc.n", false, false⟩
          (some (.int 2)) none (accKey, hash) = .ok true := by
        rw [rangeIncludes_key, haccKey]
        dsimp only
        decide +kernel
      have hwrap : wrap64 2 = 2 := by decide
      simp [rangesLoop, matchRange, queryRange.lowerBoundValue, queryRange.upperBoundValue, hscan,
        hwrap, List.filterM, List.filterAuxM, hinc, intersect_firstRun]
    rw [hloop, ExceptRun.ok_bind, hheight, ExceptRun.ok_bind,
      conditionsLoop_skipped _ _ _ _ _ (by decide), ExceptRun.ok_bind]
    show getResults codec _ [⟨hash, hash⟩] = _
    rw [getResults, Get_Index]
    rfl
  · have hev : (ev txHash accResult).lookup (goString "acc.n") = some [goString "3"] := by
      rw [ev, AList.lookup_insert_ne (by decide +kernel), AList.lookup_insert_ne (by decide +kernel)]
      decide +kernel
    have hlen : (ev txHash accResult).entries.length ≠ 0 := by simp [ev, AList.entries_insert]
    -- the first condition fails already: 3 is not above 5
    have hfirst : matchAttr (goString "acc.n") .OpGreater (.int 5) (ev txHash accResult) =
        .ok false := by
      rw [matchAttr, hev]
      decide +kernel
    rw [Matches, if_neg hlen, twoLowerBounds, matchConditions]
    simp [hfirst]
    rfl

instance uint8Encodable : Encodable UInt8 :=
  Encodable.ofEquiv (Fin 256) ⟨UInt8.toFin, UInt8.ofFin, fun _ => rfl, fun _ => rfl⟩

/-- A result as the tuple of its fields. -/
def txResultEquiv : TxResult ≃ Int × Nat × Bytes × List (Bytes × List (Bytes × Bytes × Bool)) where
  toFun r := (r.Height, r.Index, r.Tx,
    r.Events.map fun e => (e.«Type», e.Attributes.map fun a => (a.Key, a.Value, a.Index)))
  invFun x := ⟨x.1, x.2.1, x.2.2.1, x.2.2.2.map fun e => ⟨e.1, e.2.map fun a => ⟨a.1, a.2.1, a.2.2⟩⟩⟩
  left_inv r := by simp [Function.comp_def]
  right_inv x := by simp [Function.comp_def]

instance txResultEncodable : Encodable TxResult := Encodable.ofEquiv _ txResultEquiv

/-- A codec that round-trips: the result's `Encodable` code, as one varint. -/
def varintCodec : TxCodec where
  Marshal r := Varint.encode (Encodable.encode r)
  Unmarshal b := match Varint.decode b with
    | some (n, []) => match Encodable.decode n with
      | some r => .ok r
      | none => .error "unknown code"
    | _ => .error "not one varint"
  Unmarshal_Marshal r := by
    rw [← List.append_nil (Varint.encode _), Varint.decode_encode_append]
    simp only [Encodable.encodek]

/-- A hash whose values start with the byte `0xFF`, which no key of an event starts with. -/
def tagHash : TxHash := ⟨fun tx => 255 :: tx, fun _ => List.cons_ne_nil _ _⟩

theorem Search_lastLowerBound_memDB :
    (∀ k, (NewMemDB Bytes).Get k = none) ∧
      ¬ startKey [goString "acc.n"] <+: tagHash.Hash accResult.Tx ∧
      Search varintCodec (Index tagHash varintCodec (NewMemDB Bytes) accResult) twoLowerBounds =
        .ok [some accResult] ∧
      Matches twoLowerBounds (ev tagHash accResult) = .ok false :=
  have hempty : ∀ k, (NewMemDB Bytes).Get k = none := KVStore.DB.Get_emptyAList _ _ _
  have hh : ¬ startKey [goString "acc.n"] <+: tagHash.Hash accResult.Tx := by decide +kernel
  ⟨hempty, hh, Search_lastLowerBound tagHash varintCodec _ hempty hh⟩

end Divergence

end Tendermint.TxIndex
