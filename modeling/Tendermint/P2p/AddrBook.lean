import Tendermint.Lib.GoMap
import Tendermint.Lib.Except
import Tendermint.Types.Vote

/-!
# The address book of the peer exchange (`p2p/pex/addrbook.go`)

The address book keeps the addresses a node has heard of in buckets: up to four "new" buckets
per address until a connection to it succeeds (`MarkGood`), then one "old" bucket.  Each
`knownAddress` records its buckets (`Buckets`) and its kind (`BucketType`); the book indexes
them by node ID in `addrLookup`, keeps banned ones in `badPeers`, counts them in `nNew` and
`nOld`, and refuses the IDs in `privateIDs` and its own addresses in `ourAddrs`.

A `knownAddress` is a pointer shared by `addrLookup`, the buckets and `badPeers`; the model keeps
every one ever made in `kas`, and the maps hold indices into it.  The bucket hashes are
arbitrary functions into the range of bucket indices, an address's validity and routability
are parameters, `now` is the time, and the draw of `rand.Int31n` is an argument.  Go maps have
no order: the list order of a bucket's entries stands for the order `pickOldest` and
`expireNew` see.

`addAddress` refuses a private ID, but `AddPrivateIDs` only records the IDs and evicts none,
and `AddOurAddress` the same for the node's own addresses:

* **`AddPrivateIDs_keeps_address`** — from the empty book, every address that `AddAddress`
  accepts is still in `addrLookup` after its ID is made private.
-/

namespace Tendermint

namespace pex

open GoMap ExceptRun

/-- A node ID. -/
abbrev ID := String

/-- `newBucketSize`. -/
def newBucketSize : Nat := 64

/-- `newBucketCount`. -/
def newBucketCount : Nat := 256

/-- `oldBucketSize`. -/
def oldBucketSize : Nat := 64

/-- `oldBucketCount`. -/
def oldBucketCount : Nat := 64

/-- `maxNewBucketsPerAddress`. -/
def maxNewBucketsPerAddress : Nat := 4

/-- `numMissingDays`. -/
def numMissingDays : Int := 7

/-- `numRetries`. -/
def numRetries : Int := 3

/-- `maxFailures`. -/
def maxFailures : Int := 10

/-- `minBadDays`. -/
def minBadDays : Int := 7

/-- A minute, times being counted in nanoseconds as Go's durations are. -/
def minute : Time := 60 * 1000000000

/-- A day. -/
def day : Time := 24 * 60 * minute

/-- `p2p.NetAddress`; the IP is the text it prints as. -/
structure NetAddress where
  ID : ID
  IP : String
  Port : UInt16
  deriving DecidableEq, Repr

/-- `net.JoinHostPort`: an IPv6 host goes in brackets. -/
def JoinHostPort (host port : String) : String :=
  if host.contains ':' then "[" ++ host ++ "]:" ++ port else host ++ ":" ++ port

/-- `NetAddress.DialString`. -/
def NetAddress.DialString (na : NetAddress) : String := JoinHostPort na.IP (toString na.Port.toNat)

/-- `NetAddress.String`: `ID@host:port`, or the dial string without an ID. -/
def NetAddress.String (na : NetAddress) : String :=
  if na.ID ≠ "" then na.ID ++ "@" ++ na.DialString else na.DialString

/-- `bucketTypeNew` and `bucketTypeOld`. -/
inductive BucketType where
  | bucketTypeNew
  | bucketTypeOld
  deriving DecidableEq, Repr

/-- `knownAddress`; a time of `0` is Go's zero time. -/
structure knownAddress where
  Addr : NetAddress
  Src : NetAddress
  Buckets : List Nat
  Attempts : Int
  BucketType : BucketType
  LastAttempt : Time
  LastSuccess : Time
  LastBanTime : Time
  deriving DecidableEq, Repr

/-- `newKnownAddress`. -/
def newKnownAddress (addr src : NetAddress) (now : Time) : knownAddress :=
  ⟨addr, src, [], 0, .bucketTypeNew, now, 0, 0⟩

namespace knownAddress

/-- `ID`. -/
def ID (ka : knownAddress) : pex.ID := ka.Addr.ID

/-- `isOld`. -/
def isOld (ka : knownAddress) : Bool := ka.BucketType = .bucketTypeOld

/-- `isNew`. -/
def isNew (ka : knownAddress) : Bool := ka.BucketType = .bucketTypeNew

/-- `markAttempt`. -/
def markAttempt (ka : knownAddress) (now : Time) : knownAddress :=
  { ka with LastAttempt := now, Attempts := ka.Attempts + 1 }

/-- `markGood`. -/
def markGood (ka : knownAddress) (now : Time) : knownAddress :=
  { ka with LastAttempt := now, Attempts := 0, LastSuccess := now }

/-- `ban`. -/
def ban (ka : knownAddress) (now banTime : Time) : knownAddress :=
  if ka.LastBanTime < now + banTime then { ka with LastBanTime := now + banTime } else ka

/-- `isBanned`. -/
def isBanned (ka : knownAddress) (now : Time) : Bool := ka.LastBanTime > now

/-- `addBucketRef`: the number of buckets after adding one, or `-1` when it is there. -/
def addBucketRef (ka : knownAddress) (bucketIdx : Nat) : Int × knownAddress :=
  if bucketIdx ∈ ka.Buckets then (-1, ka)
  else (ka.Buckets.length + 1, { ka with Buckets := ka.Buckets ++ [bucketIdx] })

/-- `removeBucketRef`: the number of buckets left, or `-1` when it was not there. -/
def removeBucketRef (ka : knownAddress) (bucketIdx : Nat) : Int × knownAddress :=
  let buckets := ka.Buckets.filter (· ≠ bucketIdx)
  if (buckets.length : Int) ≠ ka.Buckets.length - 1 then (-1, ka)
  else (buckets.length, { ka with Buckets := buckets })

@[simp] lemma addBucketRef_Addr (ka : knownAddress) (i : Nat) :
    (ka.addBucketRef i).2.Addr = ka.Addr := by
  unfold addBucketRef
  split_ifs <;> rfl

/-- `isBad`. -/
def isBad (ka : knownAddress) (now : Time) : Bool :=
  if ka.BucketType = .bucketTypeOld then false
  -- attempted in the last minute
  else if ka.LastAttempt > now - minute then false
  else if ka.LastAttempt < now - numMissingDays * day then true
  -- never succeeded
  else if ka.LastSuccess = 0 ∧ ka.Attempts ≥ numRetries then true
  else if ka.LastSuccess < now - minBadDays * day ∧ ka.Attempts ≥ maxFailures then true
  else false

end knownAddress

/-- The errors of the book, by their Go types, and a panic. -/
inductive AddrBookError where
  | ErrAddrBookInvalidAddr (Addr : NetAddress) (AddrErr : String)
  | ErrAddressBanned (Addr : NetAddress)
  | ErrAddrBookPrivate (Addr : NetAddress)
  | ErrAddrBookPrivateSrc (Src : NetAddress)
  | ErrAddrBookSelf (Addr : NetAddress)
  | ErrAddrBookNonRoutable (Addr : NetAddress)
  | errAddrBookOldAddressNewBucket (Addr : NetAddress) (BucketID : Nat)
  | panic (msg : String)
  deriving DecidableEq, Repr

/-- `addrBook`: its maps hold pointers into `kas`, the known addresses ever made. -/
structure addrBook where
  routabilityStrict : Bool
  ourAddrs : Finset String
  privateIDs : Finset ID
  addrLookup : Map ID Nat
  badPeers : Map ID Nat
  bucketsOld : List (Map String Nat)
  bucketsNew : List (Map String Nat)
  nOld : Int
  nNew : Int
  kas : List knownAddress

/-- `NewAddrBook`, after `init`. -/
def NewAddrBook (routabilityStrict : Bool) : addrBook :=
  ⟨routabilityStrict, ∅, ∅, ∅, ∅, List.replicate oldBucketCount ∅,
    List.replicate newBucketCount ∅, 0, 0, []⟩

namespace addrBook

/-- The known address behind a pointer. -/
def get (a : addrBook) (p : Nat) : Except AddrBookError knownAddress :=
  match a.kas[p]? with
  | some ka => pure ka
  | none => throw (.panic nilDereference)

/-- A write through a pointer. -/
def set (a : addrBook) (p : Nat) (ka : knownAddress) : addrBook :=
  { a with kas := a.kas.set p ka }

/-- `getBucket`. -/
def getBucket (a : addrBook) (bucketType : BucketType) (bucketIdx : Nat) :
    Except AddrBookError (Map String Nat) :=
  let buckets := match bucketType with
    | .bucketTypeNew => a.bucketsNew
    | .bucketTypeOld => a.bucketsOld
  match buckets[bucketIdx]? with
  | some bucket => pure bucket
  | none => throw (.panic "runtime error: index out of range")

/-- The bucket `bucketIdx` of a type replaced. -/
def setBucket (a : addrBook) (bucketType : BucketType) (bucketIdx : Nat)
    (bucket : Map String Nat) : addrBook :=
  match bucketType with
  | .bucketTypeNew => { a with bucketsNew := a.bucketsNew.set bucketIdx bucket }
  | .bucketTypeOld => { a with bucketsOld := a.bucketsOld.set bucketIdx bucket }

@[simp] lemma set_addrLookup (a : addrBook) (p : Nat) (ka : knownAddress) :
    (a.set p ka).addrLookup = a.addrLookup := rfl
@[simp] lemma set_badPeers (a : addrBook) (p : Nat) (ka : knownAddress) :
    (a.set p ka).badPeers = a.badPeers := rfl
@[simp] lemma set_privateIDs (a : addrBook) (p : Nat) (ka : knownAddress) :
    (a.set p ka).privateIDs = a.privateIDs := rfl

@[simp] lemma setBucket_addrLookup (a : addrBook) (t : BucketType) (i : Nat) (b : Map String Nat) :
    (a.setBucket t i b).addrLookup = a.addrLookup := by cases t <;> rfl
@[simp] lemma setBucket_badPeers (a : addrBook) (t : BucketType) (i : Nat) (b : Map String Nat) :
    (a.setBucket t i b).badPeers = a.badPeers := by cases t <;> rfl
@[simp] lemma setBucket_privateIDs (a : addrBook) (t : BucketType) (i : Nat) (b : Map String Nat) :
    (a.setBucket t i b).privateIDs = a.privateIDs := by cases t <;> rfl
@[simp] lemma get_setBucket (a : addrBook) (t : BucketType) (i : Nat) (b : Map String Nat) (p : Nat) :
    (a.setBucket t i b).get p = a.get p := by cases t <;> rfl

@[simp] lemma getBucket_kas (a : addrBook) (l : List knownAddress) (t : BucketType) (i : Nat) :
    ({ a with kas := l } : addrBook).getBucket t i = a.getBucket t i := rfl

lemma get_eq_ok {a : addrBook} {p : Nat} {ka : knownAddress} (h : a.kas[p]? = some ka) :
    a.get p = .ok ka := by
  simp [get, h]; rfl

lemma getBucket_new {a : addrBook} {i : Nat} (h : i < a.bucketsNew.length) :
    a.getBucket .bucketTypeNew i = .ok a.bucketsNew[i] := by
  simp [getBucket, h]; rfl

/-- `removeFromBucket`. -/
def removeFromBucket (a : addrBook) (p : Nat) (bucketType : BucketType) (bucketIdx : Nat) :
    Except AddrBookError addrBook := do
  let ka ← a.get p
  if ka.BucketType ≠ bucketType then pure a
  else
    let bucket ← a.getBucket bucketType bucketIdx
    let a := a.setBucket bucketType bucketIdx (bucket.erase ka.Addr.String)
    let (refs, ka) := ka.removeBucketRef bucketIdx
    let a := a.set p ka
    if refs = 0 then
      let a := match bucketType with
        | .bucketTypeNew => { a with nNew := a.nNew - 1 }
        | .bucketTypeOld => { a with nOld := a.nOld - 1 }
      pure { a with addrLookup := a.addrLookup.erase ka.ID }
    else pure a

/-- The loop of `removeFromAllBuckets` over the buckets of `ka`. -/
def deleteFromBuckets (ka : knownAddress) : List Nat → addrBook → Except AddrBookError addrBook
  | [], a => pure a
  | bucketIdx :: rest, a => do
    let bucket ← a.getBucket ka.BucketType bucketIdx
    deleteFromBuckets ka rest (a.setBucket ka.BucketType bucketIdx (bucket.erase ka.Addr.String))

/-- `removeFromAllBuckets`. -/
def removeFromAllBuckets (a : addrBook) (p : Nat) : Except AddrBookError addrBook := do
  let ka ← a.get p
  let a ← deleteFromBuckets ka ka.Buckets a
  let a := a.set p { ka with Buckets := [] }
  let a := if ka.BucketType = .bucketTypeNew then { a with nNew := a.nNew - 1 }
    else { a with nOld := a.nOld - 1 }
  pure { a with addrLookup := a.addrLookup.erase ka.ID }

/-- `pickOldest`: the entry of least `LastAttempt`, the first of them in the bucket's order;
`nil` for an empty bucket. -/
def pickOldest (a : addrBook) (bucketType : BucketType) (bucketIdx : Nat) :
    Except AddrBookError (Option Nat) := do
  let bucket ← a.getBucket bucketType bucketIdx
  bucket.entries.foldlM (fun oldest e => do
    let ka ← a.get e.2
    match oldest with
    | none => pure (some e.2)
    | some o => do
      let oka ← a.get o
      pure (if ka.LastAttempt < oka.LastAttempt then some e.2 else some o)) none

/-- The first bad entry of a bucket, in the bucket's order. -/
def firstBad (a : addrBook) (now : Time) : List (Σ _ : String, Nat) →
    Except AddrBookError (Option Nat)
  | [] => pure none
  | e :: rest => do
    let ka ← a.get e.2
    if ka.isBad now then pure (some e.2) else firstBad a now rest

/-- `expireNew`: drop the first bad entry of the bucket, or else its oldest. -/
def expireNew (a : addrBook) (now : Time) (bucketIdx : Nat) : Except AddrBookError addrBook := do
  let bucket ← a.getBucket .bucketTypeNew bucketIdx
  match ← a.firstBad now bucket.entries with
  | some p => a.removeFromBucket p .bucketTypeNew bucketIdx
  | none =>
    match ← a.pickOldest .bucketTypeNew bucketIdx with
    | some p => a.removeFromBucket p .bucketTypeNew bucketIdx
    | none => throw (.panic nilDereference)

/-- `addToNewBucket`.  The bucket is full only when it holds more than `newBucketSize`. -/
def addToNewBucket (a : addrBook) (now : Time) (p bucketIdx : Nat) :
    Except AddrBookError addrBook := do
  let ka ← a.get p
  if ka.isOld then throw (.errAddrBookOldAddressNewBucket ka.Addr bucketIdx)
  let addrStr := ka.Addr.String
  let bucket ← a.getBucket .bucketTypeNew bucketIdx
  if addrStr ∈ bucket then pure a
  else
    let a ← if bucket.entries.length > newBucketSize then a.expireNew now bucketIdx else pure a
    -- `bucket` is the map itself in Go: the insertion goes into the bucket after the expiry
    let bucket ← a.getBucket .bucketTypeNew bucketIdx
    let a := a.setBucket .bucketTypeNew bucketIdx (bucket.insert addrStr p)
    let ka ← a.get p
    let (refs, ka) := ka.addBucketRef bucketIdx
    let a := a.set p ka
    let a := if refs = 1 then { a with nNew := a.nNew + 1 } else a
    pure { a with addrLookup := a.addrLookup.insert ka.ID p }

/-- `addToOldBucket`: whether it added the address, and the book. -/
def addToOldBucket (a : addrBook) (p bucketIdx : Nat) : Except AddrBookError (Bool × addrBook) := do
  let ka ← a.get p
  if ka.isNew then pure (false, a)
  else if ka.Buckets.length ≠ 0 then pure (false, a)
  else
    let addrStr := ka.Addr.String
    let bucket ← a.getBucket .bucketTypeOld bucketIdx
    if addrStr ∈ bucket then pure (true, a)
    else if bucket.entries.length > oldBucketSize then pure (false, a)
    else
      let a := a.setBucket .bucketTypeOld bucketIdx (bucket.insert addrStr p)
      let (refs, ka) := ka.addBucketRef bucketIdx
      let a := a.set p ka
      let a := if refs = 1 then { a with nOld := a.nOld + 1 } else a
      pure (true, { a with addrLookup := a.addrLookup.insert ka.ID p })

/-- A call whose error Go drops, its panic apart: an error leaves the book as it was. -/
def ignoreError (a : addrBook) : Except AddrBookError addrBook → Except AddrBookError addrBook
  | .ok a' => pure a'
  | .error (.panic msg) => throw (.panic msg)
  | .error _ => pure a

section Calls

variable (valid : NetAddress → Except String Unit) (routable : NetAddress → Bool)
  (calcNewBucket : NetAddress → NetAddress → Fin newBucketCount)
  (calcOldBucket : NetAddress → Fin oldBucketCount) (draw : Nat → Nat) (now : Time)

/-- `addAddress`; `draw factor` is what `rand.Int31n(factor)` returns. -/
def addAddress (a : addrBook) (addr src : NetAddress) : Except AddrBookError addrBook :=
  match valid addr with
  | .error err => throw (.ErrAddrBookInvalidAddr addr err)
  | .ok () =>
    if addr.ID ∈ a.badPeers then throw (.ErrAddressBanned addr)
    else if addr.ID ∈ a.privateIDs then throw (.ErrAddrBookPrivate addr)
    else if src.ID ∈ a.privateIDs then throw (.ErrAddrBookPrivateSrc src)
    else if addr.String ∈ a.ourAddrs then throw (.ErrAddrBookSelf addr)
    else if a.routabilityStrict && !routable addr then throw (.ErrAddrBookNonRoutable addr)
    else match a.addrLookup.lookup addr.ID with
      | some p => do
        let ka ← a.get p
        -- an old address of this ID keeps its place, whatever its IP
        if ka.isOld ∧ ka.Addr.ID = addr.ID then pure a
        else if ka.Buckets.length = maxNewBucketsPerAddress then pure a
        else
          -- the more buckets it is in, the less likely it is added to another
          let factor := 2 * ka.Buckets.length
          if factor = 0 then throw (.panic "invalid argument to Int31n")
          else if draw factor ≠ 0 then pure a
          else a.addToNewBucket now p (calcNewBucket addr src)
      | none =>
        let a := { a with kas := a.kas ++ [newKnownAddress addr src now] }
        a.addToNewBucket now (a.kas.length - 1) (calcNewBucket addr src)

/-- `AddAddress`. -/
def AddAddress (a : addrBook) (addr src : NetAddress) : Except AddrBookError addrBook :=
  a.addAddress valid routable calcNewBucket draw now addr src

/-- `AddOurAddress`. -/
def AddOurAddress (a : addrBook) (addr : NetAddress) : addrBook :=
  { a with ourAddrs := insert addr.String a.ourAddrs }

/-- `AddPrivateIDs`. -/
def AddPrivateIDs (a : addrBook) (ids : List String) : addrBook :=
  ids.foldl (fun a id => { a with privateIDs := insert id a.privateIDs }) a

/-- `removeAddress`. -/
def removeAddress (a : addrBook) (addr : NetAddress) : Except AddrBookError addrBook :=
  match a.addrLookup.lookup addr.ID with
  | none => pure a
  | some p => a.removeFromAllBuckets p

/-- `RemoveAddress`. -/
def RemoveAddress (a : addrBook) (addr : NetAddress) : Except AddrBookError addrBook :=
  a.removeAddress addr

/-- `moveToOld`.  When the old bucket is full its oldest entry goes back to a new bucket, but
`addToNewBucket` refuses it while its `BucketType` is still old, and the refusal is dropped. -/
def moveToOld (a : addrBook) (p : Nat) : Except AddrBookError addrBook := do
  let ka ← a.get p
  if ka.isOld then pure a
  else if ka.Buckets.length = 0 then pure a
  else
    let a ← a.removeFromAllBuckets p
    let ka ← a.get p
    let a := a.set p { ka with BucketType := .bucketTypeOld }
    let oldBucketIdx := (calcOldBucket ka.Addr).val
    let (added, a) ← a.addToOldBucket p oldBucketIdx
    if added then pure a
    else
      match ← a.pickOldest .bucketTypeOld oldBucketIdx with
      | none => throw (.panic nilDereference)
      | some o => do
        let a ← a.removeFromBucket o .bucketTypeOld oldBucketIdx
        let oldest ← a.get o
        let a ← a.ignoreError
          (a.addToNewBucket now o (calcNewBucket oldest.Addr oldest.Src))
        let (_, a) ← a.addToOldBucket p oldBucketIdx
        pure a

/-- `MarkGood`. -/
def MarkGood (a : addrBook) (id : ID) : Except AddrBookError addrBook :=
  match a.addrLookup.lookup id with
  | none => pure a
  | some p => do
    let ka ← a.get p
    let a := a.set p (ka.markGood now)
    if ka.isNew then a.moveToOld calcNewBucket calcOldBucket now p else pure a

/-- `MarkAttempt`. -/
def MarkAttempt (a : addrBook) (addr : NetAddress) : Except AddrBookError addrBook :=
  match a.addrLookup.lookup addr.ID with
  | none => pure a
  | some p => do
    let ka ← a.get p
    pure (a.set p (ka.markAttempt now))

/-- `addBadPeer`: whether the address is in the book, and the book. -/
def addBadPeer (a : addrBook) (addr : NetAddress) (banTime : Time) :
    Except AddrBookError (Bool × addrBook) :=
  match a.addrLookup.lookup addr.ID with
  | none => pure (false, a)
  | some p =>
    if addr.ID ∈ a.badPeers then pure (true, a)
    else do
      let ka ← a.get p
      let a := a.set p (ka.ban now banTime)
      pure (true, { a with badPeers := a.badPeers.insert addr.ID p })

/-- `MarkBad`. -/
def MarkBad (a : addrBook) (addr : NetAddress) (banTime : Time) :
    Except AddrBookError addrBook := do
  let (inBook, a) ← a.addBadPeer now addr banTime
  if inBook then a.removeAddress addr else pure a

/-- The loop of `ReinstateBadPeers` over the banned addresses. -/
def reinstateEach : List (Σ _ : ID, Nat) → addrBook → Except AddrBookError addrBook
  | [], a => pure a
  | e :: rest, a => do
    let ka ← a.get e.2
    if ka.isBanned now then reinstateEach rest a
    else
      let a ← a.ignoreError (a.addToNewBucket now e.2 (calcNewBucket ka.Addr ka.Src))
      reinstateEach rest { a with badPeers := a.badPeers.erase ka.ID }

/-- `ReinstateBadPeers`. -/
def ReinstateBadPeers (a : addrBook) : Except AddrBookError addrBook :=
  reinstateEach calcNewBucket now a.badPeers.entries a

/-- The calls of the book. -/
inductive Op where
  | AddAddress (addr src : NetAddress)
  | RemoveAddress (addr : NetAddress)
  | MarkGood (id : ID)
  | MarkAttempt (addr : NetAddress)
  | MarkBad (addr : NetAddress) (banTime : Time)
  | ReinstateBadPeers
  | AddPrivateIDs (ids : List String)
  | AddOurAddress (addr : NetAddress)

/-- One call. -/
def step (a : addrBook) : Op → Except AddrBookError addrBook
  | .AddAddress addr src => a.AddAddress valid routable calcNewBucket draw now addr src
  | .RemoveAddress addr => a.RemoveAddress addr
  | .MarkGood id => a.MarkGood calcNewBucket calcOldBucket now id
  | .MarkAttempt addr => a.MarkAttempt now addr
  | .MarkBad addr banTime => a.MarkBad now addr banTime
  | .ReinstateBadPeers => a.ReinstateBadPeers calcNewBucket now
  | .AddPrivateIDs ids => pure (a.AddPrivateIDs ids)
  | .AddOurAddress addr => pure (a.AddOurAddress addr)

/-- A run of calls, stopping at the first error. -/
def run (ops : List Op) (a : addrBook) : Except AddrBookError addrBook :=
  ops.foldlM (step valid routable calcNewBucket calcOldBucket draw now) a

variable {valid routable calcNewBucket calcOldBucket draw now}

@[simp] lemma AddPrivateIDs_addrLookup (a : addrBook) (ids : List String) :
    (a.AddPrivateIDs ids).addrLookup = a.addrLookup := by
  induction ids generalizing a with
  | nil => rfl
  | cons id ids ih => exact ih _

@[simp] lemma AddPrivateIDs_badPeers (a : addrBook) (ids : List String) :
    (a.AddPrivateIDs ids).badPeers = a.badPeers := by
  induction ids generalizing a with
  | nil => rfl
  | cons id ids ih => exact ih _

lemma mem_AddPrivateIDs {a : addrBook} {ids : List String} {id : String} :
    id ∈ (a.AddPrivateIDs ids).privateIDs ↔ id ∈ a.privateIDs ∨ id ∈ ids := by
  induction ids generalizing a with
  | nil => simp [AddPrivateIDs]
  | cons id' ids ih =>
    rw [AddPrivateIDs, List.foldl_cons, ← AddPrivateIDs, ih]
    simp only [Finset.mem_insert, List.mem_cons]
    tauto

/-- An address of a bucket it is not yet in, with room in the bucket, goes into the bucket and
into `addrLookup`; the bans and private IDs stay as they are. -/
lemma addToNewBucket_fresh {a : addrBook} {p idx : Nat} {ka : knownAddress}
    {bucket : Map String Nat} (hka : a.get p = .ok ka) (hnew : ka.isOld = false)
    (hbucket : a.getBucket .bucketTypeNew idx = .ok bucket) (hfresh : ka.Addr.String ∉ bucket)
    (hroom : bucket.entries.length ≤ newBucketSize) :
    ∃ a', a.addToNewBucket now p idx = .ok a' ∧ a'.addrLookup = a.addrLookup.insert ka.ID p ∧
      a'.badPeers = a.badPeers ∧ a'.privateIDs = a.privateIDs := by
  have hfull : ¬ bucket.entries.length > newBucketSize := Nat.not_lt.mpr hroom
  simp only [addToNewBucket, hka, hnew, hbucket, hfresh, hfull, get_setBucket, ok_bind,
    pure_bind, Bool.false_eq_true, if_false]
  refine ⟨_, rfl, ?_⟩
  split_ifs <;> simp [knownAddress.ID]

/-- A valid address the book has not heard of, from a source that is not private, whose new
bucket has room and does not hold it, is accepted and put into `addrLookup`. -/
lemma addAddress_new {a : addrBook} {addr src : NetAddress} {bucket : Map String Nat}
    (hvalid : valid addr = .ok ()) (hbad : addr.ID ∉ a.badPeers)
    (hpriv : addr.ID ∉ a.privateIDs) (hsrc : src.ID ∉ a.privateIDs)
    (hself : addr.String ∉ a.ourAddrs) (hroute : a.routabilityStrict = true → routable addr = true)
    (hlookup : a.addrLookup.lookup addr.ID = none)
    (hbucket : a.getBucket .bucketTypeNew (calcNewBucket addr src) = .ok bucket)
    (hfresh : addr.String ∉ bucket) (hroom : bucket.entries.length ≤ newBucketSize) :
    ∃ a', a.addAddress valid routable calcNewBucket draw now addr src = .ok a' ∧
      (a'.addrLookup.lookup addr.ID).isSome ∧ a'.badPeers = a.badPeers ∧
      a'.privateIDs = a.privateIDs := by
  have hstrict : (a.routabilityStrict && !routable addr) = false := by
    cases h : a.routabilityStrict <;> simp_all
  -- the new known address is the last one made
  have hka : ({ a with kas := a.kas ++ [newKnownAddress addr src now] } : addrBook).get
      (a.kas.length + 1 - 1) = .ok (newKnownAddress addr src now) :=
    get_eq_ok (by simp)
  obtain ⟨a', hadd, hlook, hbad', hpriv'⟩ :=
    @addToNewBucket_fresh now _ _ _ _ _ hka rfl (by rwa [getBucket_kas]) hfresh hroom
  refine ⟨a', ?_, ?_, hbad', hpriv'⟩
  · simp only [addAddress, hvalid, hbad, hpriv, hsrc, hself, hstrict, hlookup, if_false,
      Bool.false_eq_true, List.length_append, List.length_singleton]
    exact hadd
  · simp [hlook, AList.lookup_insert, knownAddress.ID, newKnownAddress]

variable (valid routable calcNewBucket calcOldBucket draw now)

/-- From the empty book, an address that `AddAddress` accepts stays in `addrLookup` when its ID
is then made private, though the book now refuses that address. -/
theorem AddPrivateIDs_keeps_address (routabilityStrict : Bool) (addr src : NetAddress)
    (hvalid : valid addr = .ok ()) (hroute : routabilityStrict = true → routable addr = true) :
    ∃ a, (NewAddrBook routabilityStrict).run valid routable calcNewBucket calcOldBucket draw now
        [.AddAddress addr src, .AddPrivateIDs [addr.ID]] = .ok a ∧
      addr.ID ∈ a.privateIDs ∧ (a.addrLookup.lookup addr.ID).isSome ∧
      a.AddAddress valid routable calcNewBucket draw now addr src =
        .error (.ErrAddrBookPrivate addr) := by
  -- the empty book's new buckets are all empty
  have hbucket : (NewAddrBook routabilityStrict).getBucket .bucketTypeNew (calcNewBucket addr src) =
      .ok ∅ := by
    rw [getBucket_new (by simp only [NewAddrBook, List.length_replicate, Fin.is_lt])]
    simp only [NewAddrBook, List.getElem_replicate]
  obtain ⟨a₁, hadd, hlook, hbad, -⟩ := @addAddress_new valid routable calcNewBucket draw now _ _ _ _ hvalid
    (by simp [NewAddrBook]) (by simp [NewAddrBook]) (by simp [NewAddrBook]) (by simp [NewAddrBook])
    hroute rfl hbucket (by simp) (by simp)
  refine ⟨a₁.AddPrivateIDs [addr.ID], ?_, mem_AddPrivateIDs.mpr (Or.inr (by simp)), by simpa, ?_⟩
  · simp [run, step, AddAddress, hadd]
  · have hpriv : addr.ID ∈ (a₁.AddPrivateIDs [addr.ID]).privateIDs :=
      mem_AddPrivateIDs.mpr (Or.inr (by simp))
    have hbad₁ : addr.ID ∉ a₁.badPeers := by
      simp [hbad, NewAddrBook]
    simp [AddAddress, addAddress, hvalid, hbad₁, hpriv]
    rfl

end Calls

/-- A node at a public IPv4 address. -/
def seedAddr : NetAddress := ⟨"aa", "1.2.3.4", 26656⟩

/-- A strict book that takes every address as valid and routable and hashes every address to
the first bucket: the seed node, once added, stays after its ID is made private. -/
theorem AddPrivateIDs_keeps_address_seed :
    ∃ a, (NewAddrBook true).run (fun _ => .ok ()) (fun _ => true) (fun _ _ => ⟨0, by decide⟩)
        (fun _ => ⟨0, by decide⟩) (fun _ => 0) 1
        [.AddAddress seedAddr seedAddr, .AddPrivateIDs [seedAddr.ID]] = .ok a ∧
      seedAddr.ID ∈ a.privateIDs ∧ (a.addrLookup.lookup seedAddr.ID).isSome ∧
      a.AddAddress (fun _ => .ok ()) (fun _ => true) (fun _ _ => ⟨0, by decide⟩) (fun _ => 0) 1
        seedAddr seedAddr = .error (.ErrAddrBookPrivate seedAddr) :=
  AddPrivateIDs_keeps_address _ _ _ _ _ _ true seedAddr seedAddr rfl (fun _ => rfl)

end addrBook

end pex

end Tendermint
