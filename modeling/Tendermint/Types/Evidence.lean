import Tendermint.Types.Block
import Tendermint.Types.CommitVerify

/-!
# Evidence and its identity (`types/evidence.go`)

Every kind of evidence answers `Hash()`, which keys it in the evidence pool, and `Equal(ev)`,
which `validateBlock` uses to reject a block carrying the same evidence twice.  Each kind
defines the two separately:

* `DuplicateVoteEvidence` hashes its proto bytes, and `Equal` compares exactly those hashes;
* `ConflictingHeadersEvidence` and `LunaticValidatorEvidence` hash a buffer into which the header
  hash is copied through `bz[:tmhash.Size-1]`, which drops its last byte
  (`conflictingHeadersHash_congr`, `lunaticValidatorHash_congr`), while `Equal` compares the
  whole header hashes;
* `PotentialAmnesiaEvidence` hashes both votes' proto bytes, while `Equal` compares the height,
  the two rounds and the address only (`Equal_potentialAmnesia_iff`);
* `AmnesiaEvidence` inherits `Hash` from the potential amnesia evidence it embeds, while its
  `Equal` answers `false` to anything that is not itself an amnesia evidence.

So `Equal` and equality of `Hash` disagree in both directions, even with an injective `tmhash`
(`Equal_disagrees_Hash`).  The hash, the header hash and the proto encodings are parameters
(`EvidenceCodec`).

`ConflictingHeadersEvidence.Split` turns two conflicting signed headers into evidence against
single validators, by a merge of the two commits' signatures.  Its loop is `splitStep` run with
fuel (`splitLoop`): a state where the second commit's signatures are used up while the first
one's current signer is in the set is a fixpoint of the step (`splitStep_stuck`), from which no
fuel returns (`splitLoop_stuck`).  Commits in the set's order reach it, and can make the merge
step past a validator that signed both (`Split_hangs_or_misses`).
-/

namespace Tendermint

/-- `types.SignedHeader`. -/
structure SignedHeader where
  header : Header
  commit : Commit

/-- `types.DuplicateVoteEvidence`. -/
structure DuplicateVoteEvidence where
  voteA : Vote
  voteB : Vote
  timestamp : Time

/-- `types.ConflictingHeadersEvidence`. -/
structure ConflictingHeadersEvidence where
  h1 : SignedHeader
  h2 : SignedHeader

/-- `types.LunaticValidatorEvidence`. -/
structure LunaticValidatorEvidence where
  header : Header
  vote : Vote
  invalidHeaderField : String
  timestamp : Time

/-- `types.PotentialAmnesiaEvidence`. -/
structure PotentialAmnesiaEvidence where
  voteA : Vote
  voteB : Vote
  heightStamp : Int
  timestamp : Time

/-- `types.ProofOfLockChange`; `none` stands for Go's `nil` slice and `nil` key. -/
structure ProofOfLockChange where
  votes : Option (List Vote)
  pubKey : Option PubKey

/-- `types.AmnesiaEvidence`. -/
structure AmnesiaEvidence where
  potentialAmnesiaEvidence : PotentialAmnesiaEvidence
  polc : ProofOfLockChange

/-- The concrete types behind the `Evidence` interface, with their data. -/
inductive ConcreteEvidence where
  | duplicateVote (ev : DuplicateVoteEvidence)
  | conflictingHeaders (ev : ConflictingHeadersEvidence)
  | lunaticValidator (ev : LunaticValidatorEvidence)
  | potentialAmnesia (ev : PotentialAmnesiaEvidence)
  | amnesia (ev : AmnesiaEvidence)

/-- What the evidence functions take from the libraries: `tmhash.Sum`, `Header.Hash`, the proto
bytes of a vote and of a duplicate-vote evidence, and `PubKey.Address`. -/
structure EvidenceCodec where
  tmhash : Bytes → Bytes
  headerHash : Header → Bytes
  voteBytes : Vote → Bytes
  duplicateVoteBytes : DuplicateVoteEvidence → Bytes
  pubKeyAddress : PubKey → Address

/-- Go's `copy(buf[off:off+n], src)`: the first `min n (len src)` bytes of `src` written at
`off`. -/
def copyAt (buf : Bytes) (off n : Nat) (src : Bytes) : Bytes :=
  buf.take off ++ src.take n ++ buf.drop (off + min n src.length)

/-- `copyAt` reads only the first `n` bytes of a source that has them. -/
lemma copyAt_congr {buf src src' : Bytes} {off n : Nat} (htake : src.take n = src'.take n)
    (hlen : n ≤ src.length) (hlen' : n ≤ src'.length) :
    copyAt buf off n src = copyAt buf off n src' := by
  unfold copyAt
  rw [htake, Nat.min_eq_left hlen, Nat.min_eq_left hlen']

namespace EvidenceCodec

variable (codec : EvidenceCodec)

/-! ## `Hash` -/

/-- `DuplicateVoteEvidence.Hash`. -/
def duplicateVoteHash (ev : DuplicateVoteEvidence) : Bytes :=
  codec.tmhash (codec.duplicateVoteBytes ev)

/-- `ConflictingHeadersEvidence.Hash`: `copy(bz[:tmhash.Size-1], H1.Hash())` and
`copy(bz[tmhash.Size:], H2.Hash())` into `2 · tmhash.Size` zero bytes. -/
def conflictingHeadersHash (ev : ConflictingHeadersEvidence) : Bytes :=
  let bz := List.replicate (tmhashSize * 2) 0
  let bz := copyAt bz 0 (tmhashSize - 1) (codec.headerHash ev.h1.header)
  let bz := copyAt bz tmhashSize tmhashSize (codec.headerHash ev.h2.header)
  codec.tmhash bz

/-- `LunaticValidatorEvidence.Hash`: `copy(bz[:tmhash.Size-1], Header.Hash())` and
`copy(bz[tmhash.Size:], Vote.ValidatorAddress)` into `tmhash.Size + AddressSize` zero bytes. -/
def lunaticValidatorHash (ev : LunaticValidatorEvidence) : Bytes :=
  let bz := List.replicate (tmhashSize + AddressSize) 0
  let bz := copyAt bz 0 (tmhashSize - 1) (codec.headerHash ev.header)
  let bz := copyAt bz tmhashSize AddressSize ev.vote.validatorAddress
  codec.tmhash bz

/-- `PotentialAmnesiaEvidence.Hash`: the two votes' proto bytes, one after the other. -/
def potentialAmnesiaHash (ev : PotentialAmnesiaEvidence) : Bytes :=
  codec.tmhash (codec.voteBytes ev.voteA ++ codec.voteBytes ev.voteB)

/-- `Hash()` of each kind; `AmnesiaEvidence` has the one of its embedded potential amnesia
evidence. -/
def Hash : ConcreteEvidence → Bytes
  | .duplicateVote ev => codec.duplicateVoteHash ev
  | .conflictingHeaders ev => codec.conflictingHeadersHash ev
  | .lunaticValidator ev => codec.lunaticValidatorHash ev
  | .potentialAmnesia ev => codec.potentialAmnesiaHash ev
  | .amnesia ev => codec.potentialAmnesiaHash ev.potentialAmnesiaEvidence

/-! ## `Equal` -/

/-- `PotentialAmnesiaEvidence.Equal` on another potential amnesia evidence: same height, same
rounds, same address. -/
def potentialAmnesiaEqual (ev ev2 : PotentialAmnesiaEvidence) : Bool :=
  ev.voteA.height == ev2.voteA.height && ev.voteA.round == ev2.voteA.round &&
    ev.voteB.round == ev2.voteB.round && ev.voteA.validatorAddress == ev2.voteA.validatorAddress

/-- `Equal(ev2)` of each kind: `false` unless `ev2` has the receiver's concrete type. -/
def Equal : ConcreteEvidence → ConcreteEvidence → Bool
  | .duplicateVote ev, .duplicateVote ev2 =>
    codec.duplicateVoteHash ev == codec.duplicateVoteHash ev2
  | .conflictingHeaders ev, .conflictingHeaders ev2 =>
    codec.headerHash ev.h1.header == codec.headerHash ev2.h1.header &&
      codec.headerHash ev.h2.header == codec.headerHash ev2.h2.header
  | .lunaticValidator ev, .lunaticValidator ev2 =>
    codec.headerHash ev.header == codec.headerHash ev2.header &&
      ev.vote.validatorAddress == ev2.vote.validatorAddress
  | .potentialAmnesia ev, .potentialAmnesia ev2 => potentialAmnesiaEqual ev ev2
  | .amnesia ev, .amnesia ev2 =>
    potentialAmnesiaEqual ev.potentialAmnesiaEvidence ev2.potentialAmnesiaEvidence
  | _, _ => false

end EvidenceCodec

/-! ## `ValidateBasic` of the amnesia kinds -/

namespace PotentialAmnesiaEvidence

/-- `PotentialAmnesiaEvidence.ValidateBasic`; the model's votes are never `nil`. -/
def ValidateBasic (e : PotentialAmnesiaEvidence) : Except String Unit := do
  e.voteA.ValidateBasic.mapError ("invalid VoteA: " ++ ·)
  e.voteB.ValidateBasic.mapError ("invalid VoteB: " ++ ·)
  if e.voteA.height ≠ e.voteB.height then throw "heights do not match: %d vs %d"
  if e.voteA.round = e.voteB.round then throw "votes must be for different rounds: %d"
  if e.voteA.timestamp > e.voteB.timestamp then
    throw "vote A should have a timestamp before vote B, but got %s > %s"
  if e.voteA.validatorAddress ≠ e.voteB.validatorAddress then
    throw "validator addresses do not match: %X vs %X"
  if e.voteA.blockID.IsZero then
    throw "first vote is for a nil block - voter hasn't locked on a block"
  if e.voteA.blockID.Equals e.voteB.blockID then
    throw "block IDs are the same (%v) - not a real duplicate vote"

end PotentialAmnesiaEvidence

namespace ProofOfLockChange

/-- `IsAbsent`. -/
def IsAbsent (e : ProofOfLockChange) : Bool := e.votes.isNone && e.pubKey.isNone

/-- `NewEmptyPOLC`. -/
def NewEmptyPOLC : ProofOfLockChange := ⟨none, none⟩

/-- The loop of `ProofOfLockChange.ValidateBasic` over the votes from index `idx`, against the
first vote's height, round, type and block ID and the key's address. -/
def validateVotes (first : Vote) (keyAddress : Address) : Nat → List Vote → Except String Unit
  | _, [] => pure ()
  | idx, vote :: rest => do
    vote.ValidateBasic.mapError (("invalid vote#" ++ toString idx ++ ": ") ++ ·)
    if vote.height ≠ first.height then throw ("invalid height for vote#" ++ toString idx)
    if vote.round ≠ first.round then throw ("invalid round for vote#" ++ toString idx)
    if vote.type ≠ first.type then throw ("invalid vote type for vote#" ++ toString idx)
    if !vote.blockID.Equals first.blockID then
      throw "vote must be for the same block id: %v instead of %v"
    if vote.validatorAddress = keyAddress then
      throw "vote validator address cannot be the same as the public key address: %X all votes %v"
    if rest.any (·.validatorAddress = vote.validatorAddress) then throw "duplicate votes: %v"
    validateVotes first keyAddress (idx + 1) rest

/-- `ProofOfLockChange.ValidateBasic`. -/
def ValidateBasic (pubKeyAddress : PubKey → Address) (e : ProofOfLockChange) :
    Except String Unit :=
  if e.IsAbsent then pure ()
  else match e.pubKey with
    | none => throw "missing public key"
    | some pubKey =>
      match e.votes with
      | none | some [] => throw "missing votes"
      | some (first :: rest) =>
        if first.round = 0 then throw "can't have a polc for the first round"
        else validateVotes first (pubKeyAddress pubKey) 0 (first :: rest)

/-- `Time`: the latest of the votes' timestamps. -/
def latestTime (first : Vote) (votes : List Vote) : Time :=
  votes.foldl (fun latest vote => if vote.timestamp > latest then vote.timestamp else latest)
    first.timestamp

end ProofOfLockChange

namespace AmnesiaEvidence

/-- `AmnesiaEvidence.ValidateBasic`.  The getters of the proof of lock change read its first
vote, which its own `ValidateBasic` has just checked to exist. -/
def ValidateBasic (pubKeyAddress : PubKey → Address) (e : AmnesiaEvidence) :
    Except String Unit := do
  e.potentialAmnesiaEvidence.ValidateBasic.mapError ("invalid potential amnesia evidence: " ++ ·)
  if !e.polc.IsAbsent then
    (e.polc.ValidateBasic pubKeyAddress).mapError ("invalid proof of lock change: " ++ ·)
    match e.polc.pubKey, e.polc.votes with
    | some pubKey, some (first :: rest) =>
      let pe := e.potentialAmnesiaEvidence
      if pe.voteA.validatorAddress ≠ pubKeyAddress pubKey then
        throw "validator addresses do not match (%X - %X)"
      if pe.voteA.height ≠ first.height then throw "heights do not match (%d - %d)"
      if first.round ≤ pe.voteA.round || first.round > pe.voteB.round then
        throw "polc must be between %d and %d (inclusive)"
      if !first.blockID.Equals pe.voteB.blockID && !first.blockID.IsZero then
        throw "polc must be either for a nil block or for the same block as the second vote: %v != %v"
      if ProofOfLockChange.latestTime first (first :: rest) > pe.voteB.timestamp then
        throw "validator voted again before receiving a majority of votes for the new block: %v is after %v"
    | _, _ => pure ()

end AmnesiaEvidence

/-! ## Where `Equal` and `Hash` part -/

/-- A header of chain `"chain"` at height one whose data hash is `[d]`. -/
def ConflictingHeadersEvidence.forkHeader (d : UInt8) : Header :=
  { version := ⟨0, 0⟩, chainID := "chain", height := 1, time := 0, lastBlockID := ⟨[], ⟨0, []⟩⟩,
    lastCommitHash := [], dataHash := [d], validatorsHash := [], nextValidatorsHash := [],
    consensusHash := [], appHash := [], lastResultsHash := [], evidenceHash := [],
    proposerAddress := [] }

namespace EvidenceCodec

variable (codec : EvidenceCodec)

/-- For duplicate votes the two agree: `Equal` compares the hashes. -/
lemma Equal_duplicateVote_iff (ev ev2 : DuplicateVoteEvidence) :
    codec.Equal (.duplicateVote ev) (.duplicateVote ev2) = true ↔
      codec.Hash (.duplicateVote ev) = codec.Hash (.duplicateVote ev2) := by
  simp [Equal, Hash]

/-- The hash of conflicting headers reads the first header's hash only up to its last byte. -/
lemma conflictingHeadersHash_congr {ev ev2 : ConflictingHeadersEvidence}
    (h1 : (codec.headerHash ev.h1.header).take (tmhashSize - 1) =
      (codec.headerHash ev2.h1.header).take (tmhashSize - 1))
    (hlen : tmhashSize - 1 ≤ (codec.headerHash ev.h1.header).length)
    (hlen2 : tmhashSize - 1 ≤ (codec.headerHash ev2.h1.header).length)
    (h2 : codec.headerHash ev.h2.header = codec.headerHash ev2.h2.header) :
    codec.Hash (.conflictingHeaders ev) = codec.Hash (.conflictingHeaders ev2) := by
  simp only [Hash, conflictingHeadersHash]
  rw [copyAt_congr h1 hlen hlen2, h2]

/-- The codec that hashes by the identity and hashes a header to 31 zero bytes followed by its
data hash. -/
def dataHashCodec : EvidenceCodec :=
  ⟨id, fun h => List.replicate 31 0 ++ h.dataHash, fun _ => [], fun _ => [], id⟩

/-- The headers `forkHeader d` and `forkHeader 3`, both with an empty commit. -/
def dataHashHeaders (d : UInt8) : ConflictingHeadersEvidence :=
  ⟨⟨ConflictingHeadersEvidence.forkHeader d, NewCommit 1 0 ValidatorSet.oneBlockID []⟩,
    ⟨ConflictingHeadersEvidence.forkHeader 3, NewCommit 1 0 ValidatorSet.oneBlockID []⟩⟩

theorem conflictingHeadersHash_congr_dataHash :
    (dataHashCodec.headerHash (dataHashHeaders 1).h1.header).take (tmhashSize - 1) =
        (dataHashCodec.headerHash (dataHashHeaders 2).h1.header).take (tmhashSize - 1) ∧
      tmhashSize - 1 ≤ (dataHashCodec.headerHash (dataHashHeaders 1).h1.header).length ∧
      tmhashSize - 1 ≤ (dataHashCodec.headerHash (dataHashHeaders 2).h1.header).length ∧
      dataHashCodec.headerHash (dataHashHeaders 1).h2.header =
        dataHashCodec.headerHash (dataHashHeaders 2).h2.header ∧
      dataHashCodec.Hash (.conflictingHeaders (dataHashHeaders 1)) =
        dataHashCodec.Hash (.conflictingHeaders (dataHashHeaders 2)) ∧
      dataHashCodec.Equal (.conflictingHeaders (dataHashHeaders 1))
        (.conflictingHeaders (dataHashHeaders 2)) = false :=
  ⟨by decide, by decide, by decide, rfl,
    conflictingHeadersHash_congr dataHashCodec (by decide) (by decide) (by decide) rfl, by decide⟩

/-- The hash of a lunatic validator's evidence reads the header's hash only up to its last
byte. -/
lemma lunaticValidatorHash_congr {ev ev2 : LunaticValidatorEvidence}
    (h1 : (codec.headerHash ev.header).take (tmhashSize - 1) =
      (codec.headerHash ev2.header).take (tmhashSize - 1))
    (hlen : tmhashSize - 1 ≤ (codec.headerHash ev.header).length)
    (hlen2 : tmhashSize - 1 ≤ (codec.headerHash ev2.header).length)
    (haddr : ev.vote.validatorAddress = ev2.vote.validatorAddress) :
    codec.Hash (.lunaticValidator ev) = codec.Hash (.lunaticValidator ev2) := by
  simp only [Hash, lunaticValidatorHash]
  rw [copyAt_congr h1 hlen hlen2, haddr]

/-- A lunatic validator at `List.replicate 20 1` against `forkHeader d`. -/
def dataHashLunatic (d : UInt8) : LunaticValidatorEvidence :=
  ⟨ConflictingHeadersEvidence.forkHeader d,
    ⟨.PrecommitType, 1, 0, ⟨[], ⟨0, []⟩⟩, 0, List.replicate 20 1, 0, []⟩, "AppHash", 0⟩

theorem lunaticValidatorHash_congr_dataHash :
    (dataHashCodec.headerHash (dataHashLunatic 1).header).take (tmhashSize - 1) =
        (dataHashCodec.headerHash (dataHashLunatic 2).header).take (tmhashSize - 1) ∧
      tmhashSize - 1 ≤ (dataHashCodec.headerHash (dataHashLunatic 1).header).length ∧
      tmhashSize - 1 ≤ (dataHashCodec.headerHash (dataHashLunatic 2).header).length ∧
      (dataHashLunatic 1).vote.validatorAddress = (dataHashLunatic 2).vote.validatorAddress ∧
      dataHashCodec.Hash (.lunaticValidator (dataHashLunatic 1)) =
        dataHashCodec.Hash (.lunaticValidator (dataHashLunatic 2)) ∧
      dataHashCodec.Equal (.lunaticValidator (dataHashLunatic 1))
        (.lunaticValidator (dataHashLunatic 2)) = false :=
  ⟨by decide, by decide, by decide, rfl,
    lunaticValidatorHash_congr dataHashCodec (by decide) (by decide) (by decide) rfl, by decide⟩

/-- Potential amnesia evidences are `Equal` when they agree on the height, the rounds and the
address, whatever their votes' blocks, times and signatures. -/
lemma Equal_potentialAmnesia_iff (ev ev2 : PotentialAmnesiaEvidence) :
    codec.Equal (.potentialAmnesia ev) (.potentialAmnesia ev2) = true ↔
      ev.voteA.height = ev2.voteA.height ∧ ev.voteA.round = ev2.voteA.round ∧
        ev.voteB.round = ev2.voteB.round ∧ ev.voteA.validatorAddress = ev2.voteA.validatorAddress := by
  simp [Equal, potentialAmnesiaEqual, and_assoc]

end EvidenceCodec

/-- A precommit at height one by the validator at `List.replicate 20 1`, in `round` and at time
`round`, for the block whose hash is `List.replicate 32 block`, signed `[sig]`. -/
def amnesiaVote (round : Int) (block sig : UInt8) : Vote :=
  ⟨.PrecommitType, 1, round, ⟨List.replicate 32 block, ⟨1, List.replicate 32 2⟩⟩, round,
    List.replicate 20 1, 0, [sig]⟩

/-- A validator that precommitted block `1` in round `0` and block `3` in round `1`. -/
def lockedAmnesia : PotentialAmnesiaEvidence := ⟨amnesiaVote 0 1 1, amnesiaVote 1 3 1, 0, 0⟩

/-- The same two precommits, the first one carrying another signature. -/
def resignedAmnesia : PotentialAmnesiaEvidence := ⟨amnesiaVote 0 1 2, amnesiaVote 1 3 1, 0, 0⟩

/-- **`Equal` is not equality of `Hash`.**  Both directions fail on valid evidence.  A potential
amnesia evidence and the amnesia evidence it is upgraded to (with an empty proof of lock change)
have the same `Hash` but are not `Equal`.  Two potential amnesia evidences whose first votes carry
different signatures are `Equal` but, with an injective `tmhash` and vote encodings that tell the
two votes apart, have different `Hash`es. -/
theorem Equal_disagrees_Hash (codec : EvidenceCodec) (htm : Function.Injective codec.tmhash)
    (hvote : codec.voteBytes (amnesiaVote 0 1 1) ≠ codec.voteBytes (amnesiaVote 0 1 2)) :
    lockedAmnesia.ValidateBasic = .ok () ∧ resignedAmnesia.ValidateBasic = .ok () ∧
      AmnesiaEvidence.ValidateBasic codec.pubKeyAddress
        ⟨lockedAmnesia, ProofOfLockChange.NewEmptyPOLC⟩ = .ok () ∧
      codec.Hash (.potentialAmnesia lockedAmnesia) =
        codec.Hash (.amnesia ⟨lockedAmnesia, ProofOfLockChange.NewEmptyPOLC⟩) ∧
      codec.Equal (.potentialAmnesia lockedAmnesia)
        (.amnesia ⟨lockedAmnesia, ProofOfLockChange.NewEmptyPOLC⟩) = false ∧
      codec.Equal (.potentialAmnesia lockedAmnesia) (.potentialAmnesia resignedAmnesia) = true ∧
      codec.Hash (.potentialAmnesia lockedAmnesia) ≠ codec.Hash (.potentialAmnesia resignedAmnesia) := by
  refine ⟨rfl, rfl, rfl, rfl, rfl, ?_, fun h => ?_⟩
  · rw [EvidenceCodec.Equal_potentialAmnesia_iff]
    exact ⟨rfl, rfl, rfl, rfl⟩
  · -- equal hashes of the two vote encodings would make the first votes' encodings equal
    simp only [EvidenceCodec.Hash, EvidenceCodec.potentialAmnesiaHash] at h
    exact hvote (List.append_cancel_right (htm h))

/-- The codec that hashes by the identity and encodes a vote by its signature. -/
def signatureCodec : EvidenceCodec := ⟨id, fun _ => [], (·.signature), fun _ => [], id⟩

theorem Equal_disagrees_Hash_signature :
    Function.Injective signatureCodec.tmhash ∧
      signatureCodec.voteBytes (amnesiaVote 0 1 1) ≠ signatureCodec.voteBytes (amnesiaVote 0 1 2) ∧
      (lockedAmnesia.ValidateBasic = .ok () ∧ resignedAmnesia.ValidateBasic = .ok () ∧
        AmnesiaEvidence.ValidateBasic signatureCodec.pubKeyAddress
          ⟨lockedAmnesia, ProofOfLockChange.NewEmptyPOLC⟩ = .ok () ∧
        signatureCodec.Hash (.potentialAmnesia lockedAmnesia) =
          signatureCodec.Hash (.amnesia ⟨lockedAmnesia, ProofOfLockChange.NewEmptyPOLC⟩) ∧
        signatureCodec.Equal (.potentialAmnesia lockedAmnesia)
          (.amnesia ⟨lockedAmnesia, ProofOfLockChange.NewEmptyPOLC⟩) = false ∧
        signatureCodec.Equal (.potentialAmnesia lockedAmnesia)
          (.potentialAmnesia resignedAmnesia) = true ∧
        signatureCodec.Hash (.potentialAmnesia lockedAmnesia) ≠
          signatureCodec.Hash (.potentialAmnesia resignedAmnesia)) :=
  ⟨fun _ _ h => h, by decide, Equal_disagrees_Hash signatureCodec (fun _ _ h => h) (by decide)⟩

/-! ## Splitting conflicting headers -/

/-- `NewDuplicateVoteEvidence`: the two votes in the order of their block IDs' keys. -/
def NewDuplicateVoteEvidence (vote1 vote2 : Vote) (time : Time) : DuplicateVoteEvidence :=
  if bytesCompare vote1.blockID.Key vote2.blockID.Key = .lt then ⟨vote1, vote2, time⟩
  else ⟨vote2, vote1, time⟩

/-- `NewPotentialAmnesiaEvidence`: the earlier vote first. -/
def NewPotentialAmnesiaEvidence (voteA voteB : Vote) (time : Time) : PotentialAmnesiaEvidence :=
  if voteA.timestamp < voteB.timestamp then ⟨voteA, voteB, 0, time⟩ else ⟨voteB, voteA, 0, time⟩

/-- `Address()` of each kind; conflicting headers have none and panic. -/
def ConcreteEvidence.Address : ConcreteEvidence → Go Address
  | .duplicateVote ev => pure ev.voteA.validatorAddress
  | .conflictingHeaders _ =>
    throw (.panic "use ConflictingHeadersEvidence#Split to split evidence into individual pieces")
  | .lunaticValidator ev => pure ev.vote.validatorAddress
  | .potentialAmnesia ev => pure ev.voteA.validatorAddress
  | .amnesia ev => pure ev.potentialAmnesiaEvidence.voteA.validatorAddress

namespace ConflictingHeadersEvidence

/-- The first of the hashes `Split` compares on which the two headers differ, or `""`. -/
def invalidHeaderField (committedHeader alternativeHeader : Header) : String :=
  if committedHeader.validatorsHash ≠ alternativeHeader.validatorsHash then "ValidatorsHash"
  else if committedHeader.nextValidatorsHash ≠ alternativeHeader.nextValidatorsHash then
    "NextValidatorsHash"
  else if committedHeader.consensusHash ≠ alternativeHeader.consensusHash then "ConsensusHash"
  else if committedHeader.appHash ≠ alternativeHeader.appHash then "AppHash"
  else if committedHeader.lastResultsHash ≠ alternativeHeader.lastResultsHash then
    "LastResultsHash"
  else ""

/-- The lunatic branch of `Split`: one evidence for each signature of the alternative commit,
from index `i` on, that is not absent. -/
def lunaticEvidence (alternativeHeader : SignedHeader) (invalidField : String) (time : Time) :
    Nat → List CommitSig → Go (List ConcreteEvidence)
  | _, [] => pure []
  | i, sig :: rest =>
    if sig.Absent then lunaticEvidence alternativeHeader invalidField time (i + 1) rest
    else do
      let vote ← alternativeHeader.commit.GetVote i
      let evList ← lunaticEvidence alternativeHeader invalidField time (i + 1) rest
      pure (.lunaticValidator ⟨alternativeHeader.header, vote, invalidField, time⟩ :: evList)

/-- Where the merge loop of `Split` stands: at `i` in the first commit's signatures and at `j`
in the second's, with the evidence found so far. -/
structure SplitState where
  i : Nat
  j : Nat
  evList : List ConcreteEvidence

/-- The evidence `Split` draws from signature `i` of the first commit and signature `j` of the
second, which carry the same address. -/
def matchEvidence (ev : ConflictingHeadersEvidence) (committedHeader : Header) (i j : Nat) :
    Go ConcreteEvidence := do
  let firstVote ← ev.h1.commit.GetVote i
  let secondVote ← ev.h2.commit.GetVote j
  if ev.h1.commit.round = ev.h2.commit.round then
    pure (.duplicateVote (NewDuplicateVoteEvidence firstVote secondVote ev.h1.header.time))
  else
    let newEv := NewPotentialAmnesiaEvidence firstVote secondVote committedHeader.time
    -- has the validator voted for an earlier round after a later one
    if newEv.voteA.round > newEv.voteB.round then
      pure (.amnesia ⟨newEv, ProofOfLockChange.NewEmptyPOLC⟩)
    else pure (.potentialAmnesia newEv)

/-- One round of `Split`'s merge loop; `none` once the outer loop is over.  A round of the inner
loop is a round here too: the checks of signature `i` that the outer loop would make again come
out as they did. -/
def splitStep (ev : ConflictingHeadersEvidence) (committedHeader : Header)
    (valSet : ValidatorSet) (s : SplitState) : Go (Option SplitState) :=
  match ev.h1.commit.signatures[s.i]? with
  | none => pure none
  | some sigA =>
    if sigA.Absent then pure (some { s with i := s.i + 1 })
    else if (valSet.GetByAddress sigA.validatorAddress).isNone then
      pure (some { s with i := s.i + 1 })
    else match ev.h2.commit.signatures[s.j]? with
      -- the inner loop ran out without `continue OUTER_LOOP`: the outer loop goes round again
      -- at the same `i`
      | none => pure (some s)
      | some sigB =>
        if sigB.Absent then pure (some { s with j := s.j + 1 })
        else match bytesCompare sigA.validatorAddress sigB.validatorAddress with
          | .eq => do
            let e ← matchEvidence ev committedHeader s.i s.j
            pure (some ⟨s.i + 1, s.j + 1, s.evList ++ [e]⟩)
          | .gt => pure (some { s with i := s.i + 1 })
          | .lt => pure (some { s with j := s.j + 1 })

/-- The merge loop of `Split`, for at most `fuel` rounds; `none` when they run out. -/
def splitLoop (ev : ConflictingHeadersEvidence) (committedHeader : Header)
    (valSet : ValidatorSet) : Nat → SplitState → Option (Go (List ConcreteEvidence))
  | 0, _ => none
  | fuel + 1, s =>
    match splitStep ev committedHeader valSet s with
    | .error e => some (.error e)
    | .ok none => some (.ok s.evList)
    | .ok (some s') => splitLoop ev committedHeader valSet fuel s'

/-- `Split`, its merge loop given `fuel` rounds.  The alternative header is the one whose hash
is not the committed header's; it is lunatic when one of the hashes of the application state
differs, and then each of its signers is blamed. -/
def Split (codec : EvidenceCodec) (ev : ConflictingHeadersEvidence) (committedHeader : Header)
    (valSet : ValidatorSet) (fuel : Nat) : Option (Go (List ConcreteEvidence)) :=
  let alternativeHeader :=
    if codec.headerHash committedHeader = codec.headerHash ev.h1.header then ev.h2 else ev.h1
  let invalidField := invalidHeaderField committedHeader alternativeHeader.header
  if invalidField ≠ "" then
    some (lunaticEvidence alternativeHeader invalidField committedHeader.time 0
      alternativeHeader.commit.signatures)
  else splitLoop ev committedHeader valSet fuel ⟨0, 0, []⟩

/-- `VerifyComposite`: one header is the committed one, and the other is of the same chain and
height, with at most twice as many signatures as the set has validators, and signed by more
than a third of the set's power. -/
def VerifyComposite (codec : EvidenceCodec) (crypto : Crypto) (ev : ConflictingHeadersEvidence)
    (committedHeader : Header) (valSet : ValidatorSet) : Go Unit := do
  let alternativeHeader ←
    if codec.headerHash committedHeader = codec.headerHash ev.h1.header then pure ev.h2
    else if codec.headerHash committedHeader = codec.headerHash ev.h2.header then pure ev.h1
    else throw (.err "none of the headers are committed from this node's perspective")
  if committedHeader.chainID ≠ alternativeHeader.header.chainID then
    throw (.err "alt header is from a different chain")
  if committedHeader.height ≠ alternativeHeader.header.height then
    throw (.err "alt header is from a different height")
  let maxNumValidators := valSet.Size * 2
  if alternativeHeader.commit.signatures.length > maxNumValidators then
    throw (.err "alt commit contains too many signatures: %d, expected no more than %d")
  (valSet.VerifyCommitLightTrusting crypto alternativeHeader.header.chainID
      alternativeHeader.commit ⟨1, 3⟩).mapError
    (GoError.wrap "alt header does not have 1/3+ of voting power of our validator set: ")

section Loop

variable {ev : ConflictingHeadersEvidence} {committedHeader : Header} {valSet : ValidatorSet}

lemma splitLoop_next {s s' : SplitState} (fuel : Nat)
    (h : splitStep ev committedHeader valSet s = .ok (some s')) :
    splitLoop ev committedHeader valSet (fuel + 1) s =
      splitLoop ev committedHeader valSet fuel s' := by
  rw [splitLoop, h]

/-- Once the loop has returned, more rounds return the same. -/
lemma splitLoop_mono : ∀ {fuel fuel' : Nat} {s : SplitState} {r : Go (List ConcreteEvidence)},
    splitLoop ev committedHeader valSet fuel s = some r → fuel ≤ fuel' →
      splitLoop ev committedHeader valSet fuel' s = some r
  | 0, _, _, _, h, _ => by cases h
  | fuel + 1, fuel', s, r, h, hle => by
    obtain ⟨m, rfl⟩ : ∃ m, fuel' = m + 1 := ⟨fuel' - 1, by omega⟩
    rw [splitLoop] at h ⊢
    cases hstep : splitStep ev committedHeader valSet s with
    | error e => simp only [hstep] at h ⊢; exact h
    | ok o =>
      cases o with
      | none => simp only [hstep] at h ⊢; exact h
      | some s' =>
        simp only [hstep] at h ⊢
        exact splitLoop_mono h (by omega)

/-- Signature `i` of the first commit is present and its validator in the set, while the second
commit's signatures are used up: the round leaves the loop where it is. -/
lemma splitStep_stuck {s : SplitState} {sigA : CommitSig}
    (hA : ev.h1.commit.signatures[s.i]? = some sigA) (hpresent : sigA.Absent = false)
    (hval : (valSet.GetByAddress sigA.validatorAddress).isSome)
    (hj : ev.h2.commit.signatures.length ≤ s.j) :
    splitStep ev committedHeader valSet s = .ok (some s) := by
  have hB : ev.h2.commit.signatures[s.j]? = none := List.getElem?_eq_none hj
  have hval' : valSet.GetByAddress sigA.validatorAddress ≠ none := Option.isSome_iff_ne_none.mp hval
  simp [splitStep, hA, hpresent, hval', hB, pure, Except.pure]

/-- From a state the round leaves as it is, no number of rounds returns. -/
lemma splitLoop_stuck {s : SplitState} (h : splitStep ev committedHeader valSet s = .ok (some s)) :
    ∀ fuel, splitLoop ev committedHeader valSet fuel s = none
  | 0 => rfl
  | fuel + 1 => by rw [splitLoop_next fuel h]; exact splitLoop_stuck h fuel

/-- With the first header the committed one and the second not lunatic against it, `Split` is
its merge loop from the start. -/
lemma Split_of_committed_h1 (codec : EvidenceCodec) (valSet : ValidatorSet) (fuel : Nat)
    (hc : committedHeader = ev.h1.header)
    (hfield : invalidHeaderField committedHeader ev.h2.header = "") :
    Split codec ev committedHeader valSet fuel =
      splitLoop ev committedHeader valSet fuel ⟨0, 0, []⟩ := by
  subst hc
  simp [Split, hfield]

end Loop

/-! ### Where the merge loop fails

Commit signatures are in the set's order, power descending and then address ascending, while
the merge loop advances as if they were in descending address order. -/

/-- The validator at address `List.replicate 20 a`. -/
def forkValidator (a : UInt8) (power priority : Int) : Validator :=
  ⟨List.replicate 20 a, [], power, priority⟩

/-- A signature for `oneBlockID` by the validator at `List.replicate 20 a`, as `echoCrypto`
signs. -/
def forkSig (a : UInt8) : CommitSig := ⟨.BlockIDFlagCommit, List.replicate 20 a, 0, [1]⟩

/-- Headers `forkHeader 1` and `forkHeader 2`, both committed in round `0` with the signatures
`sigs1` and `sigs2`. -/
def forkEvidence (sigs1 sigs2 : List CommitSig) : ConflictingHeadersEvidence :=
  ⟨⟨forkHeader 1, NewCommit 1 0 ValidatorSet.oneBlockID sigs1⟩,
    ⟨forkHeader 2, NewCommit 1 0 ValidatorSet.oneBlockID sigs2⟩⟩

/-- Two validators of power one, at `1…` and `2…`, as `NewValidatorSet` makes them. -/
def pairSet : ValidatorSet :=
  ⟨[forkValidator 1 1 (-1), forkValidator 2 1 1], some (forkValidator 1 1 (-1)), 2⟩

/-- Both validators of `pairSet` signed the first header; the one at `2…` alone the second. -/
def hangEvidence : ConflictingHeadersEvidence :=
  forkEvidence [forkSig 1, forkSig 2] [NewCommitSigAbsent, forkSig 2]

/-- The validator at `5…` of power two and two of power one at `1…` and `2…`, as
`NewValidatorSet` makes them. -/
def trioSet : ValidatorSet :=
  ⟨[forkValidator 5 2 (-2), forkValidator 1 1 1, forkValidator 2 1 1],
    some (forkValidator 5 2 (-2)), 4⟩

/-- The validators at `5…` and `2…` of `trioSet` signed both headers, the one at `1…` only the
second. -/
def missEvidence : ConflictingHeadersEvidence :=
  forkEvidence [forkSig 5, NewCommitSigAbsent, forkSig 2] [forkSig 5, forkSig 1, forkSig 2]

/-- **`Split` is not a merge of commits in validator-set order.**  Both sets are
`NewValidatorSet`'s, both evidences pass `VerifyComposite` whatever the codec, and neither
alternative header is lunatic.  In `pairSet` the validator at `1…` signed the first header only;
its address compares below the second commit's `2…`, the inner loop runs out, and the outer loop
goes round at that signature for ever.  In `trioSet` the validator at `2…` signed both headers,
but the second commit's `1…`, which comes before it, compares below it and makes the loop step
past it: the only evidence is the one for `5…`. -/
theorem Split_hangs_or_misses (codec : EvidenceCodec) :
    NewValidatorSet [forkValidator 1 1 0, forkValidator 2 1 0] = .ok pairSet ∧
      VerifyComposite codec VoteSet.echoCrypto hangEvidence (forkHeader 1) pairSet = .ok () ∧
      (∀ fuel, Split codec hangEvidence (forkHeader 1) pairSet fuel = none) ∧
    NewValidatorSet [forkValidator 5 2 0, forkValidator 1 1 0, forkValidator 2 1 0] =
        .ok trioSet ∧
      VerifyComposite codec VoteSet.echoCrypto missEvidence (forkHeader 1) trioSet = .ok () ∧
      ∀ fuel, 4 ≤ fuel → ∃ evList, Split codec missEvidence (forkHeader 1) trioSet fuel =
        some (.ok evList) ∧ evList.map ConcreteEvidence.Address = [.ok (List.replicate 20 5)] := by
  refine ⟨by decide +kernel, ?_, fun fuel => ?_, by decide +kernel, ?_, fun fuel hfuel => ?_⟩
  · simp only [VerifyComposite, hangEvidence, forkEvidence, if_true]
    decide
  · have hsplit : Split codec hangEvidence (forkHeader 1) pairSet fuel =
        splitLoop hangEvidence (forkHeader 1) pairSet fuel ⟨0, 0, []⟩ :=
      Split_of_committed_h1 codec pairSet fuel rfl (by decide)
    rw [hsplit]
    -- two rounds lead to `j = 2`, past the second commit's signatures, with `i = 0`
    have h0 : splitStep hangEvidence (forkHeader 1) pairSet ⟨0, 0, []⟩ = .ok (some ⟨0, 1, []⟩) :=
      rfl
    have h1 : splitStep hangEvidence (forkHeader 1) pairSet ⟨0, 1, []⟩ = .ok (some ⟨0, 2, []⟩) :=
      rfl
    have h2 : splitStep hangEvidence (forkHeader 1) pairSet ⟨0, 2, []⟩ = .ok (some ⟨0, 2, []⟩) :=
      splitStep_stuck rfl rfl rfl (le_refl 2)
    rcases fuel with _ | _ | fuel
    · rfl
    · rw [splitLoop_next 0 h0]; rfl
    · rw [splitLoop_next (fuel + 1) h0, splitLoop_next fuel h1]
      exact splitLoop_stuck h2 fuel
  · simp only [VerifyComposite, missEvidence, forkEvidence, if_true]
    decide
  · have hsplit : Split codec missEvidence (forkHeader 1) trioSet fuel =
        splitLoop missEvidence (forkHeader 1) trioSet fuel ⟨0, 0, []⟩ :=
      Split_of_committed_h1 codec trioSet fuel rfl (by decide)
    rw [hsplit]
    exact ⟨_, splitLoop_mono rfl hfuel, by decide +kernel⟩

end ConflictingHeadersEvidence

end Tendermint
