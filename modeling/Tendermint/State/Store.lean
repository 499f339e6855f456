import Tendermint.State.Execution
import Tendermint.Types.ValidatorSet

/-!
# The state store (`state/store.go`)

The store keeps, for every height, the validator set and the consensus parameters in effect at
it.  To save space it writes a full validator set only at the heights where the set changed and
at every checkpoint (`valSetCheckpointInterval`), and else a pointer to the height it last
changed at (`LastHeightChanged`); the consensus parameters are written in full only at the
height they changed at.  `LoadValidators` and `LoadConsensusParams` follow the pointer.

`saveState` writes the entries for the next heights from the state's own `LastHeight…Changed`
fields, so these must point at heights the store has.  `BootstrapState` writes full entries for
the heights around a state obtained by state sync, but `lightClientStateProvider.State` leaves
`LastHeightConsensusParamsChanged` at `0`:

* **`LoadConsensusParams_after_bootstrap`** — after a state-synced node bootstraps its store and
  saves the state of the next block, loading the consensus parameters of the height after it
  panics, for the entry there points at height `0`, which no save ever writes.

The entries of each kind are kept in a tm-db database, of which the model uses the contract only
(`KVStore.DB`); `emptyDB` is an empty store in memory.  `updateState` is modelled with the
validator and parameter updates the application returns; the light client behind the state
provider is given by its answers.
-/

namespace Tendermint

namespace sm

open ExceptRun

variable {σv σp : Type}

/-- `valSetCheckpointInterval`. -/
def valSetCheckpointInterval : Int := 100000

/-- The fields of `sm.State` that the store and `updateState` read. -/
structure State where
  ChainID : String
  InitialHeight : Int
  LastBlockHeight : Int
  LastValidators : ValidatorSet
  Validators : ValidatorSet
  NextValidators : ValidatorSet
  LastHeightValidatorsChanged : Int
  ConsensusParams : ConsensusParams
  LastHeightConsensusParamsChanged : Int

/-- `tmstate.ValidatorsInfo`: the set, when it is stored in full, and the height it last changed
at. -/
structure ValidatorsInfo where
  ValidatorSet : Option ValidatorSet
  LastHeightChanged : Int

/-- `tmstate.ConsensusParamsInfo`: the parameters, empty when only the pointer is stored. -/
structure ConsensusParamsInfo where
  ConsensusParams : ConsensusParams
  LastHeightChanged : Int

/-- The empty `tmproto.ConsensusParams{}`. -/
def emptyParams : ConsensusParams := ⟨⟨0, 0, 0⟩, ⟨0, 0, 0, 0⟩, ⟨[]⟩⟩

/-- The store: the validator and parameter entries by height, each in a tm-db database, and the
saved state.  Nothing here iterates, so the order of the keys is not used. -/
structure DB (σv σp : Type) where
  validators : KVStore.DB σv Int ValidatorsInfo (· < ·)
  consensusParams : KVStore.DB σp Int ConsensusParamsInfo (· < ·)
  state : Option State

/-- An empty database of the entries of one kind, in memory. -/
def memTable (ν : Type) : KVStore.DB (AList fun _ : Int => ν) Int ν (· < ·) :=
  KVStore.DB.emptyAList (fun _ _ => lt_asymm) (fun _ _ _ => lt_trans) (fun _ _ => lt_or_gt_of_ne)

/-- The empty store. -/
def emptyDB :
    DB (AList fun _ : Int => ValidatorsInfo) (AList fun _ : Int => ConsensusParamsInfo) :=
  ⟨memTable _, memTable _, none⟩

/-- `tmmath.SafeConvertInt32`: a value outside `int32` panics. -/
def SafeConvertInt32 (a : Int) : Go Int :=
  if a > MaxInt32 then throw (.panic "int32 overflow")
  else if a < -2 ^ 31 then throw (.panic "int32 overflow")
  else pure a

/-- `lastStoredHeightFor`: the later of the last checkpoint and the last change. -/
def lastStoredHeightFor (height lastHeightChanged : Int) : Int :=
  max (height - height.tmod valSetCheckpointInterval) lastHeightChanged

namespace DB

/-- `saveValidatorsInfo`: the full set only at a change or a checkpoint. -/
def saveValidatorsInfo (db : DB σv σp) (height lastHeightChanged : Int) (valSet : ValidatorSet) :
    Go (DB σv σp) :=
  if lastHeightChanged > height then
    throw (.panic "LastHeightChanged cannot be greater than ValidatorsInfo height")
  else
    let stored := height = lastHeightChanged ∨ height.tmod valSetCheckpointInterval = 0
    let valInfo : ValidatorsInfo := ⟨if stored then some valSet else none, lastHeightChanged⟩
    pure { db with validators := db.validators.Set height valInfo }

/-- `saveConsensusParamsInfo`: the parameters only at the height they changed at. -/
def saveConsensusParamsInfo (db : DB σv σp) (nextHeight changeHeight : Int)
    (params : ConsensusParams) : DB σv σp :=
  let paramsInfo : ConsensusParamsInfo :=
    ⟨if changeHeight = nextHeight then params else emptyParams, changeHeight⟩
  { db with consensusParams := db.consensusParams.Set nextHeight paramsInfo }

/-- `saveState`. -/
def saveState (db : DB σv σp) (state : State) : Go (DB σv σp) := do
  let nextHeight := state.LastBlockHeight + 1
  -- at the first block, the validators of the initial height as well
  let (db, nextHeight) ← if nextHeight = 1 then do
      let db ← db.saveValidatorsInfo state.InitialHeight state.InitialHeight state.Validators
      pure (db, state.InitialHeight)
    else pure (db, nextHeight)
  let db ← db.saveValidatorsInfo (nextHeight + 1) state.LastHeightValidatorsChanged
    state.NextValidators
  let db := db.saveConsensusParamsInfo nextHeight state.LastHeightConsensusParamsChanged
    state.ConsensusParams
  pure { db with state := some state }

/-- `SaveState`. -/
def SaveState (db : DB σv σp) (state : State) : Go (DB σv σp) := db.saveState state

/-- `BootstrapState`: full entries for the heights around the state. -/
def BootstrapState (db : DB σv σp) (state : State) : Go (DB σv σp) := do
  let height := if state.LastBlockHeight + 1 = 1 then state.InitialHeight
    else state.LastBlockHeight + 1
  let db ← if height > 1 && !state.LastValidators.IsNilOrEmpty then
      db.saveValidatorsInfo (height - 1) (height - 1) state.LastValidators
    else pure db
  let db ← db.saveValidatorsInfo height height state.Validators
  let db ← db.saveValidatorsInfo (height + 1) (height + 1) state.NextValidators
  let db := db.saveConsensusParamsInfo height height state.ConsensusParams
  pure { db with state := some state }

/-- `LoadValidators`: a pointer is followed to the last stored set, whose priorities are then
moved on to the height asked for. -/
def LoadValidators (db : DB σv σp) (height : Int) : Go ValidatorSet :=
  match db.validators.Get height with
  | none => throw (.err ("could not find validator set for height #" ++ toString height))
  | some ⟨some vs, _⟩ => pure vs
  | some ⟨none, lastHeightChanged⟩ =>
    let lastStoredHeight := lastStoredHeightFor height lastHeightChanged
    match db.validators.Get lastStoredHeight with
    | some ⟨some vs, _⟩ => do
      let times ← SafeConvertInt32 (height - lastStoredHeight)
      vs.IncrementProposerPriority times
    | _ => throw (.panic ("Couldn't find validators at height " ++ toString lastStoredHeight ++
        " (height " ++ toString height ++ " was originally requested)"))

/-- `LoadConsensusParams`: an empty entry is followed to the height it points at. -/
def LoadConsensusParams (db : DB σv σp) (height : Int) : Go ConsensusParams :=
  match db.consensusParams.Get height with
  | none => throw (.err ("could not find consensus params for height #" ++ toString height))
  | some paramsInfo =>
    if paramsInfo.ConsensusParams = emptyParams then
      match db.consensusParams.Get paramsInfo.LastHeightChanged with
      | none => throw (.panic ("Couldn't find consensus params at height " ++
          toString paramsInfo.LastHeightChanged ++ " as last changed from height " ++
          toString height))
      | some paramsInfo2 => pure paramsInfo2.ConsensusParams
    else pure paramsInfo.ConsensusParams

/-! ### What each write leaves alone -/

/-- A validator entry is written unless its pointer is past its height; the parameter entries
stay as they are. -/
lemma saveValidatorsInfo_ok (db : DB σv σp) {height lastHeightChanged : Int}
    (valSet : ValidatorSet) (hle : lastHeightChanged ≤ height) :
    ∃ db', db.saveValidatorsInfo height lastHeightChanged valSet = .ok db' ∧
      db'.consensusParams = db.consensusParams := by
  have hnot : ¬ lastHeightChanged > height := not_lt.mpr hle
  simp only [saveValidatorsInfo, hnot, if_false]
  exact ⟨_, rfl, rfl⟩

/-- `BootstrapState` after the first block: no write panics, and the parameters are written in
full at the next height. -/
lemma BootstrapState_ok (db : DB σv σp) {state : State} (hpos : 0 < state.LastBlockHeight) :
    ∃ db', db.BootstrapState state = .ok db' ∧
      db'.consensusParams = db.consensusParams.Set (state.LastBlockHeight + 1)
        ⟨state.ConsensusParams, state.LastBlockHeight + 1⟩ := by
  have hnext : state.LastBlockHeight + 1 ≠ 1 := by omega
  -- the three validator entries, one after the other
  have hlast : ∃ db₀, (if state.LastBlockHeight + 1 > 1 && !state.LastValidators.IsNilOrEmpty then
      db.saveValidatorsInfo (state.LastBlockHeight + 1 - 1) (state.LastBlockHeight + 1 - 1)
        state.LastValidators else pure db) = .ok db₀ ∧ db₀.consensusParams = db.consensusParams := by
    split
    · exact saveValidatorsInfo_ok _ _ le_rfl
    · exact ⟨db, rfl, rfl⟩
  obtain ⟨db₀, h₀, hp₀⟩ := hlast
  obtain ⟨db₁, h₁, hp₁⟩ := saveValidatorsInfo_ok db₀ state.Validators
    (le_refl (state.LastBlockHeight + 1))
  obtain ⟨db₂, h₂, hp₂⟩ := saveValidatorsInfo_ok db₁ state.NextValidators
    (le_refl (state.LastBlockHeight + 1 + 1))
  refine ⟨{ db₂.saveConsensusParamsInfo (state.LastBlockHeight + 1) (state.LastBlockHeight + 1)
    state.ConsensusParams with state := some state }, ?_, ?_⟩
  · simp only [BootstrapState, hnext, if_false]
    -- Go writes the last validators first only past the first height
    split_ifs at h₀ ⊢
    · simp only [h₀, h₁, h₂, ok_bind]
      rfl
    · rw [pure_eq_ok] at h₀
      subst h₀
      simp only [pure_bind, h₁, h₂, ok_bind]
      rfl
  · simp [saveConsensusParamsInfo, hp₂, hp₁, hp₀]

/-- `saveState` after the first block, with the validators' pointer at most two heights ahead:
no write panics, and the parameter entry of the next height is written from the state's
pointer. -/
lemma saveState_ok (db : DB σv σp) {state : State} (hpos : 0 < state.LastBlockHeight)
    (hvals : state.LastHeightValidatorsChanged ≤ state.LastBlockHeight + 2) :
    ∃ db', db.saveState state = .ok db' ∧
      db'.consensusParams = db.consensusParams.Set (state.LastBlockHeight + 1)
        ⟨if state.LastHeightConsensusParamsChanged = state.LastBlockHeight + 1 then
            state.ConsensusParams else emptyParams,
          state.LastHeightConsensusParamsChanged⟩ := by
  have hnext : state.LastBlockHeight + 1 ≠ 1 := by omega
  obtain ⟨db₁, h₁, hp₁⟩ := saveValidatorsInfo_ok db state.NextValidators
    (show state.LastHeightValidatorsChanged ≤ state.LastBlockHeight + 1 + 1 by omega)
  refine ⟨{ db₁.saveConsensusParamsInfo (state.LastBlockHeight + 1)
    state.LastHeightConsensusParamsChanged state.ConsensusParams with state := some state }, ?_, ?_⟩
  · simp only [saveState, hnext, if_false, pure_bind, h₁, ok_bind]
    rfl
  · simp [saveConsensusParamsInfo, hp₁]

end DB

/-! ## Updating the state -/

/-- `abci.BlockParams`. -/
structure ABCIBlockParams where
  MaxBytes : Int
  MaxGas : Int

/-- `abci.EvidenceParams`. -/
structure ABCIEvidenceParams where
  MaxAgeNumBlocks : Int
  MaxAgeDuration : Int
  MaxNum : UInt32

/-- `abci.ConsensusParams`, without the version, which the model of the parameters leaves out. -/
structure ABCIConsensusParams where
  Block : Option ABCIBlockParams
  Evidence : Option ABCIEvidenceParams
  Validator : Option ValidatorParams

/-- `types.UpdateConsensusParams`: each part given replaces the fields it has. -/
def UpdateConsensusParams (params : ConsensusParams) : Option ABCIConsensusParams → ConsensusParams
  | none => params
  | some params2 =>
    let res := params
    let res := match params2.Block with
      | some b => { res with Block := { res.Block with MaxBytes := b.MaxBytes, MaxGas := b.MaxGas } }
      | none => res
    let res := match params2.Evidence with
      | some e =>
        { res with
          Evidence := { res.Evidence with
            MaxAgeNumBlocks := e.MaxAgeNumBlocks, MaxAgeDuration := e.MaxAgeDuration,
            MaxNum := e.MaxNum } }
      | none => res
    match params2.Validator with
    | some v => { res with Validator := v }
    | none => res

/-- `updateState`, given the block's height and the application's validator and parameter
updates. -/
def updateState (state : State) (height : Int) (validatorUpdates : List Validator)
    (paramUpdates : Option ABCIConsensusParams) : Go State := do
  let (nValSet, lastHeightValsChanged) ← if validatorUpdates.length > 0 then do
      let nValSet ← (state.NextValidators.UpdateWithChangeSet validatorUpdates).mapError
        (GoError.wrap "error changing validator set: ")
      -- a change at this height applies from the one after the next
      pure (nValSet, height + 1 + 1)
    else pure (state.NextValidators, state.LastHeightValidatorsChanged)
  let nValSet ← nValSet.IncrementProposerPriority 1
  let (nextParams, lastHeightParamsChanged) ← if paramUpdates.isSome then do
      let nextParams := UpdateConsensusParams state.ConsensusParams paramUpdates
      (ValidateConsensusParams nextParams).mapError fun err =>
        .err ("error updating consensus params: " ++ err)
      pure (nextParams, height + 1)
    else pure (state.ConsensusParams, state.LastHeightConsensusParamsChanged)
  pure { state with
    LastBlockHeight := height
    NextValidators := nValSet
    Validators := state.NextValidators
    LastValidators := state.Validators
    LastHeightValidatorsChanged := lastHeightValsChanged
    ConsensusParams := nextParams
    LastHeightConsensusParamsChanged := lastHeightParamsChanged }

/-! ## The state of a state-synced node -/

/-- `lightClientStateProvider`, by the light client's answers: its verified headers and trusted
validator sets, the address of its primary, and the consensus parameters the verifying RPC
client returns. -/
structure lightClientStateProvider where
  ChainID : String
  initialHeight : Int
  VerifyHeaderAtHeight : Int → Except String Header
  TrustedValidatorSet : Int → Except String ValidatorSet
  primaryURL : String
  ConsensusParams : Int → Except String ConsensusParams

/-- `lightClientStateProvider.State`. -/
def lightClientStateProvider.State (s : lightClientStateProvider) (height : Nat) :
    Except String State := do
  let initialHeight := if s.initialHeight = 0 then 1 else s.initialHeight
  -- verify up to height + 2, for the validator set
  let _ ← s.VerifyHeaderAtHeight (height + 2)
  let header ← s.VerifyHeaderAtHeight height
  let nextHeader ← s.VerifyHeaderAtHeight (height + 1)
  let lastValidators ← s.TrustedValidatorSet height
  let validators ← s.TrustedValidatorSet (height + 1)
  let nextValidators ← s.TrustedValidatorSet (height + 2)
  if s.primaryURL = "" then throw "could not find address for primary light client provider"
  let params ← (s.ConsensusParams nextHeader.height).mapError fun err =>
    "unable to fetch consensus parameters for height " ++ toString nextHeader.height ++ ": " ++ err
  -- `LastHeightConsensusParamsChanged` is left at its zero value
  pure ⟨s.ChainID, initialHeight, header.height, lastValidators, validators, nextValidators,
    height, params, 0⟩

/-- A state from the provider points its validators at the height asked for, and its
parameters at height `0`. -/
lemma lightClientStateProvider.State_pointers {s : lightClientStateProvider} {height : Nat}
    {st : sm.State} (h : s.State height = .ok st) :
    st.LastHeightValidatorsChanged = height ∧ st.LastHeightConsensusParamsChanged = 0 := by
  unfold lightClientStateProvider.State at h
  obtain ⟨_, -, h⟩ := bind_eq_ok h
  obtain ⟨header, -, h⟩ := bind_eq_ok h
  obtain ⟨nextHeader, -, h⟩ := bind_eq_ok h
  obtain ⟨lastValidators, -, h⟩ := bind_eq_ok h
  obtain ⟨validators, -, h⟩ := bind_eq_ok h
  obtain ⟨nextValidators, -, h⟩ := bind_eq_ok h
  -- past the check of the primary's address, only the parameters are fetched
  dsimp only at h
  split at h
  · rw [throw_bind] at h
    cases h
  · obtain ⟨params, -, h⟩ := bind_eq_ok h
    rw [pure_eq_ok] at h
    subst h
    exact ⟨rfl, rfl⟩

/-- With no updates from the application, `updateState` moves the validator sets on by one and
keeps both pointers. -/
lemma updateState_no_updates {state : State} {height : Int} {nextVals : ValidatorSet}
    (hinc : state.NextValidators.IncrementProposerPriority 1 = .ok nextVals) :
    updateState state height [] none = .ok { state with
      LastBlockHeight := height, NextValidators := nextVals, Validators := state.NextValidators,
      LastValidators := state.Validators } := by
  simp only [updateState, List.length_nil, lt_irrefl, if_false, pure_bind, hinc, ok_bind,
    Option.isSome_none, Bool.false_eq_true]
  rfl

/-- A node that state-syncs to a height, bootstraps its store with the provider's state and
saves the state of the next block cannot load the consensus parameters of the height after
that block: the entry there points at height `0`. -/
theorem LoadConsensusParams_after_bootstrap (s : lightClientStateProvider) (height : Nat)
    (st : State) (db : DB σv σp) (nextVals : ValidatorSet)
    (hstate : s.State height = .ok st) (hlast : st.LastBlockHeight = height) (hpos : 0 < height)
    (hzero : db.consensusParams.Get 0 = none)
    (hinc : st.NextValidators.IncrementProposerPriority 1 = .ok nextVals) :
    ∃ db₁ st₁ db₂, db.BootstrapState st = .ok db₁ ∧
      updateState st (height + 1) [] none = .ok st₁ ∧ db₁.SaveState st₁ = .ok db₂ ∧
      db₂.LoadConsensusParams (st₁.LastBlockHeight + 1) =
        .error (.panic ("Couldn't find consensus params at height 0 as last changed from height " ++
          toString ((height : Int) + 1 + 1))) := by
  obtain ⟨hvals, hparams⟩ := lightClientStateProvider.State_pointers hstate
  obtain ⟨db₁, hboot, hp₁⟩ := DB.BootstrapState_ok db (show 0 < st.LastBlockHeight by omega)
  have hupdate := @updateState_no_updates st ((height : Int) + 1) nextVals hinc
  obtain ⟨db₂, hsave, hp₂⟩ := @DB.saveState_ok _ _ db₁
    { st with
      LastBlockHeight := (height : Int) + 1, NextValidators := nextVals,
      Validators := st.NextValidators, LastValidators := st.Validators }
    (by simp only; omega) (by simp only [hvals]; omega)
  refine ⟨db₁, _, db₂, hboot, hupdate, hsave, ?_⟩
  -- the entry after the saved block points at height 0, which no write reached
  have hentry : db₂.consensusParams.Get ((height : Int) + 1 + 1) =
      some ⟨emptyParams, 0⟩ := by
    simp only [hp₂, hparams, KVStore.DB.Get_Set, if_true]
    rw [if_neg (by omega)]
  have hmissing : db₂.consensusParams.Get 0 = none := by
    simp only [hp₂, hp₁, KVStore.DB.Get_Set, hzero]
    rw [if_neg (by omega), if_neg (by omega)]
  simp only [DB.LoadConsensusParams, hentry, if_true, hmissing]
  rfl

/-- A header of the test chain at a height. -/
def syncHeader (height : Int) : Header :=
  ⟨⟨0, 0⟩, "test-chain", height, 0, ⟨[], ⟨0, []⟩⟩, [], [], [], [], [], [], [], [], []⟩

/-- One validator of power ten. -/
def syncValidator : Validator := ⟨List.replicate 20 1, List.replicate 32 1, 10, 0⟩

/-- The set of that validator, its total power not yet computed. -/
def syncVals : ValidatorSet := ⟨[syncValidator], none, 0⟩

/-- A light client of the test chain that verifies every height, with that set throughout and
the default parameters. -/
def syncProvider : lightClientStateProvider :=
  ⟨"test-chain", 1, fun h => .ok (syncHeader h), fun _ => .ok syncVals, "tcp://127.0.0.1:26657",
    fun _ => .ok DefaultConsensusParams⟩

/-- Synced to height one from that light client, bootstrapped into an empty store and saved at
height two, the node cannot load the parameters of height three. -/
theorem LoadConsensusParams_after_bootstrap_one :
    ∃ db₁ st₁ db₂, emptyDB.BootstrapState
        ⟨"test-chain", 1, 1, syncVals, syncVals, syncVals, 1, DefaultConsensusParams, 0⟩ = .ok db₁ ∧
      updateState ⟨"test-chain", 1, 1, syncVals, syncVals, syncVals, 1, DefaultConsensusParams, 0⟩
        (((1 : Nat) : Int) + 1) [] none = .ok st₁ ∧
      db₁.SaveState st₁ = .ok db₂ ∧
      db₂.LoadConsensusParams (st₁.LastBlockHeight + 1) =
        .error (.panic ("Couldn't find consensus params at height 0 as last changed from height " ++
          toString (((1 : Nat) : Int) + 1 + 1))) :=
  LoadConsensusParams_after_bootstrap syncProvider 1 _ emptyDB
    ⟨[{ syncValidator with proposerPriority := 0 }], some syncValidator, 10⟩ rfl rfl (by decide) rfl
    rfl

end sm

end Tendermint
