import Kei.Lib.Prog
import Kei.Lib.Str
import Kei.Store

/-!
# Kei.SyncCycle

One sync cycle: the config-hash checks, the loop over the selected libraries
with its mode choice, its download runs and its checkpoint writes, and the
promotion of a finished reconciliation.

The cycle is a program over a `World` that holds the metadata rows.  What it
cannot decide itself comes from an `Env`: which store calls fail, where the
process stops, and what each download run reports.  The world also keeps the
history of the events the properties talk about; nothing in the cycle reads it.
-/

namespace Kei.SyncCycle

open Str
open Store

/-! ## what the download engine reports -/

/-- How a sync should enumerate photos. -/
inductive SyncMode where
  /-- Full enumeration; captures a sync token on completion. -/
  | full
  /-- Delta since the stored token. -/
  | incremental (zoneSyncToken : String)
  deriving DecidableEq

inductive DownloadOutcome where
  | success
  | sessionExpired (authErrorCount : Nat)
  | partialFailure (failedCount : Nat)
  deriving DecidableEq

inductive FullEnumerationReason where
  | noStoredToken
  | metadataBackfill
  | albumRelationHydrationIncomplete
  | enumConfigHashDrift
  | downloadConfigHashDrift
  | explicitRetryFailed
  | otherStaticReason
  deriving DecidableEq

def FullEnumerationReason.asStr : FullEnumerationReason → String
  | .noStoredToken => "no_stored_token"
  | .metadataBackfill => "metadata_backfill"
  | .albumRelationHydrationIncomplete => "album_relation_hydration_incomplete"
  | .enumConfigHashDrift => "enum_config_hash_drift"
  | .downloadConfigHashDrift => "download_config_hash_drift"
  | .explicitRetryFailed => "explicit_retry_failed"
  | .otherStaticReason => "other_static_reason"

/-- The statistics of a run that the cycle reads or returns. -/
structure SyncStats where
  apiTotalAtStart : Option Nat := none
  /-- The total is that of some libraries alone. -/
  apiTotalAtStartPartial : Bool := false
  failed : Nat := 0
  exifFailures : Nat := 0
  stateWriteFailures : Nat := 0
  enumerationErrors : Nat := 0
  enumerationIncomplete : Bool := false
  syncTokenBlocked : Bool := false
  syncTokenBlockedReason : Option String := none
  syncTokenBlockedSource : Option String := none
  syncTokenBlockedExplanation : Option String := none
  syncTokenBlockedZone : Option String := none
  fullEnumerationReason : Option FullEnumerationReason := none
  checkpointRetryPasses : List String := []
  checkpointRevalidateRecords : List String := []
  interrupted : Bool := false
  deriving DecidableEq

/-- The largest value of the counters. -/
def counterMax : Nat := 2 ^ 64 - 1

/-- `saturating_add`. -/
def saturatingAdd (a b : Nat) : Nat := min (a + b) counterMax

/-- The combined total of two counts that may be unknown. -/
def addTotals : Option Nat → Option Nat → Option Nat
  | some a, some b => some (saturatingAdd a b)
  | some a, none => some a
  | none, b => b

/-- `SyncStats::accumulate`. -/
def SyncStats.accumulate (s other : SyncStats) : SyncStats where
  apiTotalAtStart := addTotals s.apiTotalAtStart other.apiTotalAtStart
  apiTotalAtStartPartial :=
    s.apiTotalAtStartPartial || other.apiTotalAtStartPartial ||
      (s.apiTotalAtStart.isSome != other.apiTotalAtStart.isSome &&
        (addTotals s.apiTotalAtStart other.apiTotalAtStart).isSome)
  failed := s.failed + other.failed
  exifFailures := s.exifFailures + other.exifFailures
  stateWriteFailures := s.stateWriteFailures + other.stateWriteFailures
  enumerationErrors := s.enumerationErrors + other.enumerationErrors
  enumerationIncomplete := s.enumerationIncomplete || other.enumerationIncomplete
  syncTokenBlocked := s.syncTokenBlocked || other.syncTokenBlocked
  syncTokenBlockedReason := s.syncTokenBlockedReason <|> other.syncTokenBlockedReason
  syncTokenBlockedSource := s.syncTokenBlockedSource <|> other.syncTokenBlockedSource
  syncTokenBlockedExplanation := s.syncTokenBlockedExplanation <|> other.syncTokenBlockedExplanation
  syncTokenBlockedZone := s.syncTokenBlockedZone <|> other.syncTokenBlockedZone
  fullEnumerationReason := s.fullEnumerationReason <|> other.fullEnumerationReason
  checkpointRetryPasses := s.checkpointRetryPasses ++ other.checkpointRetryPasses
  checkpointRevalidateRecords := s.checkpointRevalidateRecords ++ other.checkpointRevalidateRecords
  interrupted := s.interrupted || other.interrupted

/-- The result of one download run. -/
structure SyncResult where
  outcome : DownloadOutcome
  syncToken : Option String
  stats : SyncStats
  /-- The result came from a full enumeration. -/
  fullEnumerationRan : Bool
  deriving DecidableEq

/-- A full enumeration reports the same, and always that it was one. -/
structure FullRun where
  outcome : DownloadOutcome
  syncToken : Option String
  stats : SyncStats
  deriving DecidableEq

def mergeDownloadOutcomes : DownloadOutcome → DownloadOutcome → DownloadOutcome
  | .sessionExpired n, _ => .sessionExpired n
  | _, .sessionExpired n => .sessionExpired n
  | .partialFailure m, .partialFailure n => .partialFailure (saturatingAdd m n)
  | .partialFailure m, _ => .partialFailure m
  | _, .partialFailure n => .partialFailure n
  | .success, .success => .success

/-! ## checkpoint decisions -/

inductive CheckpointBasis where
  | incrementalDelta
  | completeInventory
  | inventoryWithDeltaBridge
  deriving DecidableEq

inductive CheckpointHoldReason where
  | dryRun
  | stalePassPlan
  | interrupted
  | sessionExpired
  | enumerationIncomplete
  | stateNotDurable
  | tokenProofIncomplete
  deriving DecidableEq

inductive RecoveryAction where
  | continueTail
  | retryPasses (passes : List String)
  | revalidateRecords (records : List String)
  | replayFromPriorToken
  | reconcileInventory (reason : FullEnumerationReason)
  | reauthenticate
  | stop
  deriving DecidableEq

def RecoveryAction.asStr : RecoveryAction → String
  | .continueTail => "continue_tail"
  | .retryPasses _ => "retry_passes"
  | .revalidateRecords _ => "revalidate_records"
  | .replayFromPriorToken => "replay_from_prior_token"
  | .reconcileInventory _ => "reconcile_inventory"
  | .reauthenticate => "reauthenticate"
  | .stop => "stop"

inductive SourceCheckpointDecision where
  | advance (token : String) (basis : CheckpointBasis)
  | preserve (reason : CheckpointHoldReason) (recovery : RecoveryAction)
  deriving DecidableEq

/-- A token that is not blank: `filter(|token| !token.trim().is_empty())`. -/
def nonBlank (token : Option String) : Option String :=
  token.filter (fun t => trim t != "")

def isSessionExpired : DownloadOutcome → Bool
  | .sessionExpired _ => true
  | _ => false

/-- Whether a run's result may move the zone checkpoint, and to which token. -/
def sourceCheckpointDecision (result : SyncResult) (dryRun stalePassPlan : Bool)
    (basis : CheckpointBasis) : SourceCheckpointDecision :=
  if dryRun then
    .preserve .dryRun .stop
  else if stalePassPlan then
    .preserve .stalePassPlan .replayFromPriorToken
  else if isSessionExpired result.outcome then
    .preserve .sessionExpired .reauthenticate
  else if result.stats.interrupted then
    .preserve .interrupted .replayFromPriorToken
  else if 0 < result.stats.enumerationErrors || result.stats.enumerationIncomplete then
    .preserve .enumerationIncomplete .continueTail
  else if 0 < result.stats.stateWriteFailures then
    .preserve .stateNotDurable .replayFromPriorToken
  else
    match nonBlank result.syncToken with
    | none =>
        .preserve .tokenProofIncomplete
          (if result.stats.checkpointRetryPasses ≠ [] then
            .retryPasses result.stats.checkpointRetryPasses
          else if result.stats.checkpointRevalidateRecords ≠ [] then
            .revalidateRecords result.stats.checkpointRevalidateRecords
          else
            .replayFromPriorToken)
    | some token =>
        if result.stats.syncTokenBlocked then
          .preserve .tokenProofIncomplete
            (if result.stats.checkpointRetryPasses = [] then
              .replayFromPriorToken
            else
              .retryPasses result.stats.checkpointRetryPasses)
        else
          .advance token basis

/-! ## metadata keys -/

def enumConfigHashKey : String := "enum_config_hash"
def pendingEnumConfigHashKey : String := "pending_enum_config_hash"
def downloadConfigHashKey : String := "config_hash"
def pendingDownloadConfigHashKey : String := "pending_download_config_hash"
def pendingZoneTokenPrefix : String := "pending_sync_token:"
def lastCheckpointStatusKey : String := "last_checkpoint_status"
def lastRecoveryActionKey : String := "last_recovery_action"
def lastFullEnumerationReasonKey : String := "last_full_enumeration_reason"
def syncTokenPrefix : String := "sync_token:"
def inventoryAnchorPrefix : String := "inventory_anchor:"

/-- The key of a zone's active sync token. -/
def syncTokenKey (zoneName : String) : String := syncTokenPrefix ++ zoneName

def inventoryAnchorKey (enumConfigHash zoneName : String) : String :=
  inventoryAnchorPrefix ++ enumConfigHash ++ ":" ++ zoneName

/-- The key of a zone's candidate token in the reconciliation for a hash. -/
def pendingZoneTokenKey (enumConfigHash zoneName : String) : String :=
  pendingZoneTokenPrefix ++ enumConfigHash ++ ":" ++ zoneName

/-! ## the cycle's input and its environment -/

/-- A selected library.  Its token key is always `syncTokenKey zoneName`. -/
structure LibraryState where
  zoneName : String
  /-- The download passes of its album plan. -/
  passes : List String
  planIsStale : Bool
  deriving DecidableEq

def LibraryState.syncTokenKey (lib : LibraryState) : String := SyncCycle.syncTokenKey lib.zoneName

def hasActivePasses (lib : LibraryState) : Bool := !lib.passes.isEmpty

/-- What the cycle reads of the configuration. -/
structure CycleConfig where
  dryRun : Bool
  refreshMetadata : Bool
  /-- The run mode downloads files. -/
  downloadsFiles : Bool
  /-- `compute_config_hash` of the configuration. -/
  enumConfigHash : String
  /-- `hash_download_config` of the first library's probe configuration. -/
  downloadConfigHash : String
  /-- `hash_legacy_download_config` of the same. -/
  legacyDownloadConfigHash : String
  deriving DecidableEq

/-- One call of `run_cycle`. -/
structure CycleInput where
  config : CycleConfig
  libraries : List LibraryState
  /-- A state database is configured. -/
  hasStateDb : Bool
  /-- When the shutdown request arrives.  The cycle looks for it before and
  after each library, and at its end; the number counts these looks. -/
  shutdown : Option Nat
  deriving DecidableEq

/-- The libraries the cycle works on. -/
def CycleInput.active (inp : CycleInput) : List LibraryState :=
  inp.libraries.filter hasActivePasses

/-- `shutdown_token.is_cancelled()` at a look. -/
def CycleInput.isCancelled (inp : CycleInput) (look : Nat) : Bool :=
  inp.shutdown.any (fun arrival => arrival ≤ look)

/-- How a store call ends. -/
inductive Fault where
  /-- It succeeds. -/
  | none
  /-- It fails and leaves the rows as they were. -/
  | fails
  /-- The process stops before it. -/
  | stops
  deriving DecidableEq

/-- The result of a catalog path reconciliation. -/
structure PathReconciliationResult where
  complete : Bool
  stats : SyncStats
  deriving DecidableEq

/-- Everything a cycle meets outside itself.  Every answer may depend on how
many calls came before it; a run that answers `none` returns an error. -/
structure Env where
  fault : Nat → Fault
  fullRun : Nat → String → Option FullRun
  incrementalRun : Nat → String → String → Option SyncResult
  reconcileCatalogPaths : Nat → String → Option PathReconciliationResult
  /-- The serialised inventory anchor, when it can be serialised. -/
  anchorText : Nat → Option String

/-- Where the token of a download run comes from. -/
inductive TokenSource where
  /-- No token: a full enumeration. -/
  | full
  /-- The candidate of the reconciliation in progress. -/
  | candidate
  /-- The active token, to continue from it. -/
  | active
  /-- The active token, to replay over a finished inventory. -/
  | bridge
  deriving DecidableEq

/-- What the properties of a run talk about. -/
inductive Event where
  /-- A download run for `zone` in a cycle with hash `hash`, for the library the
  loop has at `position`. -/
  | download (position : Nat) (zone hash : String) (source : TokenSource) (stale : Bool)
      (result : Option SyncResult)
  /-- A zone checkpoint was stored under `key`. -/
  | stored (position : Nat) (zone hash key token : String)
  /-- A reconciliation was promoted: each active key takes its candidate's token. -/
  | promoted (hash : String) (keys : List (String × String))
  deriving DecidableEq

/-- The state a cycle runs in. -/
structure World where
  rows : Rows
  /-- Calls made so far. -/
  calls : Nat
  /-- The history, oldest first. -/
  log : List Event

/-- A fresh database and no history. -/
def World.empty : World := ⟨fun _ => none, 0, []⟩

/-- Why a cycle ended without a result. -/
inductive Halt where
  | stopped
  | failed
  deriving DecidableEq

abbrev Cycle (α : Type) := Prog World Halt α

/-! ## store calls -/

/-- Count a call; returns how many came before it. -/
def tick : Cycle Nat := fun w => (.ok w.calls, { w with calls := w.calls + 1 })

/-- Append to the history. -/
def record (e : Event) : Cycle Unit := Prog.modify (fun w => { w with log := w.log ++ [e] })

/-- One store call: whether it succeeds. -/
def storeCall (env : Env) : Cycle Bool := do
  let n ← tick
  match env.fault n with
  | .none => return true
  | .fails => return false
  | .stops => Prog.halt .stopped

/-- `get_metadata`; `none` is a failed call. -/
def getMetadata (env : Env) (key : String) : Cycle (Option (Option String)) := do
  if ← storeCall env then
    let value ← Prog.read (fun w => w.rows key)
    return some value
  else
    return none

/-- `get_metadata(..).await?`. -/
def getMetadataOrFail (env : Env) (key : String) : Cycle (Option String) := do
  match ← getMetadata env key with
  | some value => return value
  | none => Prog.halt .failed

/-- A call that changes the rows; whether it succeeded. -/
def write (env : Env) (f : Rows → Rows) : Cycle Bool := do
  if ← storeCall env then
    Prog.modify (fun w => { w with rows := f w.rows })
    return true
  else
    return false

def setMetadata (env : Env) (key value : String) : Cycle Bool :=
  write env (fun r => r.set key value)

def deleteMetadataByPrefix (env : Env) (pre : String) : Cycle Bool :=
  write env (fun r => r.deleteByPrefix pre)

def commitCheckpointTransition (env : Env) (t : CheckpointTransition) : Cycle Bool :=
  write env (fun r => r.transition t)

/-! ## config hashes -/

inductive EnumConfigHashOutcome where
  /-- No prior hash; the current one was persisted. -/
  | initial
  | unchanged
  /-- The hash drifted; a reconciliation is staged. -/
  | changed
  /-- The hash drifted, but the reconciliation could not be staged. -/
  | changedTokenPurgeFailed
  /-- The stored hash could not be read. -/
  | readFailed
  deriving DecidableEq

def EnumConfigHashOutcome.mustForceFullSync : EnumConfigHashOutcome → Bool
  | .changed | .changedTokenPurgeFailed | .readFailed => true
  | .initial | .unchanged => false

inductive DownloadConfigHashOutcome where
  | unchanged
  | changed
  | readFailed
  | tokenPurgeFailed
  deriving DecidableEq

def DownloadConfigHashOutcome.mustForceFullSync : DownloadConfigHashOutcome → Bool
  | .readFailed | .tokenPurgeFailed => true
  | .unchanged | .changed => false

/-- The branch for a drifted hash: stage `currentHash`, dropping the candidates
of an abandoned reconciliation for another hash. -/
def stageReconciliation (env : Env) (currentHash : String) : Cycle EnumConfigHashOutcome := do
  match ← getMetadata env pendingEnumConfigHashKey with
  | none => return .readFailed
  | some pendingHash =>
      if pendingHash ≠ some currentHash then
        if !(← deleteMetadataByPrefix env pendingZoneTokenPrefix) then
          return .changedTokenPurgeFailed
      if ← setMetadata env pendingEnumConfigHashKey currentHash then
        return .changed
      else
        return .changedTokenPurgeFailed

/-- Compare the current enumeration-config hash with the active one.  Drift is
staged without touching the last safe checkpoint. -/
def checkAndPersistEnumConfigHash (env : Env) (currentHash : String) :
    Cycle EnumConfigHashOutcome := do
  match ← getMetadata env enumConfigHashKey with
  | none => return .readFailed
  | some none =>
      let _ ← setMetadata env enumConfigHashKey currentHash
      return .initial
  | some (some stored) =>
      if stored = currentHash then
        let _ ← deleteMetadataByPrefix env pendingEnumConfigHashKey
        let _ ← deleteMetadataByPrefix env pendingZoneTokenPrefix
        return .unchanged
      else
        stageReconciliation env currentHash

/-- Check the path-affecting config hash, without deleting provider cursors. -/
def checkDownloadConfigHashForCycle (env : Env) (currentHash legacyHash : String) :
    Cycle DownloadConfigHashOutcome := do
  match ← getMetadata env downloadConfigHashKey with
  | none => return .readFailed
  | some none =>
      if ← setMetadata env downloadConfigHashKey currentHash then
        return .unchanged
      else
        return .readFailed
  | some (some stored) =>
      if stored = currentHash then
        let _ ← deleteMetadataByPrefix env pendingDownloadConfigHashKey
        return .unchanged
      else if stored = legacyHash then
        if ← commitCheckpointTransition env
            { metadataUpdates := [(downloadConfigHashKey, currentHash)],
              metadataDeletes := [pendingDownloadConfigHashKey] } then
          return .unchanged
        else
          return .readFailed
      else if ← setMetadata env pendingDownloadConfigHashKey currentHash then
        let _ ← setMetadata env lastRecoveryActionKey "reconcile_local_paths"
        return .changed
      else
        return .tokenPurgeFailed

/-! ## the loop over the libraries -/

/-- What the checks before the loop decide. -/
structure CycleFacts where
  enumConfigHashOutcome : EnumConfigHashOutcome
  forceFullForDownloadConfigHash : Bool
  checkpointTransitionStateSafe : Bool
  pendingDownloadConfigHash : Option String

/-- The cycle reconciles: zone checkpoints are kept as candidates. -/
def CycleFacts.reconciliationActive (facts : CycleFacts) : Bool :=
  facts.enumConfigHashOutcome.mustForceFullSync

/-- What the loop carries from library to library. -/
structure LoopState where
  failedCount : Nat
  sessionExpired : Bool
  stats : SyncStats
  dbSyncTokenAdvanceSafe : Bool
  pathReconciliationComplete : Bool
  checkpointHoldAction : Option String
  deriving DecidableEq

/-- What the engine reports for a mode.  A full enumeration reports that it was
one; an incremental run may have fallen back to one. -/
def Env.download (env : Env) (n : Nat) (zone : String) : SyncMode → Option SyncResult
  | .full =>
      (env.fullRun n zone).map (fun r => ⟨r.outcome, r.syncToken, r.stats, true⟩)
  | .incremental token => env.incrementalRun n zone token

/-- A download run. -/
def downloadPhotosWithSync (inp : CycleInput) (env : Env) (position : Nat) (lib : LibraryState)
    (mode : SyncMode) (source : TokenSource) : Cycle SyncResult := do
  let n ← tick
  let result := env.download n lib.zoneName mode
  record (.download position lib.zoneName inp.config.enumConfigHash source lib.planIsStale result)
  match result with
  | some r => return r
  | none => Prog.halt .failed

/-- The candidate a reconciliation in progress already has for the zone. -/
def readPendingZoneToken (inp : CycleInput) (env : Env) (facts : CycleFacts) (lib : LibraryState) :
    Cycle (Option String) := do
  if facts.enumConfigHashOutcome = .changed then
    if inp.hasStateDb then
      let token ←
        getMetadataOrFail env (pendingZoneTokenKey inp.config.enumConfigHash lib.zoneName)
      return nonBlank token
    else
      return none
  else
    return none

/-- The mode of a library's run, why it is a full one, and where its token comes from. -/
structure SyncModeDecision where
  mode : SyncMode
  fullEnumerationReason : Option FullEnumerationReason
  source : TokenSource
  deriving DecidableEq

def SyncModeDecision.fullFor (reason : FullEnumerationReason) : SyncModeDecision :=
  ⟨.full, some reason, .full⟩

/-- The mode of a library without a reconciliation: incremental when a token is stored. -/
def determineSyncModeDecision (inp : CycleInput) (env : Env) (lib : LibraryState) :
    Cycle SyncModeDecision := do
  if inp.hasStateDb then
    match ← getMetadata env lib.syncTokenKey with
    | none => return .fullFor .otherStaticReason
    | some none => return .fullFor .noStoredToken
    | some (some token) =>
        if token ≠ "" then
          return ⟨.incremental token, none, .active⟩
        else
          return .fullFor .noStoredToken
  else
    return .fullFor .noStoredToken

/-- The mode choice of the loop body. -/
def chooseSyncMode (inp : CycleInput) (env : Env) (facts : CycleFacts) (lib : LibraryState)
    (pendingZoneToken : Option String) : Cycle SyncModeDecision := do
  if inp.config.refreshMetadata then
    return .fullFor .metadataBackfill
  else
    match pendingZoneToken with
    | some token => return ⟨.incremental token, none, .candidate⟩
    | none =>
        if facts.reconciliationActive then
          return .fullFor .enumConfigHashDrift
        else if facts.forceFullForDownloadConfigHash then
          return .fullFor .downloadConfigHashDrift
        else
          determineSyncModeDecision inp env lib

/-- Remember why a full enumeration starts. -/
def persistFullEnumerationReason (inp : CycleInput) (env : Env)
    (reason : Option FullEnumerationReason) : Cycle Unit := do
  match reason with
  | some reason =>
      if inp.hasStateDb then
        let _ ← setMetadata env lastFullEnumerationReasonKey reason.asStr
        return ()
      else
        return ()
  | none => return ()

/-- Re-derive the local paths of the library's catalog, when the path config drifted. -/
def reconcilePaths (env : Env) (facts : CycleFacts) (lib : LibraryState) (st : LoopState) :
    Cycle LoopState := do
  if facts.pendingDownloadConfigHash.isSome then
    let n ← tick
    match env.reconcileCatalogPaths n lib.zoneName with
    | none => Prog.halt .failed
    | some r =>
        return { st with
          pathReconciliationComplete := st.pathReconciliationComplete && r.complete,
          failedCount :=
            saturatingAdd
              (saturatingAdd (saturatingAdd st.failedCount r.stats.failed) r.stats.exifFailures)
              r.stats.stateWriteFailures,
          stats := st.stats.accumulate r.stats }
  else
    return st

/-- A result whose inventory could not be bridged. -/
def blockBridge (result : SyncResult) (explanation : String) : SyncResult :=
  { result with
    syncToken := none,
    stats := { result.stats with
      syncTokenBlocked := true,
      syncTokenBlockedReason := some "inventory_delta_bridge_failed",
      syncTokenBlockedSource := some "kei",
      syncTokenBlockedExplanation := some explanation } }

/-- Fold the replay's result into that of the inventory. -/
def mergeBridge (inp : CycleInput) (lib : LibraryState) (result bridge : SyncResult) :
    SyncResult × CheckpointBasis :=
  let decision :=
    sourceCheckpointDecision bridge inp.config.dryRun lib.planIsStale .incrementalDelta
  let merged : SyncResult :=
    { result with
      outcome := mergeDownloadOutcomes result.outcome bridge.outcome,
      stats := result.stats.accumulate bridge.stats }
  if bridge.fullEnumerationRan then
    (blockBridge merged
      "the prior provider checkpoint could not be replayed incrementally after inventory reconciliation",
      .completeInventory)
  else
    match decision with
    | .advance token _ => ({ merged with syncToken := some token }, .inventoryWithDeltaBridge)
    | .preserve _ _ =>
        (blockBridge merged
          "the inventory completed, but replay from the preserved provider checkpoint did not finish safely",
          .completeInventory)

/-- The basis of a result before any bridging. -/
def basisOf (result : SyncResult) : CheckpointBasis :=
  if result.fullEnumerationRan then .completeInventory else .incrementalDelta

def SourceCheckpointDecision.isAdvance : SourceCheckpointDecision → Bool
  | .advance _ _ => true
  | .preserve _ _ => false

/-- The preserved active token. -/
def readPriorToken (inp : CycleInput) (env : Env) (lib : LibraryState) :
    Cycle (Option String) := do
  if inp.hasStateDb then
    getMetadataOrFail env lib.syncTokenKey
  else
    return none

/-- Bridge a finished inventory: replay the changes since the preserved token. -/
def bridgeInventory (inp : CycleInput) (env : Env) (facts : CycleFacts) (position : Nat)
    (lib : LibraryState) (result : SyncResult) : Cycle (SyncResult × CheckpointBasis) := do
  if facts.enumConfigHashOutcome = .changed && result.fullEnumerationRan
      && facts.checkpointTransitionStateSafe then
    let priorToken ← readPriorToken inp env lib
    match nonBlank priorToken with
    | none => return (result, basisOf result)
    | some token =>
        if (sourceCheckpointDecision result inp.config.dryRun lib.planIsStale
            .completeInventory).isAdvance then
          let bridge ← downloadPhotosWithSync inp env position lib (.incremental token) .bridge
          return mergeBridge inp lib result bridge
        else
          return (result, basisOf result)
  else
    return (result, basisOf result)

/-- The library's run left nothing unfinished. -/
def completedWithoutErrors (result : SyncResult) (cancelled : Bool) : Bool :=
  decide (result.outcome = .success) && !result.stats.interrupted
    && result.stats.enumerationErrors == 0 && !cancelled

/-- Refresh the zone's inventory anchor after a clean run. -/
def updateInventoryAnchorForCycle (inp : CycleInput) (env : Env) (lib : LibraryState)
    (result : SyncResult) (cancelled : Bool) : Cycle Unit := do
  if completedWithoutErrors result cancelled && !inp.libraries.any (·.planIsStale)
      && inp.config.downloadsFiles && inp.hasStateDb && result.stats.apiTotalAtStart.isSome then
    let key := inventoryAnchorKey inp.config.enumConfigHash lib.zoneName
    let _ ← getMetadata env key
    let n ← tick
    match env.anchorText n with
    | none => return ()
    | some text =>
        let _ ← setMetadata env key text
        return ()
  else
    return ()

/-- The checkpoint decision of the loop body. -/
def checkpointDecision (inp : CycleInput) (facts : CycleFacts) (lib : LibraryState)
    (result : SyncResult) (basis : CheckpointBasis) (cancelled : Bool) :
    SourceCheckpointDecision :=
  if facts.checkpointTransitionStateSafe && !cancelled then
    sourceCheckpointDecision result inp.config.dryRun lib.planIsStale basis
  else if cancelled then
    .preserve .interrupted .replayFromPriorToken
  else
    .preserve .stateNotDurable .replayFromPriorToken

/-- The rows that go with an advanced checkpoint. -/
def checkpointStatusRows (hold : Option String) : List (String × String) :=
  match hold with
  | some action => [(lastCheckpointStatusKey, "preserved"), (lastRecoveryActionKey, action)]
  | none => [(lastCheckpointStatusKey, "current"), (lastRecoveryActionKey, "none")]

/-- A checkpoint that should have moved could not be stored. -/
def LoopState.storeFailed (st : LoopState) : LoopState :=
  { st with
    checkpointHoldAction := some RecoveryAction.replayFromPriorToken.asStr,
    dbSyncTokenAdvanceSafe := false }

/-- Store an advanced checkpoint: as a candidate in a reconciliation, as the
active token otherwise. -/
def storeAdvance (inp : CycleInput) (env : Env) (facts : CycleFacts) (position : Nat)
    (lib : LibraryState) (token : String) (st : LoopState) : Cycle LoopState := do
  if inp.hasStateDb then
    if facts.reconciliationActive then
      let candidateKey := pendingZoneTokenKey inp.config.enumConfigHash lib.zoneName
      if ← setMetadata env candidateKey token then
        record (.stored position lib.zoneName inp.config.enumConfigHash candidateKey token)
        return st
      else
        return st.storeFailed
    else if ← commitCheckpointTransition env
        { metadataUpdates :=
            (lib.syncTokenKey, token) :: checkpointStatusRows st.checkpointHoldAction,
          metadataDeletes := [] } then
      record (.stored position lib.zoneName inp.config.enumConfigHash lib.syncTokenKey token)
      return st
    else
      return st.storeFailed
  else
    return { st with dbSyncTokenAdvanceSafe := false }

/-- Hold the checkpoint back. -/
def storePreserve (inp : CycleInput) (env : Env) (recovery : RecoveryAction) (st : LoopState) :
    Cycle LoopState := do
  let held := { st with
    checkpointHoldAction := some recovery.asStr, dbSyncTokenAdvanceSafe := false }
  if inp.hasStateDb then
    let _ ← commitCheckpointTransition env
      { metadataUpdates :=
          [(lastCheckpointStatusKey, "preserved"), (lastRecoveryActionKey, recovery.asStr)],
        metadataDeletes := [] }
    return held
  else
    return held

/-- Act on a checkpoint decision. -/
def storeCheckpoint (inp : CycleInput) (env : Env) (facts : CycleFacts) (position : Nat)
    (lib : LibraryState) (decision : SourceCheckpointDecision) (st : LoopState) : Cycle LoopState :=
  match decision with
  | .advance token _ => storeAdvance inp env facts position lib token st
  | .preserve _ recovery => storePreserve inp env recovery st

/-- The statistics a library adds to the cycle. -/
def libraryStats (lib : LibraryState) (reason : Option FullEnumerationReason)
    (result : SyncResult) : SyncStats :=
  let stats :=
    if result.fullEnumerationRan && result.stats.fullEnumerationReason.isNone then
      { result.stats with fullEnumerationReason := reason }
    else
      result.stats
  if stats.syncTokenBlocked && stats.syncTokenBlockedZone.isNone then
    { stats with syncTokenBlockedZone := some lib.zoneName }
  else
    stats

/-- The end of the loop body: store the checkpoint, add up the statistics, and
act on the outcome.  The flag says whether the loop must stop. -/
def finishLibrary (inp : CycleInput) (env : Env) (facts : CycleFacts) (position : Nat)
    (lib : LibraryState) (reason : Option FullEnumerationReason) (result : SyncResult)
    (basis : CheckpointBasis) (cancelled : Bool) (st : LoopState) : Cycle (LoopState × Bool) := do
  let st ← storeCheckpoint inp env facts position lib
    (checkpointDecision inp facts lib result basis cancelled) st
  let st := { st with stats := st.stats.accumulate (libraryStats lib reason result) }
  match result.outcome with
  | .success => return (st, false)
  | .sessionExpired _ => return ({ st with sessionExpired := true }, true)
  | .partialFailure failedCount =>
      return ({ st with failedCount := st.failedCount + failedCount }, false)

/-- One library, at its position in the loop. -/
def runLibrary (inp : CycleInput) (env : Env) (facts : CycleFacts) (position : Nat)
    (lib : LibraryState) (st : LoopState) : Cycle (LoopState × Bool) := do
  let pendingZoneToken ← readPendingZoneToken inp env facts lib
  let decision ← chooseSyncMode inp env facts lib pendingZoneToken
  persistFullEnumerationReason inp env decision.fullEnumerationReason
  let st ← reconcilePaths env facts lib st
  let inventory ← downloadPhotosWithSync inp env position lib decision.mode decision.source
  let (result, basis) ← bridgeInventory inp env facts position lib inventory
  let cancelled := inp.isCancelled (2 * position + 1)
  updateInventoryAnchorForCycle inp env lib result cancelled
  finishLibrary inp env facts position lib decision.fullEnumerationReason result basis cancelled st

/-- The loop, from the library at position `i` on. -/
def runLibraries (inp : CycleInput) (env : Env) (facts : CycleFacts) :
    Nat → List LibraryState → LoopState → Cycle LoopState
  | _, [], st => return st
  | i, lib :: rest, st =>
      if inp.isCancelled (2 * i) then
        return st
      else do
        let (st, stop) ← runLibrary inp env facts i lib st
        if stop then
          return st
        else
          runLibraries inp env facts (i + 1) rest st

/-! ## promotion -/

/-- Read every library's candidate; `none` when one is missing. -/
def readCandidates (inp : CycleInput) (env : Env) :
    List LibraryState → Cycle (Option (List (LibraryState × String)))
  | [] => return some []
  | lib :: rest => do
      let token ←
        getMetadataOrFail env (pendingZoneTokenKey inp.config.enumConfigHash lib.zoneName)
      match nonBlank token with
      | none => return none
      | some token =>
          match ← readCandidates inp env rest with
          | none => return none
          | some candidates => return some ((lib, token) :: candidates)

/-- The transition that makes a reconciliation the active state. -/
def promotionTransition (enumConfigHash : String) (candidates : List (LibraryState × String)) :
    CheckpointTransition where
  metadataUpdates :=
    candidates.map (fun c => (c.1.syncTokenKey, c.2)) ++
      [(enumConfigHashKey, enumConfigHash), (lastCheckpointStatusKey, "current"),
        (lastRecoveryActionKey, "none")]
  metadataDeletes :=
    candidates.map (fun c => pendingZoneTokenKey enumConfigHash c.1.zoneName) ++
      [pendingEnumConfigHashKey]

/-- The keys a promotion moves, candidate first. -/
def promotedKeys (enumConfigHash : String) (candidates : List (LibraryState × String)) :
    List (String × String) :=
  candidates.map (fun c => (pendingZoneTokenKey enumConfigHash c.1.zoneName, c.1.syncTokenKey))

/-- Promote a finished reconciliation; whether the database token may still advance. -/
def promoteReconciliation (inp : CycleInput) (env : Env) : Cycle Bool := do
  match ← readCandidates inp env inp.active with
  | none => return false
  | some candidates =>
      if ← commitCheckpointTransition env
          (promotionTransition inp.config.enumConfigHash candidates) then
        record (.promoted inp.config.enumConfigHash
          (promotedKeys inp.config.enumConfigHash candidates))
        return true
      else
        return false

/-- The end of a cycle that reconciles: promote, unless it must not. -/
def finishReconciliation (inp : CycleInput) (env : Env) (facts : CycleFacts) (st : LoopState)
    (cancelled : Bool) : Cycle Bool := do
  if facts.reconciliationActive && st.dbSyncTokenAdvanceSafe && !st.sessionExpired && !cancelled
      && inp.hasStateDb then
    promoteReconciliation inp env
  else
    return st.dbSyncTokenAdvanceSafe

/-- Promote a finished local path reconciliation. -/
def promotePathReconciliation (inp : CycleInput) (env : Env) (facts : CycleFacts)
    (st : LoopState) (cancelled : Bool) : Cycle Unit := do
  match facts.pendingDownloadConfigHash with
  | none => return ()
  | some downloadConfigHash =>
      if st.pathReconciliationComplete && !st.sessionExpired && !cancelled && inp.hasStateDb then
        let _ ← commitCheckpointTransition env
          { metadataUpdates := [(downloadConfigHashKey, downloadConfigHash)],
            metadataDeletes := [pendingDownloadConfigHashKey] }
        return ()
      else
        return ()

/-! ## the cycle -/

/-- Outcome of a single sync cycle across all libraries. -/
structure CycleResult where
  failedCount : Nat
  sessionExpired : Bool
  stats : SyncStats
  dbSyncTokenAdvanceSafe : Bool
  deriving DecidableEq

/-- The enumeration-config check of a cycle. -/
def checkEnumConfigHash (inp : CycleInput) (env : Env) : Cycle EnumConfigHashOutcome := do
  if !inp.config.dryRun && inp.hasStateDb then
    let outcome ← checkAndPersistEnumConfigHash env inp.config.enumConfigHash
    if outcome = .changed then
      let _ ← setMetadata env lastRecoveryActionKey
        (RecoveryAction.reconcileInventory .enumConfigHashDrift).asStr
      return outcome
    else
      return outcome
  else
    return .unchanged

/-- The download-config check of a cycle. -/
def checkDownloadConfigHash (inp : CycleInput) (env : Env) :
    Cycle (Option DownloadConfigHashOutcome) := do
  if !inp.config.dryRun && inp.hasStateDb && !inp.libraries.isEmpty then
    let outcome ← checkDownloadConfigHashForCycle env inp.config.downloadConfigHash
      inp.config.legacyDownloadConfigHash
    return some outcome
  else
    return none

/-- What the two checks decide. -/
def cycleFacts (inp : CycleInput) (enumOutcome : EnumConfigHashOutcome)
    (downloadOutcome : Option DownloadConfigHashOutcome) : CycleFacts where
  enumConfigHashOutcome := enumOutcome
  forceFullForDownloadConfigHash := downloadOutcome.any (·.mustForceFullSync)
  checkpointTransitionStateSafe :=
    enumOutcome != .changedTokenPurgeFailed && enumOutcome != .readFailed &&
      downloadOutcome != some .tokenPurgeFailed
  pendingDownloadConfigHash :=
    if downloadOutcome = some .changed then some inp.config.downloadConfigHash else none

/-- The loop's first state.  The database token may only advance in a cycle that
is not a dry run, has no stale plan and trusts its checkpoint state. -/
def LoopState.start (inp : CycleInput) (facts : CycleFacts) : LoopState where
  failedCount := 0
  sessionExpired := false
  stats := {}
  dbSyncTokenAdvanceSafe :=
    !inp.config.dryRun && !inp.libraries.any (·.planIsStale) && facts.checkpointTransitionStateSafe
  pathReconciliationComplete := true
  checkpointHoldAction := none

/-- Run one sync cycle. -/
def runCycle (inp : CycleInput) (env : Env) : Cycle CycleResult := do
  let enumOutcome ← checkEnumConfigHash inp env
  let downloadOutcome ← checkDownloadConfigHash inp env
  let facts := cycleFacts inp enumOutcome downloadOutcome
  let st ← runLibraries inp env facts 0 inp.active (LoopState.start inp facts)
  let last := 2 * inp.active.length
  let advanceSafe ← finishReconciliation inp env facts st (inp.isCancelled last)
  promotePathReconciliation inp env facts st (inp.isCancelled (last + 1))
  return ⟨st.failedCount, st.sessionExpired, st.stats, advanceSafe⟩

end Kei.SyncCycle
