import Kei.Download.CatalogPaths
import Kei.Download.Totals
import Mathlib.Data.Finset.Filter
import Mathlib.Data.Finset.Insert

/-!
# Kei.Download.Producer

The producer of the download pipeline: it takes the assets of a stream one by
one, and skips each of them for a reason or sends tasks for it.

What the database and the disk answer comes from replies by the position of
the asset in the stream, and of the task in its plan.
-/

namespace Kei

namespace Download
namespace ProducerSkipSummary

def recordFilterReason (s : ProducerSkipSummary) : FilterReason → ProducerSkipSummary
  | .malformedAsset => { s with byFilename := s.byFilename + 1 }
  | .excludedAlbum => { s with byExcludedAlbum := s.byExcludedAlbum + 1 }
  | .mediaType => { s with byMediaType := s.byMediaType + 1 }
  | .livePhoto => { s with byLivePhoto := s.byLivePhoto + 1 }
  | .dateRange => { s with byDateRange := s.byDateRange + 1 }
  | .filename => { s with byFilename := s.byFilename + 1 }

/-- The skipped assets without the duplicates. -/
def unique (s : ProducerSkipSummary) : Nat := s.total - s.duplicates

end ProducerSkipSummary
end Download

namespace Producer

open Download hiding retryTasks

/-! ## dispositions -/

/-- What becomes of an asset with tasks, the least final first. -/
inductive AssetDisposition where
  | unresolved
  | retryOnly
  | retryExhausted
  | stateSkip
  | ampmVariant
  | onDisk
  | forwarded
  deriving DecidableEq

namespace AssetDisposition

def rank : AssetDisposition → Nat
  | .unresolved => 0
  | .retryOnly => 1
  | .retryExhausted => 2
  | .stateSkip => 3
  | .ampmVariant => 4
  | .onDisk => 5
  | .forwarded => 6

protected def max (a b : AssetDisposition) : AssetDisposition := if a.rank ≤ b.rank then b else a

end AssetDisposition

/-! ## the loaded state -/

/-- The download state as it was loaded, by library and asset. -/
structure DownloadContext where
  downloadedIds : String → String → List VersionSizeKey
  downloadedChecksums : String → String → VersionSizeKey → Option String
  pendingIds : String → String → List VersionSizeKey
  pendingChecksums : String → String → VersionSizeKey → Option String
  knownIds : String → List String
  attemptCounts : String → String → Option Nat
  /-- The child that owns the row of a master; `none` could not be loaded. -/
  legacyMasterStateOwners : Option (String → String → Option String)
  /-- The known children of a master; `none` could not be loaded. -/
  assetMasterMappings : Option (String → String → Option (Finset String))

namespace DownloadContext

variable (ctx : DownloadContext) (library : String) (asset : PlannedAsset)

def isKnown (assetId : String) : Bool := (ctx.knownIds library).contains assetId

def hasStateVersion (assetId : String) : Bool :=
  !(ctx.downloadedIds library assetId).isEmpty || !(ctx.pendingIds library assetId).isEmpty

def hasMatchingDownloadedChecksum (assetId : String) : Bool :=
  asset.versions.any (fun v =>
    ctx.downloadedChecksums library assetId (.from v.1) == some v.2.checksum)

def hasMatchingStateChecksum (assetId : String) : Bool :=
  ctx.hasMatchingDownloadedChecksum library asset assetId ||
    asset.versions.any (fun v =>
      ctx.pendingChecksums library assetId (.from v.1) == some v.2.checksum)

/-- Whether the row of the master stands for this child of it. -/
def shouldUseLegacyMasterState : Bool :=
  if asset.assetRecordName = asset.recordName || ctx.hasStateVersion library asset.assetRecordName
  then false
  else if !ctx.hasMatchingStateChecksum library asset asset.recordName then false
  else
    match ctx.legacyMasterStateOwners with
    | none => false
    | some owners =>
        match owners library asset.recordName with
        | some owner => owner = asset.assetRecordName
        | none =>
            match ctx.assetMasterMappings with
            | none => false
            | some mappings =>
                match mappings library asset.recordName with
                | none => true
                | some children =>
                    children.filter (fun child => !ctx.hasStateVersion library child) =
                      {asset.assetRecordName}

/-- The name of the state row, and the masters that were taken so far. -/
def selectAssetStateRecordName (claimed : List (String × String)) :
    String × List (String × String) :=
  if ctx.shouldUseLegacyMasterState library asset && !claimed.contains (library, asset.recordName)
  then (asset.recordName, (library, asset.recordName) :: claimed)
  else (asset.assetRecordName, claimed)

theorem selectAssetStateRecordName_eq (claimed : List (String × String)) :
    ctx.selectAssetStateRecordName library asset claimed =
      if ctx.shouldUseLegacyMasterState library asset = true ∧
          (library, asset.recordName) ∉ claimed
      then (asset.recordName, (library, asset.recordName) :: claimed)
      else (asset.assetRecordName, claimed) := by
  unfold selectAssetStateRecordName
  refine if_congr ?_ rfl rfl
  simp only [Bool.and_eq_true, Bool.not_eq_true', List.contains_eq_mem, decide_eq_false_iff_not]

def legacyOwnerClaimMaxAttempts : Nat := 3

/-- The same with the claim that goes to the database, whose attempts may fail. -/
def selectForDownload (claim : Nat → Option Bool) (claimed : List (String × String)) :
    Option String × List (String × String) :=
  let selected := ctx.selectAssetStateRecordName library asset claimed
  if selected.1 ≠ asset.recordName ||
      (ctx.legacyMasterStateOwners.bind (fun owners => owners library asset.recordName)).isSome
  then (some selected.1, selected.2)
  else
    match (List.range legacyOwnerClaimMaxAttempts).findSome? claim with
    | some true => (some selected.1, selected.2)
    | some false => (some asset.assetRecordName, selected.2)
    | none => (none, selected.2)

/-- Whether a version must be downloaded; `none` leaves it to the disk. -/
def shouldDownloadFast (task : DownloadTask) (trustState : Bool) : Option Bool :=
  if task.checksum = "" then some true
  else if !(ctx.downloadedIds task.library task.assetId).contains task.versionSize then some true
  else if (ctx.downloadedChecksums task.library task.assetId task.versionSize).any
      (fun stored => stored ≠ task.checksum) then some true
  else if trustState then some false
  else none

end DownloadContext

/-! ## replies -/

inductive PendingOnDiskAdoption where
  | adopted
  | stateWriteFailed
  deriving DecidableEq

structure TaskReplies where
  membershipRecorded : Bool
  /-- What becomes of a pending version whose file may be on the disk. -/
  adoption : Option PendingOnDiskAdoption
  seenRecorded : Bool
  /-- The file is where the state row says. -/
  recordedPathExists : Bool
  /-- The channel still takes tasks. -/
  sent : Bool
  /-- The queued bytes would fill the disk. -/
  bails : Bool

structure AssetReplies where
  mappingWritten : Bool
  /-- By attempt; `none` is an error. -/
  claim : Nat → Option Bool
  metadataDrift : Bool
  retryMarker : Bool
  /-- How many rows a refresh of the metadata changed; `none` is an error. -/
  refreshed : Option Nat
  /-- Adoptions that could not be written, of an asset without tasks. -/
  adoptionFailures : Nat
  task : Nat → TaskReplies

structure ProducerConfig extends PassConfig where
  maxDownloadAttempts : Nat
  retryOnly : Bool
  refreshMetadata : Bool

abbrev Item := Except String PlannedAsset

structure ProducerEnv where
  host : Host
  /-- Fuel of the searches for a free name. -/
  fuel : Nat
  config : ProducerConfig
  ctx : DownloadContext
  hasStateDb : Bool
  /-- Shutdown comes before this item. -/
  cancelled : Nat → Bool
  asset : Nat → AssetReplies

/-! ## the loop -/

/-- What the producer counts. -/
structure Books where
  seenAssetRecordNames : List String
  claimedLegacyMasterStates : List (String × String)
  skips : ProducerSkipSummary
  assetsForwarded : Nat
  assetsSeen : Nat
  enumErrors : Nat

structure ProducerState extends Books where
  taskPlanner : TaskPlanner
  touchedAssets : List (String × String)
  stateWriteFailures : Nat
  sent : List DownloadTask

inductive ProducerStop where
  /-- The channel is closed, or the disk would be full. -/
  | returned
  | outOfFuel
  deriving DecidableEq

abbrev ProducerM := Prog ProducerState ProducerStop

def countWriteFailures (n : Nat) : ProducerM Unit :=
  Prog.modify (fun s => { s with stateWriteFailures := s.stateWriteFailures + n })

def countWriteFailure (fails : Bool) : ProducerM Unit := countWriteFailures fails.toNat

def skip (f : ProducerSkipSummary → ProducerSkipSummary) : ProducerM Unit :=
  Prog.modify (fun s => { s with skips := f s.skips })

def countEnumError : ProducerM Unit :=
  Prog.modify (fun s => { s with enumErrors := s.enumErrors + 1 })

/-- The asset has an outcome, which is counted. -/
def settle : AssetDisposition → ProducerM Unit
  | .forwarded => Prog.modify (fun s => { s with assetsForwarded := s.assetsForwarded + 1 })
  | .onDisk => skip (fun skips => { skips with onDisk := skips.onDisk + 1 })
  | .ampmVariant => skip (fun skips => { skips with ampmVariant := skips.ampmVariant + 1 })
  | .stateSkip => skip (fun skips => { skips with byState := skips.byState + 1 })
  | .retryExhausted => skip (fun skips => { skips with retryExhausted := skips.retryExhausted + 1 })
  | .retryOnly => skip (fun skips => { skips with retryOnly := skips.retryOnly + 1 })
  | .unresolved => pure ()

namespace ProducerEnv

variable (env : ProducerEnv)

def effectiveAssetLibrary (asset : PlannedAsset) : String :=
  asset.sourceZone.getD env.config.library

/-- The row name under which the asset is looked up; `none` when it cannot be claimed. -/
def claimState (n : Nat) (asset : PlannedAsset) : ProducerM (Option String) := fun s =>
  let selected := env.ctx.selectForDownload (env.effectiveAssetLibrary asset) asset
    (env.asset n).claim s.claimedLegacyMasterStates
  (.ok selected.1, { s with claimedLegacyMasterStates := selected.2 })

def excludedByAlbum (asset : PlannedAsset) : Bool :=
  isAssetFiltered env.host asset env.config.toPassConfig = some .excludedAlbum

/-- Name the state row of the asset; `none` when its legacy owner could not be claimed. -/
def identify (n : Nat) (asset : PlannedAsset) : ProducerM (Option PlannedAsset) :=
  if env.hasStateDb then do
    countWriteFailure (!(env.asset n).mappingWritten)
    if env.excludedByAlbum asset then pure (some asset)
    else
      match ← env.claimState n asset with
      | some name => pure (some { asset with stateRecordName := some name })
      | none => do
          countWriteFailure true
          pure none
  else pure (some asset)

def refreshMetadata (n : Nat) : ProducerM Unit :=
  let replies := env.asset n
  let changed := replies.metadataDrift || replies.retryMarker
  if env.hasStateDb && (env.config.refreshMetadata || changed) then
    countWriteFailure (match replies.refreshed with
      | some updated => updated = 0 && changed
      | none => true)
  else pure ()

def planAsset (asset : PlannedAsset) : ProducerM AssetTaskPlan := fun s =>
  match s.taskPlanner.planAsset env.host env.fuel asset env.config.toPassConfig with
  | none => (.error .outOfFuel, s)
  | some (plan, planner) => (.ok plan, { s with taskPlanner := planner })

def adoptPendingOnDiskTask (n k : Nat) (asset : PlannedAsset) (task : DownloadTask) :
    Option PendingOnDiskAdoption :=
  if (env.ctx.pendingIds (env.effectiveAssetLibrary asset) asset.stateId).contains task.versionSize
  then ((env.asset n).task k).adoption
  else none

/-- Send a task that is to be downloaded. -/
def sendTask (n k : Nat) (task : DownloadTask) : ProducerM Unit :=
  if ((env.asset n).task k).sent then do
    Prog.modify (fun s => { s with sent := s.sent ++ [task] })
    if ((env.asset n).task k).bails then Prog.halt .returned else pure ()
  else Prog.halt .returned

def forwardTask (n k : Nat) (task : DownloadTask) : ProducerM AssetDisposition := do
  countWriteFailure (!((env.asset n).task k).seenRecorded)
  env.sendTask n k task
  pure .forwarded

/-- The file of the task on the disk. -/
def existingPath (path : Path) : ProducerM (Option Path) := fun s =>
  let found := s.taskPlanner.existingPathWithSize env.host path
  (.ok (found.1.map (·.1)), { s with taskPlanner := found.2 })

/-- `existing_path_match`, and what becomes of the task. -/
def checkDisk (n k : Nat) (task : DownloadTask) : ProducerM AssetDisposition := do
  match ← env.existingPath task.downloadPath with
  | some found => pure (if found = task.downloadPath then .onDisk else .ampmVariant)
  | none => env.forwardTask n k task

def takeTask (n k : Nat) (asset : PlannedAsset) (task : DownloadTask) :
    ProducerM AssetDisposition :=
  let replies := (env.asset n).task k
  if (env.ctx.attemptCounts task.library task.assetId).any (fun attempts =>
      0 < env.config.maxDownloadAttempts && env.config.maxDownloadAttempts ≤ attempts) then
    pure .retryExhausted
  else if env.config.retryOnly && !env.ctx.isKnown task.library task.assetId then
    pure .retryOnly
  else if env.hasStateDb then do
    countWriteFailure (env.config.albumName.any (· ≠ "") && !replies.membershipRecorded)
    match env.adoptPendingOnDiskTask n k asset task with
    | some adoption => do
        countWriteFailure (adoption = .stateWriteFailed)
        pure .onDisk
    | none =>
        match env.ctx.shouldDownloadFast task false with
        | some true => env.forwardTask n k task
        | some false => pure .stateSkip
        | none => if replies.recordedPathExists then pure .onDisk else env.checkDisk n k task
  else do
    env.sendTask n k task
    pure .forwarded

def takeTasks (n : Nat) (asset : PlannedAsset) :
    (k : Nat) → AssetDisposition → List DownloadTask → ProducerM AssetDisposition
  | _, disposition, [] => pure disposition
  | k, disposition, task :: tasks => do
      let taken ← env.takeTask n k asset task
      takeTasks n asset (k + 1) (disposition.max taken) tasks

/-- An asset without tasks: its files are there. -/
def skipOnDisk (n : Nat) (asset : PlannedAsset) : ProducerM Unit := do
  countWriteFailures (if env.hasStateDb then (env.asset n).adoptionFailures else 0)
  Prog.modify (fun s =>
    if env.hasStateDb then
      { s with touchedAssets :=
          s.touchedAssets ++ [(env.effectiveAssetLibrary asset, asset.stateId)] }
    else s)
  skip (fun skips => { skips with onDisk := skips.onDisk + 1 })

def followPlan (n : Nat) (asset : PlannedAsset) (plan : AssetTaskPlan) : ProducerM Unit :=
  match plan.filterReason with
  | some reason => skip (·.recordFilterReason reason)
  | none =>
      match plan.malformedResource with
      | some _ => countEnumError
      | none =>
          if plan.tasks.isEmpty then env.skipOnDisk n asset
          else do
            let disposition ← env.takeTasks n asset 0 .unresolved plan.tasks
            settle disposition

/-- An asset that was not seen before. -/
def takeFresh (n : Nat) (asset : PlannedAsset) : ProducerM Unit := do
  Prog.modify (fun s => { s with
    seenAssetRecordNames := asset.assetRecordName :: s.seenAssetRecordNames,
    assetsSeen := s.assetsSeen + 1 })
  match ← env.identify n asset with
  | none => pure ()
  | some asset => do
      env.refreshMetadata n
      let plan ← env.planAsset asset
      env.followPlan n asset plan

def takeAsset (n : Nat) (asset : PlannedAsset) : ProducerM Unit := do
  let seen ← Prog.read (fun s => s.seenAssetRecordNames.contains asset.assetRecordName)
  if seen then skip (fun skips => { skips with duplicates := skips.duplicates + 1 })
  else env.takeFresh n asset

/-- Take the items from the `n`-th on; whether the stream was taken to its end. -/
def produceFrom : (n : Nat) → List Item → ProducerM Bool
  | _, [] => pure true
  | n, item :: rest =>
      if env.cancelled n then pure false
      else do
        match item with
        | .ok asset => env.takeAsset n asset
        | .error _ => countEnumError
        produceFrom (n + 1) rest

def initial : ProducerState :=
  { seenAssetRecordNames := [], claimedLegacyMasterStates := [], skips := .empty,
    assetsForwarded := 0, assetsSeen := 0, enumErrors := 0, taskPlanner := .new,
    touchedAssets := [], stateWriteFailures := 0, sent := [] }

def produce (stream : List Item) : Except ProducerStop Bool × ProducerState :=
  env.produceFrom 0 stream initial

end ProducerEnv

end Producer
end Kei
