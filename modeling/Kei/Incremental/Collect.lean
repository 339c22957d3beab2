import Kei.Download.Planner
import Kei.Incremental

/-!
# Kei.Incremental.Collect

An incremental run from the assets to download on: their plans, the rows that
the state database gets for the tasks, the downloads, and the token.

The function returns, next to its result, the plan of every pair it came to.
-/

namespace Kei.Incremental

open Accum Changes FullEnumeration StateDb
open Download (DownloadTask VersionSizeKey FilterReason AssetTaskPlan TaskPlanner)

/-! ## the download engine -/

def versionSizeStr : VersionSizeKey → String
  | .original => "original"
  | .medium => "medium"
  | .thumb => "thumb"
  | .adjusted => "adjusted"
  | .alternative => "alternative"
  | .liveOriginal => "live_original"
  | .liveMedium => "live_medium"
  | .liveThumb => "live_thumb"
  | .liveAdjusted => "live_adjusted"

/-- The key of a task's row. -/
def taskKey (task : DownloadTask) : Key :=
  ⟨task.library, task.assetId, versionSizeStr task.versionSize⟩

structure RetryTaskKey where
  assetId : String
  versionSize : VersionSizeKey
  downloadPath : Download.Path
  deriving DecidableEq

def RetryTaskKey.from (task : DownloadTask) : RetryTaskKey :=
  ⟨task.assetId, task.versionSize, task.downloadPath⟩

/-- What a download pass reports. -/
structure PassResult where
  downloadedTasks : List DownloadTask
  failed : List DownloadTask
  authErrors : Nat
  exifFailures : Nat
  stateWriteFailures : Nat
  urlExpiredAbort : Bool

/-- What the plans, the rows and the downloads of a run depend on. -/
structure Engine where
  host : Download.Host
  /-- The number of names to try for a file. -/
  fuel : Nat
  /-- The files that the records of an asset describe. -/
  details : PhotoAsset → Download.PlannedAsset
  config : Download.PassConfig
  folderStructureForPass : AlbumPass → String
  dbHost : StateDb.Host
  metadata : PhotoAsset → SeenMetadata dbHost
  /-- The downloaded versions that were loaded, each with its checksum if it has one. -/
  downloaded : Key → Option (Option String)
  assets : AssetTable
  /-- The file of a pair's task is where the state database says. -/
  currentPathExists : Nat → DownloadTask → Bool
  /-- The calls that record a pair's task are answered. -/
  seenAnswered : Nat → DownloadTask → Bool
  albumRecorded : Nat → Bool
  /-- The tasks with new URLs, when theirs are stale and the scan finds any. -/
  refreshedTasks : List DownloadTask → List DownloadTask
  downloadPass : List DownloadTask → PassResult
  shutdownBeforeRetry : Bool
  retryTasks : List DownloadTask → List DownloadTask
  retryPass : List DownloadTask → PassResult
  rewriteFailures : Nat
  interrupted : Bool

def authErrorThreshold : Nat := 3

/-! ## plans -/

/-- The asset as its records and its state row name it. -/
def Engine.plannedAsset (engine : Engine) (asset : PhotoAsset) : Download.PlannedAsset :=
  { engine.details asset with
    recordName := asset.recordName,
    assetRecordName := asset.assetRecordName,
    stateRecordName := asset.stateRecordName,
    sourceZone := asset.sourceZone }

/-- `with_pass`. -/
def Engine.passConfig (engine : Engine) (pass : AlbumPass) : Download.PassConfig :=
  { engine.config with
    albumName := some pass.name,
    folderStructure := engine.folderStructureForPass pass,
    excludeAssetIds := pass.excludeIds }

/-- Whether a version must be downloaded; `none` leaves it to the disk. -/
def shouldDownloadFast (engine : Engine) (task : DownloadTask) : Option Bool :=
  if task.checksum = "" then some true
  else
    match engine.downloaded (taskKey task) with
    | none => some true
    | some (some stored) => if stored ≠ task.checksum then some true else none
    | some none => none

/-- The task of a pair is kept: the version is not known to be there. -/
def keepTask (engine : Engine) (n : Nat) (task : DownloadTask) : Bool :=
  match shouldDownloadFast engine task with
  | some keep => keep
  | none => !engine.currentPathExists n task

/-- `AssetRecord::new_pending`. -/
def pendingRecord (engine : Engine) (asset : PhotoAsset) (task : DownloadTask) :
    SeenRecord engine.dbHost :=
  ⟨{ library := task.library, id := task.assetId,
     versionSize := versionSizeStr task.versionSize, checksum := task.checksum,
     createdAt := (engine.details asset).created, status := .pending, localPath := none,
     lastSeenAt := 0, downloadAttempts := 0, lastError := none, localChecksum := none,
     metadata := (engine.metadata asset).1 }, (engine.metadata asset).2⟩

/-- What planning carries from pair to pair. -/
structure Planning where
  planner : TaskPlanner
  assets : AssetTable
  tasks : List DownloadTask
  enumerationErrors : Nat
  stateWriteFailures : Nat

/-- The row of a task. -/
def upsertSeenForTask (engine : Engine) (now : Int) (n : Nat) (asset : PhotoAsset)
    (state : AssetTable × Nat) (task : DownloadTask) : AssetTable × Nat :=
  if engine.seenAnswered n task then
    match upsertAssetRow engine.dbHost (pendingRecord engine asset task).1 now state.1 with
    | .ok assets => (assets, state.2)
    | .error _ => (state.1, state.2 + 1)
  else
    (state.1, state.2 + 1)

/-- A pair with what became of it. -/
structure PairPlan where
  plan : AssetTaskPlan
  /-- The tasks that were kept. -/
  kept : List DownloadTask

/-- One pair, at its place in the list. -/
def planPair (inp : Input) (engine : Engine) (n : Nat) (pair : PhotoAsset × Nat)
    (state : Planning) : Option (Planning × PairPlan) := do
  let pass ← inp.passes[pair.2]?
  let (plan, planner) ← state.planner.planAsset engine.host engine.fuel
    (engine.plannedAsset pair.1) (engine.passConfig pass)
  let state := { state with planner := planner }
  if plan.filterReason.isSome then
    return (state, ⟨plan, []⟩)
  else if plan.malformedResource.isSome then
    return ({ state with enumerationErrors := state.enumerationErrors + 1 }, ⟨plan, []⟩)
  else
    let kept := plan.tasks.filter (keepTask engine n)
    let (assets, failures) :=
      if inp.config.hasStateDb then
        kept.foldl (upsertSeenForTask engine inp.replies.now n pair.1) (state.assets, 0)
      else (state.assets, 0)
    let albumFailures :=
      if inp.config.hasStateDb && pass.name ≠ "" && !engine.albumRecorded n then 1 else 0
    return ({ state with
      assets := assets,
      tasks := state.tasks ++ kept,
      stateWriteFailures := state.stateWriteFailures + failures + albumFailures }, ⟨plan, kept⟩)

def planPairs (inp : Input) (engine : Engine) :
    Nat → List (PhotoAsset × Nat) → Planning → Option (Planning × List PairPlan)
  | _, [], state => some (state, [])
  | n, pair :: rest, state => do
      let (state, plan) ← planPair inp engine n pair state
      let (state, plans) ← planPairs inp engine (n + 1) rest state
      return (state, plan :: plans)

/-- `--recent` caps the pairs. -/
def Input.cappedAssets (inp : Input) : List (PhotoAsset × Nat) :=
  match inp.config.recent with
  | some limit => inp.downloadableAssets.take limit
  | none => inp.downloadableAssets

def Engine.planning (engine : Engine) (inp : Input) : Option (Planning × List PairPlan) :=
  planPairs inp engine 0 inp.cappedAssets ⟨.new, engine.assets, [], 0, 0⟩

/-! ## downloads -/

/-- Put new tasks in the places of the old ones; each is used once. -/
def replaceRefreshed : List DownloadTask → (RetryTaskKey → Option DownloadTask) →
    List DownloadTask
  | [], _ => []
  | task :: tasks, refreshedByKey =>
      match refreshedByKey (.from task) with
      | some refreshed =>
          refreshed :: replaceRefreshed tasks (Function.update refreshedByKey (.from task) none)
      | none => task :: replaceRefreshed tasks refreshedByKey

/-- New URLs for the tasks that have one; the others keep theirs. -/
def refreshStaleIncrementalTasks (engine : Engine) (tasks : List DownloadTask) :
    List DownloadTask :=
  replaceRefreshed tasks (fun key =>
    (engine.refreshedTasks tasks).reverse.find? (fun fresh => RetryTaskKey.from fresh = key))

def mergeExpiredUrlRetryResult (result : PassResult) (candidates refreshed : List DownloadTask)
    (retry : PassResult) : PassResult :=
  let stillFailed := candidates.filter (fun task =>
    !(refreshed.map RetryTaskKey.from).contains (RetryTaskKey.from task))
  { downloadedTasks := result.downloadedTasks ++ retry.downloadedTasks,
    failed := stillFailed ++ retry.failed,
    authErrors := result.authErrors + retry.authErrors,
    exifFailures := result.exifFailures + retry.exifFailures,
    stateWriteFailures := result.stateWriteFailures + retry.stateWriteFailures,
    urlExpiredAbort := retry.urlExpiredAbort || !stillFailed.isEmpty }

/-- The download pass over the tasks, with one retry of those whose URL expired. -/
def Engine.download (engine : Engine) (downloadsFiles : Bool) (tasks : List DownloadTask) :
    PassResult :=
  let tasks := if downloadsFiles then refreshStaleIncrementalTasks engine tasks else tasks
  let result := engine.downloadPass tasks
  if result.urlExpiredAbort && result.authErrors < authErrorThreshold &&
      !engine.shutdownBeforeRetry then
    let candidates := tasks.filter (fun task =>
      !(result.downloadedTasks.map RetryTaskKey.from).contains (RetryTaskKey.from task))
    let retryTasks := engine.retryTasks candidates
    if !retryTasks.isEmpty then
      mergeExpiredUrlRetryResult result candidates retryTasks (engine.retryPass retryTasks)
    else if !candidates.isEmpty then { result with failed := candidates }
    else result
  else
    result

/-! ## the result -/

inductive DownloadOutcome where
  | success
  | sessionExpired (authErrorCount : Nat)
  | partialFailure (failedCount : Nat)
  deriving DecidableEq

def outcomeOf (failedCount : Nat) : DownloadOutcome :=
  if 0 < failedCount then .partialFailure failedCount else .success

structure SyncResult where
  outcome : DownloadOutcome
  syncToken : Option String
  syncTokenBlockedReason : Option String
  downloaded : Nat
  failed : Nat
  enumerationErrors : Nat
  exifFailures : Nat
  stateWriteFailures : Nat
  interrupted : Bool

/-- A result with what became of the pairs, the rows after the plans, and the files. -/
structure Collected where
  result : SyncResult
  plans : List PairPlan
  assets : AssetTable
  downloadedTasks : List DownloadTask

/-- The token, if nothing blocks it. -/
def Input.tokenUnlessBlocked (inp : Input) (enumerationErrors : Nat) : Option String :=
  if enumerationErrors = 0 ∧ inp.tokenUnsafeReason = none then inp.syncToken else none

/-- The metadata rewrites at the end of a run that downloads. -/
def Engine.rewrites (engine : Engine) (inp : Input) : Nat :=
  if inp.config.runMode.downloadsFiles && inp.config.hasStateDb then engine.rewriteFailures else 0

/-- A run without a task. -/
def withoutTasks (inp : Input) (engine : Engine) (planning : Planning) (plans : List PairPlan) :
    Collected where
  result :=
    let rewriteFailures := engine.rewrites inp
    { outcome := outcomeOf (planning.enumerationErrors + inp.stateTransitionFailures +
        planning.stateWriteFailures + rewriteFailures),
      syncToken :=
        if inp.config.runMode.onlyPrintFilenames then none
        else inp.tokenUnlessBlocked planning.enumerationErrors,
      syncTokenBlockedReason := inp.tokenUnsafeReason,
      downloaded := 0,
      failed := 0,
      enumerationErrors := planning.enumerationErrors,
      exifFailures := rewriteFailures,
      stateWriteFailures := inp.stateTransitionFailures + planning.stateWriteFailures,
      interrupted := engine.interrupted }
  plans := plans
  assets := planning.assets
  downloadedTasks := []

/-- A run that prints the paths of its tasks. -/
def printedTasks (inp : Input) (planning : Planning) (plans : List PairPlan) : Collected where
  result :=
    { outcome := outcomeOf (planning.enumerationErrors + inp.stateTransitionFailures),
      syncToken := none,
      syncTokenBlockedReason := inp.tokenUnsafeReason,
      downloaded := 0,
      failed := 0,
      enumerationErrors := planning.enumerationErrors,
      exifFailures := 0,
      stateWriteFailures := inp.stateTransitionFailures + planning.stateWriteFailures,
      interrupted := false }
  plans := plans
  assets := planning.assets
  downloadedTasks := []

/-- A run that downloads its tasks. -/
def downloadedRun (inp : Input) (engine : Engine) (planning : Planning)
    (plans : List PairPlan) : Collected :=
  let pass := engine.download inp.config.runMode.downloadsFiles planning.tasks
  let exifFailures := pass.exifFailures + engine.rewrites inp
  let stateWriteFailures :=
    pass.stateWriteFailures + inp.stateTransitionFailures + planning.stateWriteFailures
  let expired := authErrorThreshold ≤ pass.authErrors
  { result :=
      { outcome :=
          if expired then .sessionExpired pass.authErrors
          else outcomeOf (pass.failed.length + exifFailures + stateWriteFailures +
            planning.enumerationErrors),
        syncToken :=
          if expired then inp.tokenUnlessBlocked 0
          else inp.tokenUnlessBlocked planning.enumerationErrors,
        syncTokenBlockedReason := inp.tokenUnsafeReason,
        downloaded := pass.downloadedTasks.length,
        failed := pass.failed.length,
        enumerationErrors := planning.enumerationErrors,
        exifFailures := exifFailures,
        stateWriteFailures := stateWriteFailures,
        interrupted := engine.interrupted || expired },
    plans := plans,
    assets := planning.assets,
    downloadedTasks := pass.downloadedTasks }

/-- `download_photos_incremental_collecting_inner`; `none` when it returns an error or does not
return. -/
def downloadPhotosIncrementalCollecting (inp : Input) (engine : Engine) : Option Collected :=
  if inp.readFails then
    none
  else if inp.downloadableAssets.isEmpty then
    some (withoutTasks inp engine ⟨.new, engine.assets, [], 0, 0⟩ [])
  else do
    let (planning, plans) ← engine.planning inp
    if planning.tasks.isEmpty then return withoutTasks inp engine planning plans
    else if inp.config.runMode.onlyPrintFilenames then return printedTasks inp planning plans
    else return downloadedRun inp engine planning plans

end Kei.Incremental
