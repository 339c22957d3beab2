import Kei.Download.Filter
import Kei.StateDb.Atomic

/-!
# Kei.Download.Finalize

The state of a finished download: success, failure, and the marker for a
metadata write that failed.

A success that the store does not take is put off and written later.  Every
statement may fail; `PassState.fuses` says which, store operation by store
operation, and `PassState.steps` is what the pass did.
-/

namespace Kei.Download

open StateDb Sql

/-! ## the records -/

def VersionSizeKey.asStr : VersionSizeKey → String
  | .original => "original"
  | .medium => "medium"
  | .thumb => "thumb"
  | .adjusted => "adjusted"
  | .alternative => "alternative"
  | .liveOriginal => "live_original"
  | .liveMedium => "live_medium"
  | .liveThumb => "live_thumb"
  | .liveAdjusted => "live_adjusted"

structure ExistingFileFingerprint where
  size : Nat
  sha256 : String
  deriving DecidableEq

/-- Final-path behavior for a verified `.part` file. -/
inductive FinalPublication where
  | noReplace
  | replaceTruncated (expected : ExistingFileFingerprint)
  deriving DecidableEq

/-- A task with how it is published. -/
structure PublishedTask extends DownloadTask where
  publication : FinalPublication

structure PendingStateWrite where
  library : String
  assetId : String
  versionSize : VersionSizeKey
  downloadPath : Path
  localChecksum : String
  downloadChecksum : Option String
  markCaptureRepair : Bool

def PendingStateWrite.key (write : PendingStateWrite) : Key :=
  ⟨write.library, write.assetId, write.versionSize.asStr⟩

def stateWriteMaxRetries : Nat := 6

structure StateWriteFlush where
  attempted : Nat
  failures : Nat
  deriving DecidableEq

def stateDbUnwritableThreshold : Nat := 5

inductive DownloadedFinalization where
  | persisted
  | deferred (write : PendingStateWrite)

def fileTruncatedReason : String := "FILE_TRUNCATED_AT_STARTUP"

/-! ## store operations -/

def recordMetadataWriteFailure (library assetId versionSize : String) (now : Int) :
    StateSql Unit :=
  execute "record_metadata_write_failure"
    (fun s : StateTables => s.modifyAssets (fun t =>
      t.update (AssetRow.isVersion library assetId versionSize)
        (fun r => { r with metadataWriteFailedAt := some now })
        (AssetRow.key_metadataWriteFailed now)))
    (fun _ => ())

def markFailedStatements (library id versionSize error : String) : StateSql Unit := do
  let rows ← execute "mark_failed"
    (fun s : StateTables => s.modifyAssets (fun t =>
      t.update (AssetRow.isVersion library id versionSize) (AssetRow.failedWith error)
        (AssetRow.key_failedWith error)))
    (fun s => s.db.assets.count (AssetRow.isVersion library id versionSize))
  if rows = 0 then
    .refuse (.invariant "mark_failed" ("library=" ++ library ++ " id=" ++ id ++ " version_size=" ++
      versionSize ++ " not present; upsert_seen must run before mark_failed"))

/-- `mark_downloaded_with_capture_repair` for the write. -/
def PendingStateWrite.statements (write : PendingStateWrite) (now : Int) : StateSql Unit :=
  markDownloaded write.library write.assetId write.versionSize.asStr write.downloadPath
    write.localChecksum write.downloadChecksum write.markCaptureRepair now

/-! ## the steps of a pass -/

/-- What a pass asks of the store, with the fuse of each operation. -/
inductive StateStep where
  /-- A download is finished: its success state, and a marker if its metadata write failed. -/
  | finalize (write : PendingStateWrite) (exifOk : Bool) (mark marker : Option Nat)
  | retry (write : PendingStateWrite) (mark : Option Nat)
  | fail (library assetId versionSize error : String) (mark : Option Nat)

/-- The success state was written. -/
def PendingStateWrite.Lands (write : PendingStateWrite) (now : Int) (mark : Option Nat)
    (s : StateTables) : Bool :=
  (inConnection (write.statements now) mark s).1.isOk

def StateStep.run (now : Int) (s : StateTables) : StateStep → StateTables
  | .finalize write exifOk mark marker =>
      let written := (inConnection (write.statements now) mark s).2
      if write.Lands now mark s && !exifOk then
        (inConnection (recordMetadataWriteFailure write.library write.assetId
          write.versionSize.asStr now) marker written).2
      else written
  | .retry write mark => (inConnection (write.statements now) mark s).2
  | .fail library assetId versionSize error mark =>
      (inConnection (markFailedStatements library assetId versionSize error) mark s).2

def StateStep.runAll (now : Int) (s : StateTables) (steps : List StateStep) : StateTables :=
  steps.foldl (StateStep.run now) s

structure PassState where
  tables : StateTables
  fuses : List (Option Nat)
  steps : List StateStep

abbrev PassM := StateM PassState

def nextFuse : PassM (Option Nat) := fun p => (p.fuses.headD none, { p with fuses := p.fuses.tail })

/-- Make a step and say whether the success state of `write` was written. -/
def makeStep (now : Int) (write : PendingStateWrite) (mark : Option Nat) (step : StateStep) :
    PassM Bool :=
  fun p => (write.Lands now mark p.tables,
    { p with tables := step.run now p.tables, steps := p.steps ++ [step] })

/-! ## finishing downloads -/

section

variable (now : Int)

/-- The marker is written only after the success state. -/
def markerFuse (marks : Bool) : PassM (Option Nat) := if marks then nextFuse else pure none

def finalizeDownloaded (library : String) (task : PublishedTask) (localChecksum : String)
    (downloadChecksum : Option String) (exifOk markCaptureRepair : Bool) :
    PassM DownloadedFinalization := do
  let write : PendingStateWrite :=
    ⟨library, task.assetId, task.versionSize, task.downloadPath, localChecksum, downloadChecksum,
      markCaptureRepair⟩
  let mark ← nextFuse
  let marker ← markerFuse (write.Lands now mark (← get).tables && !exifOk)
  let persisted ← makeStep now write mark (.finalize write exifOk mark marker)
  return if persisted then .persisted else .deferred write

def finalizeFailed (library : String) (task : PublishedTask) (error : String) : PassM Unit := do
  let durableError := match task.publication with
    | .noReplace => error
    | .replaceTruncated _ => fileTruncatedReason
  let mark ← nextFuse
  modify (fun p =>
    let step := StateStep.fail library task.assetId task.versionSize.asStr durableError mark
    { p with tables := step.run now p.tables, steps := p.steps ++ [step] })

/-- Retry a write, at most `attempts` times. -/
def retryPendingStateWrite (write : PendingStateWrite) : (attempts : Nat) → PassM Bool
  | 0 => return false
  | attempts + 1 => do
      let mark ← nextFuse
      if ← makeStep now write mark (.retry write mark) then
        return true
      else
        retryPendingStateWrite write attempts

/-- Retry the writes; the ones that fail again are returned. -/
def retryPendingStateWrites : List PendingStateWrite → PassM (List PendingStateWrite)
  | [] => return []
  | write :: pending => do
      let recovered ← retryPendingStateWrite now write stateWriteMaxRetries
      let failed ← retryPendingStateWrites pending
      return if recovered then failed else write :: failed

def flushPendingStateWritesRetainingFailures (pending : List PendingStateWrite) :
    PassM (StateWriteFlush × List PendingStateWrite) := do
  if pending.isEmpty then
    return (⟨0, 0⟩, [])
  else
    let failed ← retryPendingStateWrites now pending
    return (⟨pending.length, failed.length⟩, failed)

def flushPendingStateWrites (pending : List PendingStateWrite) : PassM Nat := do
  if pending.isEmpty then
    return 0
  else
    let failed ← retryPendingStateWrites now pending
    return failed.length

def stateWriteCircuitBreakerTripped (flush : StateWriteFlush) : Bool :=
  stateDbUnwritableThreshold ≤ flush.attempted && flush.failures = flush.attempted

/-- Whether the breaker opens, with the writes that are still put off. -/
def checkStateWriteCircuitBreaker (pending : List PendingStateWrite) :
    PassM (Bool × List PendingStateWrite) := do
  if pending.length < stateDbUnwritableThreshold then
    return (false, pending)
  else
    let (flush, failed) ← flushPendingStateWritesRetainingFailures now pending
    return (stateWriteCircuitBreakerTripped flush, failed)

/-! ## the pass -/

inductive DownloadTaskErrorClass where
  | interrupted
  | sessionExpired
  | expiredUrl
  | other
  deriving DecidableEq

/-- What `download_single_task` returned for a task. -/
inductive TaskResult where
  | ok (exifOk : Bool) (localChecksum : String) (downloadChecksum : Option String)
  | error (errorClass : DownloadTaskErrorClass) (error : String)

/-- The writes that are put off, and whether the breaker is open. -/
structure Consumer where
  pendingStateWrites : List PendingStateWrite
  stateWriteCircuitOpen : Bool

/-- Put the write of a finished download off if the store did not take it. -/
def Consumer.settle (consumer : Consumer) : DownloadedFinalization → PassM Consumer
  | .persisted => return consumer
  | .deferred write =>
      let pending := consumer.pendingStateWrites ++ [write]
      if consumer.stateWriteCircuitOpen then
        return { consumer with pendingStateWrites := pending }
      else do
        let (tripped, pending) ← checkStateWriteCircuitBreaker now pending
        return ⟨pending, tripped⟩

/-- One finished task of the pass. -/
def consumeResult (markCaptureRepairAfterDownload : Bool) (consumer : Consumer)
    (task : PublishedTask) : TaskResult → PassM Consumer
  | .ok exifOk localChecksum downloadChecksum => do
      let finalization ← finalizeDownloaded now task.library task localChecksum downloadChecksum
        exifOk markCaptureRepairAfterDownload
      consumer.settle now finalization
  | .error .interrupted _ => return consumer
  | .error _ error => do
      finalizeFailed now task.library task error
      return consumer

def consumeResults (markCaptureRepairAfterDownload : Bool) (consumer : Consumer) :
    List (PublishedTask × TaskResult) → PassM Consumer
  | [] => return consumer
  | (task, result) :: results => do
      let consumer ← consumeResult now markCaptureRepairAfterDownload consumer task result
      consumeResults markCaptureRepairAfterDownload consumer results

/-- The last flush. -/
def Consumer.finish (consumer : Consumer) : PassM Nat :=
  if consumer.stateWriteCircuitOpen then
    return consumer.pendingStateWrites.length
  else
    flushPendingStateWrites now consumer.pendingStateWrites

/-- The state writes of `run_download_pass`, for the results in the order in which they come.
What is returned is the number of writes that failed for good. -/
def runDownloadPass (markCaptureRepairAfterDownload : Bool)
    (results : List (PublishedTask × TaskResult)) : PassM Nat := do
  let consumer ← consumeResults now markCaptureRepairAfterDownload ⟨[], false⟩ results
  consumer.finish now

end

end Kei.Download
