import Kei.Download.Content
import Kei.Download.Retry
import Kei.FullEnumeration
import Kei.Import
import Kei.Lib.Table
import Kei.SyncCycle

/-!
# Kei.Download.CatalogPaths

Path reconciliation: the downloaded rows of a library are planned anew under the
current configuration, and each file that is wanted elsewhere is copied there.

The store, the answers of the provider and the files are the `Catalog`; what the
store and the disk make of a request is in `CatalogReplies`.
-/

namespace Kei.Download

open Str FullEnumeration Import

/-! ## the catalog -/

/-- A row of `assets`, with the columns that a reconciliation reads or writes. -/
structure CatalogRow extends AssetRecord where
  status : StateDb.AssetStatus
  isDeleted : Bool

abbrev CatalogRow.target (row : CatalogRow) : PendingRetryTarget := .fromRecord row.toAssetRecord

abbrev CatalogTable := Table CatalogRow PendingRetryTarget CatalogRow.target

def fileMissingReason : String := "FILE_MISSING_AT_STARTUP"

/-- `update_status_to_downloaded`, without a checksum of the download. -/
def CatalogRow.downloadedAs (localPath : Path) (localChecksum : String) (downloadedAt : Int)
    (row : CatalogRow) : CatalogRow :=
  { row with
    status := .downloaded,
    downloadedAt := some downloadedAt,
    localPath := some localPath,
    localChecksum := some localChecksum,
    lastError := none }

def CatalogRow.failedWith (error : String) (row : CatalogRow) : CatalogRow :=
  { row with status := .failed, lastError := some error }

/-- What the provider says about the record of a row. -/
inductive CatalogResolution (stateId : String) where
  | present (asset : PlannedAsset) (named : asset.stateId = stateId)
  | assetPresent
  | masterPresent
  | deleted (masterFamily : Bool)
  | unknown
  | transientFailure

/-- The answer settles what is to become of the rows. -/
def CatalogResolution.isSettled {stateId : String} : CatalogResolution stateId → Bool
  | .present .. | .deleted _ => true
  | _ => false

/-- The regular files, by the components of their paths. -/
abbrev Files := List String → Option Content

/-- What a reconciliation of a library starts from. -/
structure Catalog where
  host : Host
  land : LandHost
  fuel : Nat
  config : PassConfig
  tempSuffix : String
  folderStructureForPass : AlbumPass → String
  passes : List AlbumPass
  assets : CatalogTable
  /-- The asset and master record names of the library. -/
  assetMasterMappings : List (String × String)
  /-- The names of the albums that were recorded for an asset. -/
  assetAlbums : List (String × String)
  /-- The album container is there and its snapshot is complete. -/
  snapshotComplete : String → Bool
  resolve : (stateId : String) → CatalogResolution stateId
  files : Files
  /-- The listings of the host are of these files. -/
  listing : ∀ dir name, (host.readDirEntries dir).lookup name =
    (files (dir ++ [name])).map List.length

/-! ## the failures -/

/-- How a store operation of several statements ends. -/
inductive WriteReply where
  | done
  /-- The row was written, and a later statement failed. -/
  | unconfirmed
  | fails
  deriving DecidableEq

/-- What the disk makes of one copy. -/
structure CopyReplies where
  inspected : Bool
  directoryCreated : Bool
  /-- The bytes that arrive in the temporary file. -/
  copied : Content → Option Content
  readable : Path → Bool
  /-- The file that another program puts at the destination meanwhile. -/
  appears : Option Content
  published : Bool

/-- What becomes of the requests of one task. -/
structure TaskReplies extends CopyReplies where
  sourceInspected : Bool
  downloadedWritten : WriteReply
  failedWritten : Bool

structure CatalogReplies where
  pagesRead : Bool
  mapsRead : Bool
  readable : Path → Bool
  deletionWritten : String → Bool
  /-- How many results are gone through before the shutdown. -/
  shutdown : Option Nat
  task : Nat → TaskReplies
  now : Int

/-! ## the recorded file -/

def TaskPlanner.existingPathWithSize (host : Host) (planner : TaskPlanner) (path : Path) :
    Option (Path × Nat) × TaskPlanner :=
  match planner.dirCache.fileSize host path with
  | (some size, cache) => (some (path, size), { planner with dirCache := cache })
  | (none, cache) =>
      match cache.findAmpmVariant host path with
      | (none, cache) => (none, { planner with dirCache := cache })
      | (some found, cache) =>
          let (size, cache) := cache.fileSize host found
          (size.map (found, ·), { planner with dirCache := cache })

/-- The file has the size that the provider reports, or the bytes that were recorded after its
metadata was written. -/
def statePathSizeAllowsSkip (land : LandHost) (files : Files) (readable : Path → Bool)
    (path : Path) (onDiskSize expectedSize : Nat) (file : RecordedLocalFile) : Bool :=
  expectedSize = 0 || expectedSize ≤ onDiskSize ||
    (PendingRetryEvidence.metadataChangedDownload file && readable path &&
      (files (components path)).any (fun bytes => file.localChecksum = some (land.sha256 bytes)))

/-- The names that a collision may have given to the file. -/
def collisionFamilyBaseFilenames (assetId : String) (derived : DerivedPath)
    (derivedPaths : List DerivedPath) (config : DownloadConfig) : List String :=
  let bases := [derived.filename, addDedupSuffix derived.filename derived.size,
    insertAssetIdentitySuffix derived.filename assetId]
  match (if isLivePhotoMotion derived.versionSize then primaryExpectedPath derivedPaths
    else none) with
  | none => bases
  | some primary =>
      bases ++ [addDedupSuffix primary.filename primary.size,
        insertAssetIdentitySuffix primary.filename assetId].map
          (movFilename config.livePhotoMovFilenamePolicy)

def storedFilenameMatchesBaseFamily (storedFilename base assetId : String) : Bool :=
  let base := cleanFilename base
  storedFilename = base || normalizeAmpm storedFilename = normalizeAmpm base ||
    filenameMatchesIdentityCollision base assetId storedFilename ||
    filenameMatchesIdentityCollision (normalizeAmpm base) assetId (normalizeAmpm storedFilename)

def storedPathMatchesCurrentCollisionFamily (assetId : String) (derived : DerivedPath)
    (derivedPaths : List DerivedPath) (config : DownloadConfig) (storedPath : Path) : Bool :=
  parent storedPath = parent derived.path &&
    (fileName storedPath).any (fun storedFilename =>
      (collisionFamilyBaseFilenames assetId derived derivedPaths config).any
        (fun base => storedFilenameMatchesBaseFamily storedFilename base assetId))

section recorded

variable (host : Host) (allowsSkip : Path → Nat → Nat → Bool)

/-- The recorded file is at a derived path; the outer `none` is no verdict. -/
def recordedAtDerived (versionSize : VersionSizeKey) (storedPath : Path) :
    List DerivedPath → TaskPlanner → Option (Option Path) × TaskPlanner
  | [], planner => (none, planner)
  | derived :: rest, planner =>
      if derived.versionSize ≠ versionSize then
        recordedAtDerived versionSize storedPath rest planner
      else
        match planner.existingPathWithSize host derived.path with
        | (none, planner) => recordedAtDerived versionSize storedPath rest planner
        | (some (existingPath, existingSize), planner) =>
            if components existingPath = components storedPath then
              (some (if allowsSkip existingPath existingSize derived.size then some existingPath
                else none), planner)
            else recordedAtDerived versionSize storedPath rest planner

/-- The recorded file has a name that a collision gave it. -/
def recordedInFamily (versionSize : VersionSizeKey) (storedPath : Path) (assetId : String)
    (derivedPaths : List DerivedPath) (config : DownloadConfig) :
    List DerivedPath → TaskPlanner → Option Path × TaskPlanner
  | [], planner => (none, planner)
  | derived :: rest, planner =>
      if derived.versionSize ≠ versionSize ||
          !storedPathMatchesCurrentCollisionFamily assetId derived derivedPaths config
            storedPath then
        recordedInFamily versionSize storedPath assetId derivedPaths config rest planner
      else
        match planner.existingPathWithSize host storedPath with
        | (none, planner) => (none, planner)
        | (some (existingPath, existingSize), planner) =>
            (if allowsSkip existingPath existingSize derived.size then some existingPath else none,
              planner)

end recorded

namespace Catalog

variable (catalog : Catalog)

/-- Where the recorded file is found, if the current configuration wants it there. -/
def recordedCurrentPathExists (readable : Path → Bool) (config : PassConfig)
    (asset : PlannedAsset) (versionSize : VersionSizeKey) (planner : TaskPlanner)
    (file : RecordedLocalFile) : Option Path × TaskPlanner :=
  let derivedPaths := deriveExpectedPaths catalog.host asset.toPhotoAsset config.toDownloadConfig
  let allowsSkip := fun path onDiskSize expectedSize =>
    statePathSizeAllowsSkip catalog.land catalog.files readable path onDiskSize expectedSize file
  match recordedAtDerived catalog.host allowsSkip versionSize file.path derivedPaths planner with
  | (some verdict, planner) => (verdict, planner)
  | (none, planner) =>
      recordedInFamily catalog.host allowsSkip versionSize file.path asset.stateId derivedPaths
        config.toDownloadConfig derivedPaths planner

end Catalog

/-! ## what is asked for -/

def CatalogRow.isLiveOf (library : String) (row : CatalogRow) : Bool :=
  row.library = library && !row.isDeleted

/-- The pages of `get_downloaded_page` from `offset` on. -/
def readDownloadedPages (rows : List CatalogRow) (pageSize : Nat) : (fuel : Nat) → (offset : Nat) →
    List CatalogRow
  | 0, _ => []
  | fuel + 1, offset =>
      let page := (rows.drop offset).take pageSize
      page ++ if page.length < pageSize then [] else
        readDownloadedPages rows pageSize fuel (offset + pageSize)

structure RecordLookupRequest where
  stateId : String
  masterRecordName : String
  assetRecordName : String
  deriving DecidableEq

namespace Catalog

variable (catalog : Catalog)

/-- The downloaded rows of the library that are not deleted. -/
def records : List CatalogRow :=
  let downloaded := catalog.assets.rows.filter (fun row => row.status = .downloaded)
  (readDownloadedPages downloaded 1000 (downloaded.length + 1) 0).filter
    (CatalogRow.isLiveOf catalog.config.library)

def getMasterRecordNameForAsset (assetRecordName : String) : Option String :=
  (catalog.assetMasterMappings.find? (fun m => m.1 = assetRecordName)).map (·.2)

def getAssetRecordNamesForMaster (masterRecordName : String) : List String :=
  (catalog.assetMasterMappings.filter (fun m => m.2 = masterRecordName)).map (·.1)

/-- `master_by_state_id`. -/
def masterOf (stateId : String) : String :=
  (catalog.getMasterRecordNameForAsset stateId).getD stateId

def requestsOf (row : CatalogRow) : List RecordLookupRequest :=
  let assetRecordNames :=
    if (catalog.getMasterRecordNameForAsset row.id).isSome then [row.id]
    else catalog.getAssetRecordNamesForMaster (catalog.masterOf row.id)
  assetRecordNames.map (fun name => ⟨row.id, catalog.masterOf row.id, name⟩)

def requests : List RecordLookupRequest :=
  (catalog.records.flatMap catalog.requestsOf).eraseDups

/-- The state ids that `resolve_records` answers for, in order. -/
def resolvedIds : List String := (catalog.requests.map (·.stateId)).eraseDups

/-- `complete` of the answers. -/
def batchComplete : Bool :=
  catalog.resolvedIds.all (fun stateId => (catalog.resolve stateId).isSettled)

def albumPasses : List AlbumPass := catalog.passes.filter (fun pass => pass.kind = .album)

def selectedAlbumContainersHaveCompleteSnapshots (containerIds : List String) : Bool :=
  containerIds.all catalog.snapshotComplete

/-- The memberships of the selected albums are known, and no smart folder is selected. -/
def selectionComplete : Bool :=
  let containerIds := catalog.albumPasses.filterMap (·.containerId)
  containerIds.length = catalog.albumPasses.length &&
    catalog.selectedAlbumContainersHaveCompleteSnapshots containerIds &&
    !catalog.passes.any (fun pass => pass.kind = .smartFolder)

def knownAlbums (stateId : String) : List String :=
  (catalog.assetAlbums.filter (fun entry => entry.1 = stateId)).map (·.2)

/-- The pass takes the asset, by the albums that were recorded for it. -/
def selects (stateId : String) (pass : AlbumPass) : Bool :=
  match pass.kind with
  | .album => (catalog.knownAlbums stateId).contains pass.name
  | .unfiled => (catalog.knownAlbums stateId).isEmpty
  | .smartFolder => false

/-- `with_pass`. -/
def withPass (pass : AlbumPass) : PassConfig :=
  { catalog.config with
    albumName := some pass.name,
    folderStructure := catalog.folderStructureForPass pass,
    excludeAssetIds := pass.excludeIds }

/-- `records_by_target`. -/
def recordByTarget (target : PendingRetryTarget) : Option CatalogRow :=
  catalog.records.find? (fun row => row.target = target)

end Catalog

/-! ## planning -/

inductive CatalogStop where
  | storeError
  /-- The search for a free name ran out of fuel. -/
  | outOfFuel
  deriving DecidableEq

structure CatalogPlan where
  assets : CatalogTable
  /-- The rows that no answer has settled. -/
  targets : List PendingRetryTarget
  taskPlanner : TaskPlanner
  tasks : List DownloadTask

abbrev CatalogM := Prog CatalogPlan CatalogStop

structure RetryTaskKey where
  assetId : String
  versionSize : VersionSizeKey
  downloadPath : Path
  deriving DecidableEq

def RetryTaskKey.from (task : DownloadTask) : RetryTaskKey :=
  ⟨task.assetId, task.versionSize, task.downloadPath⟩

def markDeleted (p : CatalogRow → Bool) (assets : CatalogTable) : CatalogTable :=
  assets.update p (fun row => { row with isDeleted := true }) (fun _ => rfl)

def dropTargets (stateId : String) : CatalogM Unit :=
  Prog.modify (fun s => { s with
    targets := s.targets.filter (fun target => target.assetId ≠ stateId) })

namespace Catalog

variable (catalog : Catalog) (replies : CatalogReplies)

/-- The version that the record is about is where the current configuration wants it. -/
def isAtCurrentPath (config : PassConfig) (asset : PlannedAsset) (task : DownloadTask) :
    CatalogM Bool := fun s =>
  match (catalog.recordByTarget (.fromTask task)).filter (fun record =>
      record.checksum = task.checksum && record.sizeBytes = task.size) with
  | none => (.ok false, s)
  | some record =>
      match record.localPath with
      | none => (.ok false, s)
      | some path =>
          let (found, planner) := catalog.recordedCurrentPathExists replies.readable config asset
            task.versionSize s.taskPlanner ⟨path, record.localChecksum, record.downloadChecksum⟩
          (.ok found.isSome, { s with taskPlanner := planner })

def takeTask (config : PassConfig) (asset : PlannedAsset) (task : DownloadTask) :
    CatalogM Unit := do
  if ← catalog.isAtCurrentPath replies config asset task then
    pure ()
  else
    Prog.modify (fun s =>
      if s.tasks.any (fun t => RetryTaskKey.from t = .from task) then s
      else { s with tasks := s.tasks ++ [task] })

def takeTasks (config : PassConfig) (asset : PlannedAsset) : List DownloadTask → CatalogM Unit
  | [] => pure ()
  | task :: tasks => do
      catalog.takeTask replies config asset task
      takeTasks config asset tasks

def planAsset (asset : PlannedAsset) (config : PassConfig) : CatalogM AssetTaskPlan := fun s =>
  match s.taskPlanner.planAsset catalog.host catalog.fuel asset config with
  | none => (.error .outOfFuel, s)
  | some (plan, planner) => (.ok plan, { s with taskPlanner := planner })

/-- Plan the asset under the pass, if the pass takes it. -/
def planPass (stateId : String) (asset : PlannedAsset) (pass : AlbumPass) : CatalogM Unit := do
  if catalog.selects stateId pass then
    let plan ← catalog.planAsset asset (catalog.withPass pass)
    if plan.filterReason.isNone then
      catalog.takeTasks replies (catalog.withPass pass) asset plan.tasks

def planPasses (stateId : String) (asset : PlannedAsset) : List AlbumPass → CatalogM Unit
  | [] => pure ()
  | pass :: passes => do
      catalog.planPass replies stateId asset pass
      planPasses stateId asset passes

/-- The rows that a deletion of the record reaches. -/
def isDeletedWith (stateId : String) (masterFamily : Bool) (row : CatalogRow) : Bool :=
  row.library = catalog.config.library &&
    if masterFamily then
      row.id = catalog.masterOf stateId ||
        catalog.assetMasterMappings.contains (row.id, catalog.masterOf stateId)
    else row.id = stateId

/-- What one answer of the provider leads to. -/
def settle (stateId : String) : CatalogM Unit :=
  match catalog.resolve stateId with
  | .present asset _ => do
      dropTargets stateId
      catalog.planPasses replies stateId asset catalog.passes
  | .deleted masterFamily =>
      if replies.deletionWritten stateId then do
        Prog.modify (fun s => { s with
          assets := markDeleted (catalog.isDeletedWith stateId masterFamily) s.assets })
        dropTargets stateId
      else Prog.halt .storeError
  | .assetPresent | .masterPresent | .unknown | .transientFailure => pure ()

/-- The answers one after the other, until the shutdown. -/
def settleAll : List String → (index : Nat) → CatalogM Unit
  | [], _ => pure ()
  | stateId :: stateIds, index =>
      if replies.shutdown.any (fun count => count ≤ index) then pure ()
      else do
        catalog.settle replies stateId
        settleAll stateIds (index + 1)

end Catalog

/-! ## copying -/

inductive CopyPublication where
  | published
  | destinationExists

abbrev CopyM := Prog Files Unit

namespace CopyReplies

variable (replies : CopyReplies) (land : LandHost)

/-- Go on, or end with an error. -/
def check (succeeds : Bool) : CopyM Unit := if succeeds then pure () else Prog.halt ()

def tryExists (path : Path) : CopyM Bool := do
  check replies.inspected
  Prog.read (fun files => (files (components path)).isSome)

/-- The bytes of a file that can be read. -/
def readFile (path : Path) : CopyM Content := fun files =>
  match (files (components path)).filter (fun _ => replies.readable path) with
  | some bytes => (.ok bytes, files)
  | none => (.error (), files)

def computeSha256 (path : Path) : CopyM String := do
  let bytes ← replies.readFile path
  return land.sha256 bytes

def logRemove (path : Path) : CopyM Unit :=
  Prog.modify (fun files => Function.update files (components path) none)

/-- `fs::copy`. -/
def copyFile (source target : Path) : CopyM Unit := fun files =>
  match (files (components source)).bind replies.copied with
  | some bytes => (.ok (), Function.update files (components target) (some bytes))
  | none => (.error (), files)

def publishPartNoReplace (part destination : Path) : CopyM CopyPublication := fun files =>
  let files :=
    if replies.appears.isSome then Function.update files (components destination) replies.appears
    else files
  if (files (components destination)).isSome then (.ok .destinationExists, files)
  else if replies.published then
    (.ok .published, Function.update
      (Function.update files (components destination) (files (components part)))
      (components part) none)
  else (.error (), files)

/-- The hash of the destination, if it is the one of the source. -/
def destinationHashIf (sourceHash : String) (destination : Path) : CopyM (Option String) := do
  let destinationHash ← replies.computeSha256 land destination
  return if sourceHash = destinationHash then some destinationHash else none

/-- The temporary file of a copy. -/
def partPath (destination : Path) (tempSuffix : String) : Path :=
  join (parentPath destination)
    ((fileName destination).getD "reconciled" ++ tempSuffix ++ "-reconcile")

/-- Publish a copy that has the hash of its source. -/
def publishCopy (sourceHash copiedHash : String) (part destination : Path) :
    CopyM (Option String) := do
  match ← replies.publishPartNoReplace part destination with
  | .published => return some copiedHash
  | .destinationExists =>
      logRemove part
      replies.destinationHashIf land sourceHash destination

/-- Copy to a destination that is not there. -/
def copyThroughPart (source destination part : Path) : CopyM (Option String) := do
  check replies.directoryCreated
  logRemove part
  replies.copyFile source part
  let sourceHash ← replies.computeSha256 land source
  let copiedHash ← replies.computeSha256 land part
  if sourceHash ≠ copiedHash then
    logRemove part
    Prog.halt ()
  else
    replies.publishCopy land sourceHash copiedHash part destination

def copyLocalFileNoReplace (source destination : Path) (tempSuffix : String) :
    CopyM (Option String) := do
  if ← replies.tryExists destination then
    let sourceHash ← replies.computeSha256 land source
    replies.destinationHashIf land sourceHash destination
  else
    replies.copyThroughPart land source destination (partPath destination tempSuffix)

end CopyReplies

/-! ## the tasks -/

/-- A row that was marked as downloaded. -/
structure CatalogMark where
  record : CatalogRow
  task : DownloadTask
  /-- The file it was copied from, when the copy began. -/
  source : Option Content

structure CatalogStats where
  downloaded : Nat
  photosDownloaded : Nat
  videosDownloaded : Nat
  diskBytesWritten : Nat
  failed : Nat
  stateWriteFailures : Nat
  interrupted : Bool
  deriving DecidableEq

def CatalogStats.default : CatalogStats := ⟨0, 0, 0, 0, 0, 0, false⟩

structure CatalogRun where
  assets : CatalogTable
  files : Files
  stats : CatalogStats
  deferredToPendingRetry : Bool
  marks : List CatalogMark

def DownloadTask.isVersion (task : DownloadTask) (row : CatalogRow) : Bool :=
  row.target = .fromTask task

def requeueMissingCatalogFile (replies : TaskReplies) (task : DownloadTask) (s : CatalogRun) :
    CatalogRun :=
  if replies.failedWritten then
    { s with
      assets := s.assets.update task.isVersion (CatalogRow.failedWith fileMissingReason)
        (fun _ => rfl),
      deferredToPendingRetry := true }
  else
    { s with
      stats := { s.stats with stateWriteFailures := s.stats.stateWriteFailures + 1 },
      deferredToPendingRetry := true }

/-- A file was copied for the record. -/
def CatalogStats.addCopy (stats : CatalogStats) (task : DownloadTask) (record : CatalogRow) :
    CatalogStats :=
  let stats := { stats with
    downloaded := stats.downloaded + 1,
    diskBytesWritten := SyncCycle.saturatingAdd stats.diskBytesWritten record.sizeBytes }
  if task.mediaType = .photo || task.mediaType = .livePhotoImage then
    { stats with photosDownloaded := stats.photosDownloaded + 1 }
  else { stats with videosDownloaded := stats.videosDownloaded + 1 }

/-- `mark_downloaded` after the copy. -/
def markCopied (replies : TaskReplies) (now : Int) (record : CatalogRow) (task : DownloadTask)
    (source : Option Content) (localChecksum : String) (s : CatalogRun) : CatalogRun :=
  let marked : CatalogRun := { s with
    assets := s.assets.update task.isVersion
      (CatalogRow.downloadedAs task.downloadPath localChecksum now) (fun _ => rfl),
    marks := s.marks ++ [⟨record, task, source⟩] }
  match replies.downloadedWritten with
  | .done => { marked with stats := marked.stats.addCopy task record }
  | .unconfirmed =>
      { marked with
        stats := { marked.stats with stateWriteFailures := marked.stats.stateWriteFailures + 1 } }
  | .fails =>
      { s with stats := { s.stats with stateWriteFailures := s.stats.stateWriteFailures + 1 } }

def CatalogRun.countFailed (s : CatalogRun) : CatalogRun :=
  { s with stats := { s.stats with failed := s.stats.failed + 1 } }

namespace Catalog

variable (catalog : Catalog) (replies : CatalogReplies)

/-- The copy for one task. -/
def copyFor (taskReplies : TaskReplies) (record : CatalogRow) (task : DownloadTask)
    (sourcePath : Path) (s : CatalogRun) : CatalogRun :=
  match taskReplies.copyLocalFileNoReplace catalog.land sourcePath task.downloadPath
    catalog.tempSuffix s.files with
  | (.ok (some localChecksum), files) =>
      markCopied taskReplies replies.now record task (s.files (components sourcePath))
        localChecksum { s with files := files }
  | (.ok none, files) | (.error _, files) => { s with files := files }.countFailed

def runTask (taskReplies : TaskReplies) (task : DownloadTask) (s : CatalogRun) : CatalogRun :=
  match catalog.recordByTarget (.fromTask task) with
  -- a version that is new to the catalog is left to the next download
  | none => s
  | some record =>
      match record.localPath with
      | none => requeueMissingCatalogFile taskReplies task s
      | some sourcePath =>
          if !taskReplies.sourceInspected then s.countFailed
          else if (s.files (components sourcePath)).isNone then
            requeueMissingCatalogFile taskReplies task s
          else catalog.copyFor replies taskReplies record task sourcePath s

def runTasks : List DownloadTask → (index : Nat) → CatalogRun → CatalogRun
  | [], _, s => s
  | task :: tasks, index, s =>
      runTasks tasks (index + 1) (catalog.runTask replies (replies.task index) task s)

/-! ## the whole reconciliation -/

/-- The planning, from the targets of the records on. -/
def planAll : Except CatalogStop Unit × CatalogPlan :=
  catalog.settleAll replies catalog.resolvedIds 0
    ⟨catalog.assets, catalog.records.map (·.target), .new, []⟩

def finish (plan : CatalogPlan) (s : CatalogRun) : Bool × CatalogRun :=
  let s := { s with stats := { s.stats with interrupted := replies.shutdown.isSome } }
  (catalog.batchComplete && catalog.selectionComplete && plan.targets.isEmpty &&
    !s.deferredToPendingRetry && s.stats.failed = 0 && s.stats.stateWriteFailures = 0 &&
    !s.stats.interrupted, s)

def unchanged (assets : CatalogTable) : CatalogRun := ⟨assets, catalog.files, .default, false, []⟩

/-- `reconcile_catalog_paths`: whether it is complete, with what the run leaves behind. -/
def reconcileCatalogPaths : Except CatalogStop Bool × CatalogRun :=
  if catalog.passes.isEmpty then
    (.ok false, catalog.unchanged catalog.assets)
  else if !replies.pagesRead then
    (.error .storeError, catalog.unchanged catalog.assets)
  else if catalog.records.isEmpty then
    (.ok true, catalog.unchanged catalog.assets)
  else if !replies.mapsRead then
    (.error .storeError, catalog.unchanged catalog.assets)
  else
    match catalog.planAll replies with
    | (.error stop, plan) => (.error stop, catalog.unchanged plan.assets)
    | (.ok _, plan) =>
        let (complete, s) := catalog.finish replies plan
          (catalog.runTasks replies plan.tasks 0 (catalog.unchanged plan.assets))
        (.ok complete, s)

end Catalog

end Kei.Download
