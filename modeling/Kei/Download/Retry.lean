import Kei.Download.Finalize
import Kei.Download.Planner
import Kei.Lib.Prog
import Mathlib.Data.List.Dedup

/-!
# Kei.Download.Retry

Download tasks for the versions that earlier runs left pending.

The provider is asked again about each of them.  An asset that is still there
is planned under every pass: a file on the disk may be adopted, a task is
queued, and a target for which there is no task leaves the queue for good.
`RetryState.log` is what became of the targets, and `RetryState.asked` what the
planner was asked for on the way, in order.
-/

namespace Kei.Download

open Str

/-! ## targets -/

structure PendingRetryTarget where
  library : String
  assetId : String
  versionSize : VersionSizeKey
  deriving DecidableEq

def PendingRetryTarget.fromTask (task : DownloadTask) : PendingRetryTarget :=
  ⟨task.library, task.assetId, task.versionSize⟩

/-- What planning reads of a row of `get_pending`. -/
structure AssetRecord where
  library : String
  id : String
  versionSize : VersionSizeKey
  checksum : String
  filename : String
  localPath : Option Path
  localChecksum : Option String
  downloadChecksum : Option String
  downloadedAt : Option Int
  sizeBytes : Nat
  lastError : Option String

def PendingRetryTarget.fromRecord (record : AssetRecord) : PendingRetryTarget :=
  ⟨record.library, record.id, record.versionSize⟩

structure RecordedLocalFile where
  path : Path
  localChecksum : Option String
  downloadChecksum : Option String

structure PendingRetryEvidence where
  checksum : String
  filename : String
  localFile : Option RecordedLocalFile
  downloadedAt : Option Int
  sizeBytes : Nat
  lastError : Option String

inductive PendingRetryLocalPath where
  | unrecorded
  | current (file : RecordedLocalFile)
  | historical

/-- What is found where a truncated file is to be repaired. -/
inductive FileInspection where
  | missing
  | unreadable
  | file (fingerprint : ExistingFileFingerprint)

/-- `Path::starts_with`. -/
def pathStartsWith (path directory : Path) : Bool :=
  (components directory).isPrefixOf (components path)

namespace PendingRetryEvidence

def fromRecord (record : AssetRecord) : PendingRetryEvidence where
  checksum := record.checksum
  filename := record.filename
  localFile := record.localPath.map (fun path =>
    ⟨path, record.localChecksum, record.downloadChecksum⟩)
  downloadedAt := record.downloadedAt
  sizeBytes := record.sizeBytes
  lastError := record.lastError

/-- The metadata of the file was rewritten after the download. -/
def metadataChangedDownload (file : RecordedLocalFile) : Bool :=
  match file.localChecksum, file.downloadChecksum with
  | some localChecksum, some download => localChecksum ≠ download
  | _, _ => false

/-- The fingerprint of a truncated file that is to be replaced; the outer `none` is the error of
a file that cannot be read. -/
def truncatedRepairFingerprint (evidence : PendingRetryEvidence) (enabled : Bool)
    (inspect : Path → FileInspection) : Option (Option ExistingFileFingerprint) :=
  if !enabled || evidence.lastError ≠ some fileTruncatedReason || evidence.downloadedAt.isNone then
    some none
  else
    match evidence.localFile with
    | none => some none
    | some localFile =>
        match inspect localFile.path with
        | .missing => some none
        | .unreadable => none
        | .file fingerprint =>
            if evidence.sizeBytes = 0 || evidence.sizeBytes ≤ fingerprint.size then
              some none
            else if metadataChangedDownload localFile &&
                localFile.localChecksum = some fingerprint.sha256 then
              some none
            else
              some (some fingerprint)

def matchesProviderVersion (evidence : PendingRetryEvidence) (task : DownloadTask) : Bool :=
  evidence.checksum = task.checksum && evidence.sizeBytes = task.size

def localPathUnder (evidence : PendingRetryEvidence) (directory : Path) : Option Path :=
  (evidence.localFile.map (·.path)).filter (fun path => pathStartsWith path directory)

def localPathEvidenceUnder (evidence : PendingRetryEvidence) (directory : Path) :
    PendingRetryLocalPath :=
  match evidence.localFile.filter (fun file => pathStartsWith file.path directory) with
  | none => .unrecorded
  | some file => if evidence.downloadedAt.isSome then .current file else .historical

end PendingRetryEvidence

/-! ## reserving paths -/

namespace TaskPlanner

/-- Give back the path that the plan reserved for the task. -/
def release (host : Host) (planner : TaskPlanner) (planned : Path) (expectedSize : Nat) :
    TaskPlanner :=
  if planner.claimedPaths (normalize host planned) = some expectedSize then
    { planner with
      claimedPaths := Function.update planner.claimedPaths (normalize host planned) none }
  else
    planner

def claim (host : Host) (planner : TaskPlanner) (path : Path) (expectedSize : Nat) :
    TaskPlanner :=
  { planner with
    claimedPaths :=
      Function.update planner.claimedPaths (normalize host path) (some expectedSize) }

def preparePathParent (host : Host) (planner : TaskPlanner) (path : Path) : TaskPlanner :=
  match parent path with
  | some dir => { planner with dirCache := (planner.dirCache.ensureDir host dir).2 }
  | none => planner

def claimRecordedRepairPath (host : Host) (planner : TaskPlanner) (recorded planned : Path)
    (expectedSize : Nat) : Bool × TaskPlanner :=
  let planner := planner.release host planned expectedSize
  if (planner.claimedPaths (normalize host recorded)).isSome then
    (false, planner)
  else
    (true, (planner.preparePathParent host recorded).claim host recorded expectedSize)

/-- A sibling that was not tried before, is not on the disk and not claimed. -/
def availableRecordedRetrySibling (host : Host) (planner : TaskPlanner) (dir : List String)
    (filename : String) (tried : List String) : Option Path × TaskPlanner × List String :=
  let path := join (dir.foldl join "") filename
  let normalized := normalize host path
  if normalized ∈ tried then
    (none, planner, tried)
  else
    let (found, dirCache) := planner.dirCache.pathExists host path
    let planner := { planner with dirCache := dirCache }
    if !found && (planner.claimedPaths normalized).isNone then
      (some path, planner, tried ++ [normalized])
    else
      (none, planner, tried ++ [normalized])

/-- The siblings with an ordinal; `left` of them remain before the counter overflows. -/
def ordinalRetrySibling (host : Host) (dir : List String) (filename assetId : String) :
    (left : Nat) → (ordinal : Nat) → TaskPlanner → List String → Option Path × TaskPlanner
  | 0, _, planner, _ => (none, planner)
  | left + 1, ordinal, planner, tried =>
      match planner.availableRecordedRetrySibling host dir
        (insertAssetIdentityOrdinalSuffix filename assetId ordinal) tried with
      | (some path, planner, _) => (some path, planner)
      | (none, planner, tried) =>
          ordinalRetrySibling host dir filename assetId left (ordinal + 1) planner tried

def firstRetrySibling (host : Host) (planner : TaskPlanner) (dir : List String)
    (filename assetId preferred : String) : Option Path × TaskPlanner :=
  match planner.availableRecordedRetrySibling host dir preferred [] with
  | (some path, planner, _) => (some path, planner)
  | (none, planner, tried) =>
      match planner.availableRecordedRetrySibling host dir
        (insertAssetIdentitySuffix filename assetId) tried with
      | (some path, planner, _) => (some path, planner)
      | (none, planner, tried) =>
          ordinalRetrySibling host dir filename assetId (2 ^ 64 - 2) 2 planner tried

def resolveRecordedRetryPath (host : Host) (planner : TaskPlanner) (recorded planned : Path)
    (expectedSize : Nat) (assetId : String) : Option Path × TaskPlanner :=
  let planner := planner.release host planned expectedSize
  match parent recorded, fileName recorded with
  | some dir, some filename =>
      let (existingSize, dirCache) := planner.dirCache.fileSize host recorded
      let planner := { planner with dirCache := dirCache }
      if existingSize.isNone && (planner.claimedPaths (normalize host recorded)).isNone then
        (some recorded, planner.claim host recorded expectedSize)
      else
        let preferred :=
          if existingSize = some expectedSize then insertAssetIdentitySuffix filename assetId
          else addDedupSuffix filename expectedSize
        match planner.firstRetrySibling host dir filename assetId preferred with
        | (some path, planner) => (some path, planner.claim host path expectedSize)
        | (none, planner) => (none, planner)
  | _, _ => (none, planner)

end TaskPlanner

/-! ## adoption of files on the disk -/

inductive PendingRetryAdoption where
  | notFound
  | adopted
  | stateWriteFailed
  deriving DecidableEq

def pendingFilenameMatchesDerived (pendingFilename derivedFilename : String) : Bool :=
  pendingFilename = derivedFilename ||
    normalizeAmpm pendingFilename = normalizeAmpm derivedFilename ||
    eqIgnoreAsciiCase pendingFilename derivedFilename

/-- Where a file is looked for, in order. -/
def adoptionPaths (host : Host) (asset : PlannedAsset) (config : PassConfig)
    (plannedTasks : List DownloadTask) (versionSize : VersionSizeKey)
    (evidence : PendingRetryEvidence) : List Path :=
  let planned := plannedTasks.filter (fun task =>
    task.versionSize = versionSize && task.checksum = evidence.checksum &&
      task.size = evidence.sizeBytes)
  let derived := (deriveExpectedPaths host asset.toPhotoAsset config.toDownloadConfig).filter
    (fun d => d.versionSize = versionSize && d.checksum = evidence.checksum &&
      d.size = evidence.sizeBytes && pendingFilenameMatchesDerived evidence.filename d.filename)
  match evidence.localPathEvidenceUnder config.directory with
  | .historical => []
  | .unrecorded => planned.map (·.downloadPath) ++ derived.map (·.path)
  | .current file =>
      if (fileName file.path).any (pendingFilenameMatchesDerived evidence.filename) then
        planned.map (fun _ => file.path) ++ derived.map (fun _ => file.path)
      else []

/-- The first file that is adopted, or that the store does not take; `adopt` is what becomes of
the file at a path. -/
def adoptPendingOnDiskForRetry (adopt : Nat → Path → PendingRetryAdoption) (paths : List Path) :
    PendingRetryAdoption :=
  ((paths.zipIdx.map (fun entry => adopt entry.2 entry.1)).find? (fun a => a ≠ .notFound)).getD
    .notFound

/-! ## the state of the queue -/

/-- What became of a target. -/
inductive RetryEvent where
  /-- A pass planned a task for it. -/
  | planned (target : PendingRetryTarget)
  | adopted (target : PendingRetryTarget)
  /-- Its task was left out after a failed adoption. -/
  | dropped (target : PendingRetryTarget)
  /-- Its task has no path. -/
  | withheld (target : PendingRetryTarget)
  | queued (target : PendingRetryTarget)
  | excluded (target : PendingRetryTarget)
  deriving DecidableEq

/-- What a planner is asked for: the path of a task that is recorded with a file. -/
structure Placement where
  planner : TaskPlanner
  task : DownloadTask
  localPath : Path
  /-- The file that the task replaces. -/
  repair : Option ExistingFileFingerprint

structure RetryState where
  pendingTargets : List PendingRetryTarget
  taskPlanner : TaskPlanner
  tasks : List PublishedTask
  log : List RetryEvent
  asked : List Placement

/-- With the sets that planning one asset collects. -/
structure PlanningState extends RetryState where
  malformedTargets : List PendingRetryTarget
  stateWriteFailedTargets : List PendingRetryTarget

/-- Why a run ends early. -/
inductive RetryStop where
  | storeError
  | unreadableFile
  /-- The search for a free name ran out of fuel. -/
  | outOfFuel

abbrev RetryM := Prog PlanningState RetryStop

def note (events : List RetryEvent) : RetryM Unit :=
  Prog.modify (fun s => { s with log := s.log ++ events })

/-- A store operation that fails or not. -/
def storeCall (succeeds : Bool) : RetryM Unit :=
  if succeeds then pure () else Prog.halt .storeError

/-- What the disk and the store answer while an asset is planned. -/
structure RetryReplies where
  adopt : (passIndex : Nat) → PendingRetryTarget → Nat → Path → PendingRetryAdoption
  inspect : (passIndex : Nat) → Path → FileInspection
  clearAssetVerification : (passIndex : Nat) → PendingRetryTarget → Bool
  /-- Whether the row went to policy_excluded; `none` is an error. -/
  markPolicyExcluded : PendingRetryTarget → Option Bool
  setAssetVerification : PendingRetryTarget → Bool

/-- A pass with whether it may replace truncated files. -/
structure RetryPassConfig extends PassConfig where
  repairTruncated : Bool

/-- An asset that the provider still has. -/
structure RetryJob where
  asset : PlannedAsset
  stateId : String
  replies : RetryReplies

/-! ## planning a resolved asset -/

section

variable (host : Host) (fuel : Nat)
  (evidence : PendingRetryTarget → Option PendingRetryEvidence)

def adoptTarget (job : RetryJob) (passIndex : Nat) (config : RetryPassConfig)
    (plannedTasks : List DownloadTask) (target : PendingRetryTarget) : RetryM Unit :=
  match evidence target with
  | none => pure ()
  | some found =>
      let paths := adoptionPaths host job.asset config.toPassConfig plannedTasks
        target.versionSize found
      match adoptPendingOnDiskForRetry (job.replies.adopt passIndex target) paths with
      | .notFound => pure ()
      | .adopted => do
          Prog.modify (fun s => { s with
            pendingTargets := s.pendingTargets.filter (fun t => t ≠ target) })
          note [.adopted target]
          storeCall (job.replies.clearAssetVerification passIndex target)
      | .stateWriteFailed =>
          Prog.modify (fun s => { s with
            stateWriteFailedTargets := s.stateWriteFailedTargets ++ [target] })

def adoptTargets (job : RetryJob) (passIndex : Nat) (config : RetryPassConfig)
    (plannedTasks : List DownloadTask) : List PendingRetryTarget → RetryM Unit
  | [] => pure ()
  | target :: targets => do
      adoptTarget host evidence job passIndex config plannedTasks target
      adoptTargets job passIndex config plannedTasks targets

/-- Reserve the path of the recorded truncated file, or a sibling of the recorded path. -/
def reserveRetryPath (task : DownloadTask) (localPath : Path)
    (repair : Option ExistingFileFingerprint) (planner : TaskPlanner) :
    Option PublishedTask × TaskPlanner :=
  match repair with
  | some fingerprint =>
      match planner.claimRecordedRepairPath host localPath task.downloadPath task.size with
      | (false, planner) => (none, planner)
      | (true, planner) =>
          (some ⟨{ task with downloadPath := localPath }, .replaceTruncated fingerprint⟩, planner)
  | none =>
      match planner.resolveRecordedRetryPath host localPath task.downloadPath task.size
        task.assetId with
      | (none, planner) => (none, planner)
      | (some retryPath, planner) =>
          (some ⟨{ task with downloadPath := retryPath }, .noReplace⟩, planner)

/-- The file that the task replaces; the outer `none` is an error. -/
def repairOf (inspect : Path → FileInspection) (config : RetryPassConfig) (task : DownloadTask)
    (found : PendingRetryEvidence) : Option (Option ExistingFileFingerprint) :=
  if found.matchesProviderVersion task then
    found.truncatedRepairFingerprint config.repairTruncated inspect
  else
    some none

/-- The task with the path it is retried at; `none` when it is withheld. -/
def placeRetryTask (inspect : Path → FileInspection) (config : RetryPassConfig)
    (task : DownloadTask) : RetryM (Option PublishedTask) :=
  match evidence (.fromTask task) with
  | none => pure (some ⟨task, .noReplace⟩)
  | some found =>
      match found.localPathUnder config.directory with
      | none => pure (some ⟨task, .noReplace⟩)
      | some localPath =>
          match repairOf inspect config task found with
          | none => Prog.halt .unreadableFile
          | some repair => fun s =>
              let placed := reserveRetryPath host task localPath repair s.taskPlanner
              (.ok placed.1, { s with
                taskPlanner := placed.2
                asked := s.asked ++ [⟨s.taskPlanner, task, localPath, repair⟩] })

def retryTasks (inspect : Path → FileInspection) (config : RetryPassConfig) :
    List DownloadTask → RetryM (List PublishedTask)
  | [] => pure []
  | task :: tasks => do
      let target := PendingRetryTarget.fromTask task
      if (← Prog.read (fun s => s.stateWriteFailedTargets.contains target)) then
        note [.dropped target]
        retryTasks inspect config tasks
      else
        match ← placeRetryTask host evidence inspect config task with
        | none => do
            note [.withheld target]
            retryTasks inspect config tasks
        | some task => do
            let rest ← retryTasks inspect config tasks
            return task :: rest

/-- Queue the tasks whose targets are pending. -/
def takeMatchingPendingRetryTasks : List PublishedTask → PlanningState → PlanningState
  | [], s => s
  | task :: tasks, s =>
      let target := PendingRetryTarget.fromTask task.toDownloadTask
      if s.pendingTargets.contains target then
        let s := { s with
          pendingTargets := s.pendingTargets.filter (fun t => t ≠ target)
          tasks := s.tasks ++ [task]
          log := s.log ++ [.queued target] }
        if s.pendingTargets.isEmpty then s else takeMatchingPendingRetryTasks tasks s
      else
        takeMatchingPendingRetryTasks tasks s

/-- Make a store call for the target if it is pending, or if it is not. -/
def storeCallIf (pending : Bool) (target : PendingRetryTarget) (succeeds : Bool) :
    RetryM Unit := do
  if (← Prog.read (fun s => s.pendingTargets.contains target)) = pending then
    storeCall succeeds

/-- Clear the verification of the targets that were queued. -/
def clearQueued (job : RetryJob) (passIndex : Nat) : List PendingRetryTarget → RetryM Unit
  | [] => pure ()
  | target :: targets => do
      storeCallIf false target (job.replies.clearAssetVerification passIndex target)
      clearQueued job passIndex targets

def pendingOf (stateId : String) (s : RetryState) : List PendingRetryTarget :=
  s.pendingTargets.filter (fun target => target.assetId = stateId)

/-- Plan the asset under a pass. -/
def planPass (job : RetryJob) (config : RetryPassConfig) : RetryM AssetTaskPlan := fun s =>
  match s.taskPlanner.planAsset host fuel job.asset config.toPassConfig with
  | none => (.error .outOfFuel, s)
  | some (plan, planner) =>
      (.ok plan, { s with
        taskPlanner := planner
        log := s.log ++ plan.tasks.map (fun task => .planned (.fromTask task)) })

def noteMalformed (job : RetryJob) (plan : AssetTaskPlan) : RetryM Unit :=
  if plan.malformedResource.isSome then
    Prog.modify (fun s => { s with
      malformedTargets := s.malformedTargets ++ pendingOf job.stateId s.toRetryState })
  else
    pure ()

/-- The tasks of a plan. -/
def takePlan (job : RetryJob) (passIndex : Nat) (config : RetryPassConfig)
    (plan : AssetTaskPlan) : RetryM Unit := do
  noteMalformed job plan
  let placed ← retryTasks host evidence (job.replies.inspect passIndex) config plan.tasks
  let targets := placed.map (fun task => PendingRetryTarget.fromTask task.toDownloadTask)
  let queuedTargets ← Prog.read (fun s =>
    targets.filter (fun target => s.pendingTargets.contains target))
  Prog.modify (takeMatchingPendingRetryTasks placed)
  clearQueued job passIndex queuedTargets

def runPass (job : RetryJob) (passIndex : Nat) (config : RetryPassConfig) : RetryM Unit := do
  let plan ← planPass host fuel job config
  let targets ← Prog.read (fun s => pendingOf job.stateId s.toRetryState)
  adoptTargets host evidence job passIndex config plan.tasks targets
  if plan.filterReason.isNone then
    takePlan host evidence job passIndex config plan

def runPasses (job : RetryJob) : List (RetryPassConfig × Nat) → RetryM Unit
  | [] => pure ()
  | (config, passIndex) :: passes => do
      runPass host fuel evidence job passIndex config
      runPasses job passes

/-- The pending targets of the asset that no set keeps. -/
def deferredTargets (stateId : String) (s : PlanningState) : List PendingRetryTarget :=
  (pendingOf stateId s.toRetryState).filter (fun target =>
    !s.malformedTargets.contains target && !s.stateWriteFailedTargets.contains target)

def RetryState.exclude (s : RetryState) (target : PendingRetryTarget) : RetryState :=
  { s with
    pendingTargets := s.pendingTargets.filter (fun t => t ≠ target)
    log := s.log ++ [.excluded target] }

def excludeTargets (job : RetryJob) : List PendingRetryTarget → RetryM Unit
  | [] => pure ()
  | target :: targets =>
      match job.replies.markPolicyExcluded target with
      | none => Prog.halt .storeError
      | some true => do
          Prog.modify (fun s => { s with toRetryState := s.toRetryState.exclude target })
          excludeTargets job targets
      | some false => excludeTargets job targets

/-- Record for the targets that are still pending why they are. -/
def setVerifications (job : RetryJob) : List PendingRetryTarget → RetryM Unit
  | [] => pure ()
  | target :: targets => do
      storeCallIf true target (job.replies.setAssetVerification target)
      setVerifications job targets

def settleAsset (job : RetryJob) : RetryM Unit := do
  let deferred ← Prog.read (deferredTargets job.stateId)
  excludeTargets job deferred
  let stateWriteFailed ← Prog.read (·.stateWriteFailedTargets)
  setVerifications job stateWriteFailed
  let malformed ← Prog.read (·.malformedTargets)
  setVerifications job malformed

def planAssetForRetry (passConfigs : List RetryPassConfig) (job : RetryJob) : RetryM Unit := do
  runPasses host fuel evidence job passConfigs.zipIdx
  settleAsset job

/-- `plan_resolved_asset`. -/
def planResolvedAsset (passConfigs : List RetryPassConfig) (job : RetryJob) (s : RetryState) :
    Except RetryStop Unit × RetryState :=
  let (result, s) := planAssetForRetry host fuel evidence passConfigs job ⟨s, [], []⟩
  (result, s.toRetryState)

end

/-! ## the asset of a legacy master -/

inductive LegacyCandidateSelection where
  | selected (asset : PlannedAsset)
  | missing
  | evidenceMismatch (candidates : Nat)
  | ambiguous (candidates : Nat)

def candidateMatchesDurableEvidence (asset : PlannedAsset) (target : PendingRetryTarget)
    (evidence : PendingRetryEvidence) : Bool :=
  asset.versions.any (fun version =>
    VersionSizeKey.from version.1 = target.versionSize &&
      version.2.size = evidence.sizeBytes && version.2.checksum = evidence.checksum)

def selectLegacyCandidate (candidates : List PlannedAsset) (targets : List PendingRetryTarget)
    (evidence : PendingRetryTarget → Option PendingRetryEvidence)
    (ownerAssetRecordName : Option String) : LegacyCandidateSelection :=
  let candidates := candidates.filter (fun asset =>
    ownerAssetRecordName.all (fun owner => asset.assetRecordName = owner))
  if candidates.isEmpty then
    .missing
  else
    match candidates.filter (fun asset => targets.any (fun target =>
        (evidence target).any (candidateMatchesDurableEvidence asset target))) with
    | [] => .evidenceMismatch candidates.length
    | [asset] => .selected asset
    | candidates => .ambiguous candidates.length

/-! ## the whole plan -/

inductive RecordResolution where
  | present (asset : PlannedAsset)
  | masterPresent
  | deleted
  | assetPresent
  | unknown
  | transientFailure

/-- A provider result, with what is found when it is its turn. -/
structure ResolvedRecord where
  stateId : String
  resolution : RecordResolution
  cancelled : Bool
  /-- The store takes the verification or the deletion. -/
  recorded : Bool
  replies : RetryReplies

structure LegacyReplies where
  cancelled : Bool
  /-- What the claim of the legacy master said; `none` is an error. -/
  claimed : Option Bool
  recorded : Bool
  replies : RetryReplies

/-- What a plan of the pending work is made from. -/
structure PendingRetryInput where
  host : Host
  fuel : Nat
  library : String
  /-- `get_pending`. -/
  pending : List AssetRecord
  /-- The store calls before the lookup succeed. -/
  prepared : Bool
  passConfigs : List RetryPassConfig
  resolutions : List ResolvedRecord
  hydrationCancelled : Bool
  /-- The assets of the legacy masters; `none` is a failure. -/
  hydrated : Option (List PlannedAsset)
  /-- The failure of the hydration is recorded. -/
  hydrationRecorded : Bool
  /-- The order in which a set of names is gone through. -/
  hashOrder : List String → List String
  hashOrder_perm : ∀ names, (hashOrder names).Perm names
  legacyMasterStateOwners : String → Option String
  legacy : String → LegacyReplies
  /-- The last `get_pending`; `none` is an error. -/
  stillPending : Option (PendingRetryTarget → Bool)

structure PendingRetryPlan where
  tasks : List PublishedTask
  passConfigs : List RetryPassConfig
  unmatchedTargets : List PendingRetryTarget
  requested : Nat

/-- The state of a plan with the assets that were planned so far. -/
structure PlanRun extends RetryState where
  jobs : List RetryJob

abbrev PlanM := Prog PlanRun RetryStop

namespace PendingRetryInput

variable (input : PendingRetryInput)

def records : List AssetRecord :=
  input.pending.filter (fun record => record.library = input.library)

def pendingTargets : List PendingRetryTarget := (input.records.map .fromRecord).dedup

/-- The evidence of a target, from its last record. -/
def evidence (target : PendingRetryTarget) : Option PendingRetryEvidence :=
  (input.records.reverse.find? (fun record => .fromRecord record = target)).map .fromRecord

def planJob (job : RetryJob) : PlanM Unit := fun run =>
  let (result, s) := planResolvedAsset input.host input.fuel input.evidence input.passConfigs job
    run.toRetryState
  (result, ⟨s, run.jobs ++ [job]⟩)

def recordOutcome (succeeds : Bool) : PlanM Unit :=
  if succeeds then pure () else Prog.halt .storeError

/-- The results of the lookup; the names of the masters without an asset are returned. -/
def planResolutions : List ResolvedRecord → List String → PlanM (List String)
  | [], legacy => pure legacy
  | record :: records, legacy => do
      if (← Prog.read (fun run => run.pendingTargets.isEmpty)) || record.cancelled then
        return legacy
      else
        match record.resolution with
        | .present asset => do
            input.planJob ⟨asset, record.stateId, record.replies⟩
            planResolutions records legacy
        | .masterPresent => planResolutions records (legacy.insert record.stateId)
        | .deleted | .assetPresent | .unknown | .transientFailure => do
            recordOutcome record.recorded
            planResolutions records legacy

def planLegacyMaster (hydrated : List PlannedAsset) (stateId : String) : PlanM Unit := do
  let targets ← Prog.read (fun run => pendingOf stateId run.toRetryState)
  let owner := input.legacyMasterStateOwners stateId
  match selectLegacyCandidate (hydrated.filter (fun asset => asset.recordName = stateId)) targets
    input.evidence owner with
  | .selected asset =>
      match if owner.isSome then some true else (input.legacy stateId).claimed with
      | none => Prog.halt .storeError
      | some false => recordOutcome (input.legacy stateId).recorded
      | some true => do
          recordOutcome (input.legacy stateId).recorded
          input.planJob ⟨{ asset with stateRecordName := some stateId }, stateId,
            (input.legacy stateId).replies⟩
  | .missing | .evidenceMismatch _ | .ambiguous _ => recordOutcome (input.legacy stateId).recorded

def planLegacyMasters (hydrated : List PlannedAsset) : List String → PlanM Unit
  | [] => pure ()
  | stateId :: stateIds => do
      if (input.legacy stateId).cancelled then
        pure ()
      else do
        input.planLegacyMaster hydrated stateId
        planLegacyMasters hydrated stateIds

def planLegacy (legacy : List String) : PlanM Unit :=
  if legacy.isEmpty || input.hydrationCancelled then
    pure ()
  else
    match input.hydrated with
    | some hydrated => input.planLegacyMasters hydrated (input.hashOrder legacy)
    | none => recordOutcome input.hydrationRecorded

/-- The targets that stay, once the store was read again. -/
def finishPlan : PlanM PendingRetryPlan := fun run =>
  match input.stillPending with
  | none => (.error .storeError, run)
  | some stillPending =>
      let unmatched := run.pendingTargets.filter stillPending
      (.ok ⟨run.tasks, input.passConfigs, unmatched, input.pendingTargets.length⟩,
        { run with pendingTargets := unmatched })

def planPending : PlanM PendingRetryPlan := do
  let legacy ← input.planResolutions
    (if input.passConfigs.isEmpty then [] else input.resolutions) []
  input.planLegacy legacy
  input.finishPlan

def initial : PlanRun := ⟨⟨input.pendingTargets, .new, [], [], []⟩, []⟩

/-- `build_pending_retry_download_tasks`, with the state that it ends in. -/
def build : Except RetryStop PendingRetryPlan × PlanRun :=
  if input.pendingTargets.isEmpty then
    (.ok ⟨[], [], [], 0⟩, input.initial)
  else if input.prepared then
    input.planPending input.initial
  else
    (.error .storeError, input.initial)

end PendingRetryInput

end Kei.Download
