import Kei.Download.Filter

/-!
# Kei.Download.Planner

The plan of one asset: the content filter, then its download tasks, and the
malformed resource that explains why there is none.
-/

namespace Kei.Download

/-! ## the content filter -/

/-- A resource that the provider advertised and made unusable. -/
structure MalformedResource where
  versionSize : AssetVersionSize
  field : String
  reason : String
  deriving DecidableEq

/-- An asset with what only its plan reads. -/
structure PlannedAsset extends PhotoAsset where
  /-- Milliseconds of the date of creation. -/
  created : Int
  malformedResources : List MalformedResource

structure MediaSelection where
  photos : Bool
  videos : Bool
  livePhotos : Bool
  deriving DecidableEq

inductive CreatedDateFilter where
  /-- Milliseconds. -/
  | instant (boundary : Int)
  /-- Days. -/
  | captureDate (boundary : Int)
  deriving DecidableEq

namespace CreatedDateFilter

def excludesBefore (filter : CreatedDateFilter) (createdAt captureDate : Int) : Bool :=
  match filter with
  | .instant boundary => createdAt < boundary
  | .captureDate boundary => captureDate < boundary

def excludesAfter (filter : CreatedDateFilter) (createdAt captureDate : Int) : Bool :=
  match filter with
  | .instant boundary => createdAt > boundary
  | .captureDate boundary => captureDate > boundary

end CreatedDateFilter

/-- The day of a local time. -/
def DateTime.dateNaive (t : DateTime) : Int := (t.millis + 1000 * t.offset) / 86400000

/-- The configuration of a pass, with what only the content filter reads. -/
structure PassConfig extends DownloadConfig where
  excludeAssetIds : List String
  media : MediaSelection
  skipCreatedBefore : Option CreatedDateFilter
  skipCreatedAfter : Option CreatedDateFilter

inductive FilterReason where
  | malformedAsset
  | excludedAlbum
  | mediaType
  | livePhoto
  | dateRange
  | filename
  deriving DecidableEq

def isAssetFiltered (host : Host) (asset : PlannedAsset) (config : PassConfig) :
    Option FilterReason :=
  if !asset.hasValidId then
    some .malformedAsset
  else if config.excludeAssetIds.contains asset.assetRecordName ||
      config.excludeAssetIds.contains asset.recordName then
    some .excludedAlbum
  else if asset.isLivePhoto && !config.media.livePhotos then
    some .mediaType
  else if !config.media.videos && asset.itemType = some .movie then
    some .mediaType
  else if !config.media.photos && asset.itemType = some .image && !asset.isLivePhoto then
    some .mediaType
  else if config.livePhotoMode = .skip && asset.isLivePhoto then
    some .livePhoto
  else if config.skipCreatedBefore.any
      (fun before => before.excludesBefore asset.created asset.createdLocal.dateNaive) then
    some .dateRange
  else if config.skipCreatedAfter.any
      (fun after => after.excludesAfter asset.created asset.createdLocal.dateNaive) then
    some .dateRange
  else if asset.filename.any
      (fun filename => config.filenameExclude.any (fun p => host.globMatches p filename)) then
    some .filename
  else
    none

/-! ## malformed resources -/

structure MalformedTaskResource where
  field : String
  reason : String
  deriving DecidableEq

/-- The first resource that is malformed, key by key. -/
def malformedForKeys (asset : PlannedAsset) (keys : List AssetVersionSize) :
    Option MalformedTaskResource :=
  keys.findSome? (fun key =>
    (asset.malformedResources.find? (fun resource => resource.versionSize = key)).map
      (fun resource => ⟨resource.field, resource.reason⟩))

def primaryCandidateKeys (config : PassConfig) : List AssetVersionSize :=
  match config.resolution.toAssetVersionSize with
  | none => []
  | some requested =>
      requested :: if !config.forceResolution && requested ≠ .original then [.original] else []

def liveCandidateKeys (config : PassConfig) : List AssetVersionSize :=
  config.liveResolution ::
    if !config.forceResolution && config.liveResolution ≠ .liveOriginal then [.liveOriginal]
    else []

/-- Why an asset that passed the filter has no task, if a resource is to blame. -/
def malformedNoTaskResource (host : Host) (asset : PlannedAsset) (config : PassConfig) :
    Option MalformedTaskResource :=
  if !(deriveExpectedPaths host asset.toPhotoAsset config.toDownloadConfig).isEmpty then
    none
  else
    let primary :=
      if !(config.livePhotoMode = .skip || config.livePhotoMode = .videoOnly) ||
          !asset.isLivePhoto then
        malformedForKeys asset (primaryCandidateKeys config)
      else none
    let live :=
      if (config.livePhotoMode = .both || config.livePhotoMode = .videoOnly) &&
          asset.itemType = some .image then
        malformedForKeys asset (liveCandidateKeys config)
      else none
    primary.or live

/-! ## the plan -/

structure AssetTaskPlan where
  tasks : List DownloadTask
  filterReason : Option FilterReason
  malformedResource : Option MalformedTaskResource
  deriving DecidableEq

/-- The paths that are taken: claimed by the tasks so far, or listed. -/
structure TaskPlanner where
  claimedPaths : ClaimedPaths
  dirCache : DirCache

def TaskPlanner.new : TaskPlanner := ⟨fun _ => none, .new⟩

/-- The plan of an asset; `none` when the search for a free name ran out of `fuel`. -/
def TaskPlanner.planAsset (host : Host) (fuel : Nat) (planner : TaskPlanner)
    (asset : PlannedAsset) (config : PassConfig) : Option (AssetTaskPlan × TaskPlanner) :=
  match isAssetFiltered host asset config with
  | some reason => some (⟨[], some reason, none⟩, planner)
  | none => do
      let dir := components (localDownloadDir host config.directory config.folderStructure
        asset.createdLocal config.albumName)
      let (_, dirCache) := planner.dirCache.ensureDir host dir
      let (tasks, claimedPaths, dirCache) ←
        filterAssetToTasks host fuel asset.toPhotoAsset config.toDownloadConfig
          planner.claimedPaths dirCache
      let malformedResource :=
        if tasks.isEmpty then malformedNoTaskResource host asset config else none
      return (⟨tasks, none, malformedResource⟩, ⟨claimedPaths, dirCache⟩)

def samplePass : PassConfig where
  __ := sampleConfig
  excludeAssetIds := []
  media := ⟨true, true, true⟩
  skipCreatedBefore := none
  skipCreatedAfter := none

def samplePlanned (id : String) : PlannedAsset where
  __ := samplePhoto id
  created := 0
  malformedResources := []

end Kei.Download
