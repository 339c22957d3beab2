import Kei.Download.Paths

/-!
# Kei.Download.Filter

From an asset to its download tasks: which versions are wanted, under which
names, and where each of them goes when its path is taken.

`deriveExpectedPaths` names the files of an asset without looking at the disk;
`filterAssetToTasks` plans the downloads.  The search for a free name has no
bound in the source, so it takes the number of names to try, and a result of
`none` means that none of them was free.
-/

namespace Kei.Download

open Str

/-! ## assets and configuration -/

inductive AssetItemType where
  | image
  | movie
  deriving DecidableEq

inductive AssetVersionSize where
  | original
  | alternative
  | medium
  | thumb
  | adjusted
  | liveOriginal
  | liveMedium
  | liveThumb
  | liveAdjusted
  deriving DecidableEq

/-- A version of the movie of a live photo. -/
def AssetVersionSize.isLive : AssetVersionSize → Bool
  | .liveOriginal | .liveMedium | .liveThumb | .liveAdjusted => true
  | _ => false

theorem isLive_liveOriginal : AssetVersionSize.liveOriginal.isLive = true := rfl

structure AssetVersion where
  size : Nat
  url : String
  assetType : String
  checksum : String
  deriving DecidableEq

abbrev VersionsMap := List (AssetVersionSize × AssetVersion)

structure PhotoAsset where
  recordName : String
  assetRecordName : String
  stateRecordName : Option String
  sourceZone : Option String
  filename : Option String
  itemType : Option AssetItemType
  versions : VersionsMap
  createdLocal : DateTime

namespace PhotoAsset

def hasValidId (asset : PhotoAsset) : Bool := asset.recordName ≠ ""

def stateId (asset : PhotoAsset) : String := asset.stateRecordName.getD asset.recordName

def containsVersion (asset : PhotoAsset) (key : AssetVersionSize) : Bool :=
  asset.versions.any (fun v => v.1 = key)

def isLivePhoto (asset : PhotoAsset) : Bool :=
  asset.itemType = some .image &&
    (asset.containsVersion .liveOriginal || asset.containsVersion .liveMedium ||
      asset.containsVersion .liveThumb || asset.containsVersion .liveAdjusted)

end PhotoAsset

inductive PhotoResolution where
  | none
  | original
  | medium
  | thumb
  deriving DecidableEq

def PhotoResolution.toAssetVersionSize : PhotoResolution → Option AssetVersionSize
  | .none => Option.none
  | .original => some .original
  | .medium => some .medium
  | .thumb => some .thumb

inductive LivePhotoMode where
  | both
  | imageOnly
  | videoOnly
  | skip
  deriving DecidableEq

inductive LivePhotoMovFilenamePolicy where
  | suffix
  | original
  deriving DecidableEq

inductive RawPolicy where
  | asIs
  | preferRaw
  | preferJpeg
  deriving DecidableEq

inductive FileMatchPolicy where
  | nameSizeDedupWithSuffix
  | nameId7
  deriving DecidableEq

/-- What path derivation and the filter read of the download configuration. -/
structure DownloadConfig where
  directory : Path
  folderStructure : String
  resolution : PhotoResolution
  livePhotoMode : LivePhotoMode
  liveResolution : AssetVersionSize
  /-- It is made from a live photo resolution. -/
  liveResolution_isLive : liveResolution.isLive = true
  livePhotoMovFilenamePolicy : LivePhotoMovFilenamePolicy
  edited : Bool
  alternative : Bool
  rawPolicy : RawPolicy
  fileMatchPolicy : FileMatchPolicy
  forceResolution : Bool
  keepUnicodeInFilenames : Bool
  filenameExclude : List String
  albumName : Option String
  library : String

/-- The version as the state database names it. -/
inductive VersionSizeKey where
  | original
  | medium
  | thumb
  | adjusted
  | alternative
  | liveOriginal
  | liveMedium
  | liveThumb
  | liveAdjusted
  deriving DecidableEq

def VersionSizeKey.from : AssetVersionSize → VersionSizeKey
  | .original => .original
  | .medium => .medium
  | .thumb => .thumb
  | .adjusted => .adjusted
  | .alternative => .alternative
  | .liveOriginal => .liveOriginal
  | .liveMedium => .liveMedium
  | .liveThumb => .liveThumb
  | .liveAdjusted => .liveAdjusted

inductive MediaType where
  | photo
  | video
  | livePhotoImage
  | livePhotoVideo
  deriving DecidableEq

def determineMediaType (versionSize : VersionSizeKey) (asset : PhotoAsset) : MediaType :=
  match versionSize with
  | .liveOriginal | .liveMedium | .liveThumb | .liveAdjusted =>
      if asset.itemType = some .image then .livePhotoVideo else .video
  | _ =>
      if asset.itemType = some .movie then .video
      else if asset.isLivePhoto then .livePhotoImage
      else .photo

/-! ## the versions of an asset -/

/-- The versions, with the labels at two places exchanged if `swap` says so. -/
structure VersionsView where
  versions : VersionsMap
  swap : Option (Nat × Nat)

def VersionsView.iter (view : VersionsView) : VersionsMap :=
  view.versions.zipIdx.map (fun entry =>
    let key : AssetVersionSize :=
      match view.swap with
      | some (orig, alt) =>
          if entry.2 = orig then .alternative
          else if entry.2 = alt then .original
          else entry.1.1
      | none => entry.1.1
    (key, entry.1.2))

def VersionsView.get (view : VersionsView) (key : AssetVersionSize) : Option AssetVersion :=
  (view.iter.find? (fun v => v.1 = key)).map (·.2)

/-- The last place of a label. -/
def lastIndexOf (versions : VersionsMap) (key : AssetVersionSize) : Option Nat :=
  versions.zipIdx.foldl (fun last entry => if entry.1.1 = key then some entry.2 else last) none

def isRawAt (versions : VersionsMap) (index : Nat) : Bool :=
  versions[index]?.any (fun v => contains v.2.assetType "raw")

def applyRawPolicy (versions : VersionsMap) (policy : RawPolicy) : VersionsView :=
  if policy = .asIs then
    ⟨versions, none⟩
  else
    match lastIndexOf versions .alternative with
    | none => ⟨versions, none⟩
    | some altIdx =>
        let origIdx := lastIndexOf versions .original
        let shouldSwap :=
          match policy with
          | .preferRaw => isRawAt versions altIdx
          | .preferJpeg => origIdx.any (isRawAt versions)
          | .asIs => false
        match shouldSwap, origIdx with
        | true, some origIdx => ⟨versions, some (origIdx, altIdx)⟩
        | _, _ => ⟨versions, none⟩

/-! ## file names -/

def firstVersionAssetType (asset : PhotoAsset) : String :=
  (asset.versions.head?.map (·.2.assetType)).getD ""

def rawFilename (host : Host) (asset : PhotoAsset) : String :=
  asset.filename.getD
    (generateFingerprintFilename host asset.recordName (firstVersionAssetType asset))

def filenameStemIsEmpty (filename : String) : Bool :=
  let cleaned := cleanFilename filename
  ((rsplitOnce '.' cleaned).map (·.1)).getD cleaned = ""

def replaceEmptyStemWithFingerprint (host : Host) (assetId assetType filename : String) :
    String :=
  if filenameStemIsEmpty filename then
    let fallback := generateFingerprintFilename host assetId assetType
    match rsplitOnce '.' fallback with
    | none => fallback
    | some (fallbackStem, _) =>
        match (rsplitOnce '.' filename).filter (fun parts => parts.2 ≠ "") with
        | none => fallback
        | some (_, ext) => fallbackStem ++ "." ++ ext
  else
    filename

def mappedVersionFilename (host : Host) (assetId baseFilename assetType : String) : String :=
  replaceEmptyStemWithFingerprint host assetId assetType
    (mapFilenameExtension baseFilename assetType)

structure DerivationContext where
  baseFilename : String
  createdLocal : DateTime
  versions : VersionsView

def DerivationContext.build (host : Host) (asset : PhotoAsset) (config : DownloadConfig) :
    DerivationContext where
  baseFilename :=
    if config.keepUnicodeInFilenames then
      rawFilename host asset
    else
      removeUnicodeChars (rawFilename host asset)
  createdLocal := asset.createdLocal
  versions := applyRawPolicy asset.versions config.rawPolicy

def usableAssetBaseFilename (host : Host) (asset : PhotoAsset) (ctx : DerivationContext) :
    String :=
  replaceEmptyStemWithFingerprint host asset.recordName (firstVersionAssetType asset)
    ctx.baseFilename

/-! ## which versions are wanted -/

def urlSeen (version : AssetVersion) (seenUrls : List String) : Bool :=
  seenUrls.any (fun seen => seen = version.url)

def versionWithFallback (getVersion : AssetVersionSize → Option AssetVersion)
    (requested fallback : AssetVersionSize) (forceResolution : Bool) :
    Option (AssetVersion × AssetVersionSize) :=
  match getVersion requested with
  | some v => some (v, requested)
  | none =>
      if requested ≠ fallback && !forceResolution then
        (getVersion fallback).map (fun v => (v, fallback))
      else
        none

def selectPrimary (asset : PhotoAsset) (config : DownloadConfig) (ctx : DerivationContext) :
    Option (AssetVersion × AssetVersionSize) :=
  if (config.livePhotoMode = .skip || config.livePhotoMode = .videoOnly) && asset.isLivePhoto then
    none
  else
    match config.resolution.toAssetVersionSize with
    | none => none
    | some requested =>
        versionWithFallback ctx.versions.get requested .original config.forceResolution

def selectMovCompanion (asset : PhotoAsset) (config : DownloadConfig) (ctx : DerivationContext)
    (seenUrls : List String) : Option (AssetVersion × AssetVersionSize) :=
  if (config.livePhotoMode = .both || config.livePhotoMode = .videoOnly) &&
      asset.itemType = some .image then
    (versionWithFallback ctx.versions.get config.liveResolution .liveOriginal
      config.forceResolution).filter (fun selected => !urlSeen selected.1 seenUrls)
  else
    none

/-! ## derived paths -/

structure DerivedPath where
  path : Path
  filename : String
  url : String
  checksum : String
  size : Nat
  versionSize : VersionSizeKey
  checkAmpmOnDisk : Bool
  deriving DecidableEq

/-- The path of a file name under the configuration. -/
def pathOf (host : Host) (config : DownloadConfig) (createdLocal : DateTime)
    (filename : String) : Path :=
  localDownloadPath host config.directory config.folderStructure createdLocal filename
    config.albumName

def derivePrimary (host : Host) (asset : PhotoAsset) (config : DownloadConfig)
    (ctx : DerivationContext) : Option DerivedPath :=
  (selectPrimary asset config ctx).map (fun (version, effectiveSize) =>
    let mapped := mappedVersionFilename host asset.stateId ctx.baseFilename version.assetType
    let sized :=
      match effectiveSize with
      | .medium => insertSuffix mapped "medium"
      | .thumb => insertSuffix mapped "thumb"
      | _ => mapped
    let filename :=
      match config.fileMatchPolicy with
      | .nameId7 => applyNameId7 host sized asset.stateId
      | .nameSizeDedupWithSuffix => sized
    { path := pathOf host config ctx.createdLocal filename,
      filename := filename,
      url := version.url,
      checksum := version.checksum,
      size := version.size,
      versionSize := .from effectiveSize,
      checkAmpmOnDisk := true })

def deriveSuffixedExtra (host : Host) (asset : PhotoAsset) (config : DownloadConfig)
    (ctx : DerivationContext) (version : AssetVersion) (key : AssetVersionSize) (suffix : String)
    (checkAmpmOnDisk : Bool) : DerivedPath :=
  let mapped := mappedVersionFilename host asset.stateId ctx.baseFilename version.assetType
  let suffixed := insertLiteralSuffix mapped suffix
  let filename :=
    match config.fileMatchPolicy with
    | .nameId7 => applyNameId7 host suffixed asset.stateId
    | .nameSizeDedupWithSuffix => suffixed
  { path := pathOf host config ctx.createdLocal filename,
    filename := filename,
    url := version.url,
    checksum := version.checksum,
    size := version.size,
    versionSize := .from key,
    checkAmpmOnDisk := checkAmpmOnDisk }

/-- A further version of an asset, unless its URL was seen. -/
def deriveExtra (host : Host) (asset : PhotoAsset) (config : DownloadConfig)
    (ctx : DerivationContext) (seenUrls : List String) (wanted : Bool) (key : AssetVersionSize)
    (suffix : AssetVersion → String) (checkAmpmOnDisk : Bool) : Option DerivedPath :=
  if wanted then
    match ctx.versions.get key with
    | none => none
    | some version =>
        if urlSeen version seenUrls then
          none
        else
          some (deriveSuffixedExtra host asset config ctx version key (suffix version)
            checkAmpmOnDisk)
  else
    none

def deriveEditedExtra (host : Host) (asset : PhotoAsset) (config : DownloadConfig)
    (ctx : DerivationContext) (seenUrls : List String) : Option DerivedPath :=
  deriveExtra host asset config ctx seenUrls config.edited .adjusted (fun _ => "_edited") true

def deriveAlternativeExtra (host : Host) (asset : PhotoAsset) (config : DownloadConfig)
    (ctx : DerivationContext) (seenUrls : List String) : Option DerivedPath :=
  deriveExtra host asset config ctx seenUrls (config.alternative && !asset.isLivePhoto)
    .alternative (fun version => if contains version.assetType "raw" then "_RAW" else "_alt") true

def deriveLiveEditedExtra (host : Host) (asset : PhotoAsset) (config : DownloadConfig)
    (ctx : DerivationContext) (seenUrls : List String) : Option DerivedPath :=
  deriveExtra host asset config ctx seenUrls
    (config.edited && asset.isLivePhoto && asset.itemType = some .image) .liveAdjusted
    (fun _ => "_edited") false

def deriveMovCompanion (host : Host) (asset : PhotoAsset) (config : DownloadConfig)
    (ctx : DerivationContext) (primaryEffectiveFilename : Option String) : Option DerivedPath :=
  (selectMovCompanion asset config ctx []).map (fun (liveVersion, effectiveLiveSize) =>
    let liveBase :=
      match config.fileMatchPolicy with
      | .nameId7 => applyNameId7 host (usableAssetBaseFilename host asset ctx) asset.stateId
      | .nameSizeDedupWithSuffix =>
          primaryEffectiveFilename.getD (usableAssetBaseFilename host asset ctx)
    let movFilename :=
      match config.livePhotoMovFilenamePolicy with
      | .suffix => livePhotoMovPathSuffix liveBase
      | .original => livePhotoMovPathOriginal liveBase
    { path := pathOf host config ctx.createdLocal movFilename,
      filename := movFilename,
      url := liveVersion.url,
      checksum := liveVersion.checksum,
      size := liveVersion.size,
      versionSize := .from effectiveLiveSize,
      checkAmpmOnDisk := false })

/-- Add a derived path and the URL it has. -/
def pushDerived (acc : List DerivedPath × List String)
    (derive : List String → Option DerivedPath) : List DerivedPath × List String :=
  match derive acc.2 with
  | none => acc
  | some d => (acc.1 ++ [d], acc.2 ++ [d.url])

/-- The files of an asset under the configuration, wherever they may be by now. -/
def deriveExpectedPaths (host : Host) (asset : PhotoAsset) (config : DownloadConfig) :
    List DerivedPath :=
  if asset.hasValidId then
    let ctx := DerivationContext.build host asset config
    let primary := derivePrimary host asset config ctx
    let acc := pushDerived ([], []) (fun _ => primary)
    let acc := pushDerived acc (deriveEditedExtra host asset config ctx)
    let acc := pushDerived acc (deriveAlternativeExtra host asset config ctx)
    let acc := pushDerived acc (deriveLiveEditedExtra host asset config ctx)
    match deriveMovCompanion host asset config ctx (primary.map (·.filename)) with
    | none => acc.1
    | some mov => if acc.2.any (fun seen => seen = mov.url) then acc.1 else acc.1 ++ [mov]
  else
    []

/-! ## taken paths -/

inductive CollisionStrategy where
  /-- Another name is found; with `skipZeroSize` a size of 0 is not known. -/
  | sizeDedup (skipZeroSize : Bool)
  /-- The name tells the file apart already. -/
  | skipIfExists
  deriving DecidableEq

inductive PathResolution where
  | download (path : Path)
  | skip (path : Path)
  deriving DecidableEq

def PathResolution.downloadPath : PathResolution → Option Path
  | .download path => some path
  | .skip _ => none

def PathResolution.effectivePath : PathResolution → Path
  | .download path => path
  | .skip path => path

inductive CollisionFilenameKind where
  | default
  | assetIdentity
  | assetIdentityOrdinal (n : Nat)

def sizeOrIdentityCollisionFilename (filename : String) (size : Nat) (assetId : String) :
    CollisionFilenameKind → String
  | .default => addDedupSuffix filename size
  | .assetIdentity => insertAssetIdentitySuffix filename assetId
  | .assetIdentityOrdinal n => insertAssetIdentityOrdinalSuffix filename assetId n

def identityCollisionFilename (filename assetId : String) : CollisionFilenameKind → String
  | .default => insertAssetIdentitySuffix filename assetId
  | .assetIdentity => insertAssetIdentitySuffix filename assetId
  | .assetIdentityOrdinal n => insertAssetIdentityOrdinalSuffix filename assetId n

/-- The sizes claimed so far, by normalized path. -/
abbrev ClaimedPaths := String → Option Nat

structure ResolveContext where
  config : DownloadConfig
  createdLocal : DateTime
  claimedPaths : ClaimedPaths

/-- A name of the given kind, if it was not tried before and is free; the cache and the
names tried come with it. -/
def availableCollisionPath (host : Host) (ctx : ResolveContext)
    (makeFilename : CollisionFilenameKind → String) (kind : CollisionFilenameKind)
    (cache : DirCache) (tried : List String) : Option Path × DirCache × List String :=
  let path := pathOf host ctx.config ctx.createdLocal (makeFilename kind)
  let normalized := normalize host path
  if normalized ∈ tried then
    (none, cache, tried)
  else
    let (found, cache) := cache.pathExists host path
    if found || (ctx.claimedPaths normalized).isSome then
      (none, cache, tried ++ [normalized])
    else
      (some path, cache, tried ++ [normalized])

/-- `u64::checked_add(1).unwrap_or(2)`. -/
def nextOrdinal (ordinal : Nat) : Nat := if ordinal + 1 < 2 ^ 64 then ordinal + 1 else 2

/-- The loop over the ordinals. -/
def ordinalCollisionPath (host : Host) (ctx : ResolveContext)
    (makeFilename : CollisionFilenameKind → String) :
    Nat → Nat → DirCache → List String → Option (Path × DirCache)
  | 0, _, _, _ => none
  | fuel + 1, ordinal, cache, tried =>
      match availableCollisionPath host ctx makeFilename (.assetIdentityOrdinal ordinal) cache
        tried with
      | (some path, cache, _) => some (path, cache)
      | (none, cache, tried) =>
          ordinalCollisionPath host ctx makeFilename fuel (nextOrdinal ordinal) cache tried

def firstAvailableCollisionPath (host : Host) (fuel : Nat) (ctx : ResolveContext)
    (cache : DirCache) (preferred : CollisionFilenameKind)
    (makeFilename : CollisionFilenameKind → String) : Option (Path × DirCache) :=
  match availableCollisionPath host ctx makeFilename preferred cache [] with
  | (some path, cache, _) => some (path, cache)
  | (none, cache, tried) =>
      match availableCollisionPath host ctx makeFilename .assetIdentity cache tried with
      | (some path, cache, _) => some (path, cache)
      | (none, cache, tried) => ordinalCollisionPath host ctx makeFilename fuel 2 cache tried

/-- The file on the disk that a path stands for, with its size. -/
def onDiskMatch (host : Host) (cache : DirCache) (path : Path) (checkAmpm : Bool) :
    Option (Nat × Path) × DirCache :=
  match cache.fileSize host path with
  | (some size, cache) => (some (size, path), cache)
  | (none, cache) =>
      if checkAmpm then
        match cache.findAmpmVariant host path with
        | (none, cache) => (none, cache)
        | (some variant, cache) =>
            let (size, cache) := cache.fileSize host variant
            (some (size.getD 0, variant), cache)
      else
        (none, cache)

/-- What is at a path already, on the disk or in flight, with its size. -/
def existingMatch (host : Host) (claimedPaths : ClaimedPaths) (cache : DirCache) (path : Path)
    (checkAmpm : Bool) : Option (Nat × Path) × DirCache :=
  match onDiskMatch host cache path checkAmpm with
  | (some found, cache) => (some found, cache)
  | (none, cache) => ((claimedPaths (normalize host path)).map (fun size => (size, path)), cache)

def resolveDownloadPath (host : Host) (fuel : Nat) (downloadPath : Path) (versionSize : Nat)
    (strategy : CollisionStrategy) (ctx : ResolveContext) (cache : DirCache) (checkAmpm : Bool)
    (makeCollisionFilename : CollisionFilenameKind → String) :
    Option (PathResolution × DirCache) :=
  match existingMatch host ctx.claimedPaths cache downloadPath checkAmpm with
  | (none, cache) => some (.download downloadPath, cache)
  | (some (existingSize, matchedPath), cache) =>
      match strategy with
      | .skipIfExists => some (.skip matchedPath, cache)
      | .sizeDedup skipZeroSize =>
          let sizesMatch :=
            (!skipZeroSize || decide (0 < versionSize)) && existingSize == versionSize
          let preferred : CollisionFilenameKind :=
            if sizesMatch then .assetIdentity else .default
          (firstAvailableCollisionPath host fuel ctx cache preferred makeCollisionFilename).map
            (fun (path, cache) => (.download path, cache))

/-! ## tasks -/

structure DownloadTask where
  url : String
  downloadPath : Path
  checksum : String
  assetId : String
  assetRecordName : String
  library : String
  size : Nat
  createdLocal : DateTime
  versionSize : VersionSizeKey
  mediaType : MediaType
  deriving DecidableEq

/-- What filtering an asset carries from version to version. -/
structure Filtering where
  tasks : List DownloadTask
  seenUrls : List String
  claimedPaths : ClaimedPaths
  cache : DirCache

def taskOf (asset : PhotoAsset) (config : DownloadConfig) (d : DerivedPath) (path : Path) :
    DownloadTask where
  url := d.url
  downloadPath := path
  checksum := d.checksum
  assetId := asset.stateId
  assetRecordName := asset.assetRecordName
  library := asset.sourceZone.getD config.library
  size := d.size
  createdLocal := asset.createdLocal
  versionSize := d.versionSize
  mediaType := determineMediaType d.versionSize asset

/-- Claim a path and add its task. -/
def Filtering.push (host : Host) (asset : PhotoAsset) (config : DownloadConfig)
    (state : Filtering) (d : DerivedPath) (path : Path) : Filtering :=
  { state with
    tasks := state.tasks ++ [taskOf asset config d path],
    seenUrls := state.seenUrls ++ [d.url],
    claimedPaths := Function.update state.claimedPaths (normalize host path) (some d.size) }

/-- Find the path of a version, and add its task unless it is to be skipped. -/
def placeVersion (host : Host) (fuel : Nat) (asset : PhotoAsset) (config : DownloadConfig)
    (state : Filtering) (d : DerivedPath) (strategy : CollisionStrategy)
    (makeCollisionFilename : CollisionFilenameKind → String) :
    Option (PathResolution × Filtering) := do
  let (resolution, cache) ← resolveDownloadPath host fuel d.path d.size strategy
    ⟨config, asset.createdLocal, state.claimedPaths⟩ state.cache d.checkAmpmOnDisk
    makeCollisionFilename
  let state := { state with cache := cache }
  match resolution.downloadPath with
  | some path => return (resolution, state.push host asset config d path)
  | none => return (resolution, state)

def placePrimary (host : Host) (fuel : Nat) (asset : PhotoAsset) (config : DownloadConfig)
    (state : Filtering) (primary : Option DerivedPath) : Option (Option String × Filtering) :=
  match primary with
  | none => some (none, state)
  | some d => do
      let strategy : CollisionStrategy :=
        match config.fileMatchPolicy with
        | .nameId7 => .skipIfExists
        | .nameSizeDedupWithSuffix => .sizeDedup true
      let (resolution, state) ← placeVersion host fuel asset config state d strategy
        (sizeOrIdentityCollisionFilename d.filename d.size asset.stateId)
      return (fileName resolution.effectivePath, state)

def placeExtra (host : Host) (fuel : Nat) (asset : PhotoAsset) (config : DownloadConfig)
    (state : Filtering) (derive : List String → Option DerivedPath) : Option Filtering :=
  match derive state.seenUrls with
  | none => some state
  | some d =>
      (placeVersion host fuel asset config state d (.sizeDedup true)
        (sizeOrIdentityCollisionFilename d.filename d.size asset.stateId)).map (·.2)

def placeMov (host : Host) (fuel : Nat) (asset : PhotoAsset) (config : DownloadConfig)
    (state : Filtering) (mov : Option DerivedPath) : Option Filtering :=
  match mov with
  | none => some state
  | some d =>
      if state.seenUrls.any (fun seen => seen = d.url) then
        some state
      else
        (placeVersion host fuel asset config state d (.sizeDedup false)
          (identityCollisionFilename d.filename asset.stateId)).map (·.2)

/-- An asset without a name is left out when its made-up name is excluded. -/
def excludedByFallback (host : Host) (asset : PhotoAsset) (config : DownloadConfig) : Bool :=
  asset.filename.isNone &&
    config.filenameExclude.any (fun p => host.globMatches p (rawFilename host asset))

/-- The download tasks of an asset, with the paths they claim; `none` when the search for a
free name ran out of `fuel`. -/
def filterAssetToTasks (host : Host) (fuel : Nat) (asset : PhotoAsset) (config : DownloadConfig)
    (claimedPaths : ClaimedPaths) (cache : DirCache) :
    Option (List DownloadTask × ClaimedPaths × DirCache) :=
  if !asset.hasValidId || excludedByFallback host asset config then
    some ([], claimedPaths, cache)
  else do
    let ctx := DerivationContext.build host asset config
    let (effectivePrimaryFilename, state) ← placePrimary host fuel asset config
      ⟨[], [], claimedPaths, cache⟩ (derivePrimary host asset config ctx)
    let state ← placeExtra host fuel asset config state (deriveEditedExtra host asset config ctx)
    let state ← placeExtra host fuel asset config state
      (deriveAlternativeExtra host asset config ctx)
    let state ← placeExtra host fuel asset config state
      (deriveLiveEditedExtra host asset config ctx)
    let state ← placeMov host fuel asset config state
      (deriveMovCompanion host asset config ctx effectivePrimaryFilename)
    return (state.tasks, state.claimedPaths, state.cache)

/-- The assets of a batch one after the other, each under the configuration of its pass. -/
def filterAssetsToTasks (host : Host) (fuel : Nat) :
    List (PhotoAsset × DownloadConfig) → ClaimedPaths → DirCache →
    Option (List DownloadTask × ClaimedPaths × DirCache)
  | [], claimedPaths, cache => some ([], claimedPaths, cache)
  | (asset, config) :: rest, claimedPaths, cache => do
      let (tasks, claimedPaths, cache) ←
        filterAssetToTasks host fuel asset config claimedPaths cache
      let (more, claimedPaths, cache) ← filterAssetsToTasks host fuel rest claimedPaths cache
      return (tasks ++ more, claimedPaths, cache)

/-! ## samples -/

def sampleHost : Host where
  platform := .linux
  strftime _ format := format
  sha256 _ := []
  base64 := id
  globMatches _ _ := false
  readDirEntries _ := []

def sampleConfig : DownloadConfig where
  directory := "/photos"
  folderStructure := "none"
  resolution := .original
  livePhotoMode := .both
  liveResolution := .liveOriginal
  liveResolution_isLive := isLive_liveOriginal
  livePhotoMovFilenamePolicy := .suffix
  edited := false
  alternative := false
  rawPolicy := .asIs
  fileMatchPolicy := .nameSizeDedupWithSuffix
  forceResolution := false
  keepUnicodeInFilenames := false
  filenameExclude := []
  albumName := none
  library := "PrimarySync"

def samplePhoto (id : String) : PhotoAsset where
  recordName := id
  assetRecordName := id
  stateRecordName := none
  sourceZone := none
  filename := some "IMG_0001.JPG"
  itemType := some .image
  versions := [(.original, ⟨10, "url", "public.jpeg", "sum"⟩)]
  createdLocal := ⟨0, 0⟩

end Kei.Download
