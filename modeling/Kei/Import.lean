import Kei.Download.Expected
import Kei.Download.Listings
import Kei.Download.Planner
import Mathlib.Data.List.Destutter
import Mathlib.Data.String.Basic

/-!
# Kei.Import

`import-existing`: the files that are there already are matched with the
assets, and adopted as their local files.

`resolveMatchPath` looks for the file of one version, and `importAssets` is the
loop over the assets of a library.  The files do not change while it runs, so
the disk is a `Tree`, which is asked and never written.
-/

namespace Kei.Import

open Str Download

/-! ## the disk -/

structure Metadata where
  len : Nat
  /-- Seconds of the last change, if the file has any. -/
  mtime : Option Int
  deriving DecidableEq

structure DirEntry where
  /-- `none` if the name is not valid UTF-8. -/
  fileName : Option String
  metadata : Option Metadata

/-- The files, by the components of their paths. -/
structure Tree where
  metadata : List String → Option Metadata
  /-- The entries of a directory, as far as they can be read. -/
  readDir : List String → Option (List DirEntry)

/-- `Path`'s order. -/
def pathLe (a b : Path) : Bool := components a ≤ components b

/-! ## the names of a file -/

/-- The name is made from `base` with the id of the asset, and maybe an ordinal. -/
def filenameMatchesIdentityCollision (base assetId candidate : String) : Bool :=
  let base := cleanFilename base
  let assetId := assetIdentitySuffix assetId
  let isOrdinal := fun (stem candidate : String) =>
    let start := stem ++ "-" ++ assetId ++ "-"
    start.toList.isPrefixOf candidate.toList &&
      (parseU64 (String.ofList (candidate.toList.drop start.toList.length))).isSome
  if candidate = insertSuffix base assetId then
    true
  else
    match rsplitOnce '.' base with
    | none => isOrdinal base candidate
    | some (baseStem, baseExt) =>
        match rsplitOnce '.' candidate with
        | none => false
        | some (candidateStem, candidateExt) =>
            candidateExt = baseExt && isOrdinal baseStem candidateStem

structure ImportPathCandidate where
  path : Path
  expectedSize : Nat
  versionSize : VersionSizeKey

/-- The movie of a live photo, without the edited one. -/
def isLivePhotoMotion : VersionSizeKey → Bool
  | .liveOriginal | .liveMedium | .liveThumb => true
  | _ => false

def primaryExpectedPath (expected : List DerivedPath) : Option DerivedPath :=
  expected.find? (·.versionSize.isPrimaryMedia)

def movFilename (policy : LivePhotoMovFilenamePolicy) (primaryFilename : String) : String :=
  match policy with
  | .suffix => livePhotoMovPathSuffix primaryFilename
  | .original => livePhotoMovPathOriginal primaryFilename

/-- The names of a movie whose photo has one of the collision names. -/
def movCandidates (config : DownloadConfig) (allExpected : List DerivedPath) (assetId : String)
    (dir : List String) : List Path :=
  match (primaryExpectedPath allExpected).bind
      (fun primary => (fileName primary.path).map (primary, ·)) with
  | none => []
  | some (primary, primaryFname) =>
      [addDedupSuffix primaryFname primary.size,
          insertAssetIdentitySuffix primaryFname assetId].flatMap (fun primaryFilename =>
        let mov := movFilename config.livePhotoMovFilenamePolicy primaryFilename
        [joinDir dir mov, joinDir dir (insertAssetIdentitySuffix mov assetId)])

def importMatchCandidates (config : DownloadConfig) (candidate : ImportPathCandidate)
    (allExpected : List DerivedPath) (assetId : String) : List Path :=
  if config.fileMatchPolicy ≠ .nameSizeDedupWithSuffix then
    [candidate.path]
  else
    match parent candidate.path, fileName candidate.path with
    | some dir, some fname =>
        [candidate.path, joinDir dir (addDedupSuffix fname candidate.expectedSize),
            joinDir dir (insertAssetIdentitySuffix fname assetId)] ++
          if isLivePhotoMotion candidate.versionSize then
            movCandidates config allExpected assetId dir
          else []
    | _, _ => [candidate.path]

/-! ## the file of a version -/

/-- The variant of a name with another blank before AM or PM, if it has the size. -/
def matchAmpmVariant (host : Host) (tree : Tree) (path : Path) (expectedSize : Nat)
    (cache : DirCache) : Option (Path × Metadata) × DirCache :=
  if (fileName path).any (fun f => normalizeAmpm f ≠ f) then
    match parent path with
    | none => (none, cache)
    | some dir =>
        let (_, cache) := cache.ensureDir host dir
        match cache.findAmpmVariant host path with
        | (none, cache) => (none, cache)
        | (some variant, cache) =>
            let (size, cache) := cache.fileSize host variant
            if size = some expectedSize then
              ((tree.metadata (components variant)).map (variant, ·), cache)
            else (none, cache)
  else (none, cache)

def matchExactOrAmpmVariant (host : Host) (tree : Tree) (path : Path) (expectedSize : Nat)
    (cache : DirCache) : Option (Path × Metadata) × DirCache :=
  match (tree.metadata (components path)).filter (fun m => m.len = expectedSize) with
  | some metadata => (some (path, metadata), cache)
  | none => matchAmpmVariant host tree path expectedSize cache

/-- The first of the paths that matches. -/
def matchCandidates (host : Host) (tree : Tree) (expectedSize : Nat) :
    List Path → DirCache → Option (Path × Metadata) × DirCache
  | [], cache => (none, cache)
  | path :: rest, cache =>
      match matchExactOrAmpmVariant host tree path expectedSize cache with
      | (some found, cache) => (some found, cache)
      | (none, cache) => matchCandidates host tree expectedSize rest cache

/-- The search through the entries of a directory; it stops at one without metadata. -/
def identityOrdinalSibling (dir : List String) (base assetId : String) (expectedSize : Nat) :
    List DirEntry → Option (Path × Metadata)
  | [] => none
  | entry :: rest =>
      match entry.fileName.filter (filenameMatchesIdentityCollision base assetId) with
      | none => identityOrdinalSibling dir base assetId expectedSize rest
      | some name =>
          match entry.metadata with
          | none => none
          | some metadata =>
              if metadata.len = expectedSize then some (joinDir dir name, metadata)
              else identityOrdinalSibling dir base assetId expectedSize rest

def findIdentityOrdinalSibling (tree : Tree) (basePath : Path) (assetId : String)
    (expectedSize : Nat) : Option (Path × Metadata) := do
  let dir ← parent basePath
  let base ← fileName basePath
  let entries ← tree.readDir dir
  identityOrdinalSibling dir base assetId expectedSize entries

/-- The names that are looked for, in order. -/
def sortedCandidates (config : DownloadConfig) (candidate : ImportPathCandidate)
    (allExpected : List DerivedPath) (assetId : String) : List Path :=
  ((importMatchCandidates config candidate allExpected assetId).mergeSort pathLe).destutter
    (fun a b => components a ≠ components b)

def resolveMatchPath (host : Host) (tree : Tree) (config : DownloadConfig)
    (candidate : ImportPathCandidate) (allExpected : List DerivedPath) (assetId : String)
    (cache : DirCache) : Option (Path × Metadata) × DirCache :=
  let candidates := sortedCandidates config candidate allExpected assetId
  match matchCandidates host tree candidate.expectedSize candidates cache with
  | (some found, cache) => (some found, cache)
  | (none, cache) =>
      if config.fileMatchPolicy = .nameSizeDedupWithSuffix then
        (candidates.findSome?
          (findIdentityOrdinalSibling tree · assetId candidate.expectedSize), cache)
      else (none, cache)

/-! ## the import -/

structure ImportedRecord where
  localPath : Path
  localChecksum : String
  importedSize : Option Nat
  importedMtime : Option Int

/-- The key of a row, in one library. -/
abbrev RowKey := String × VersionSizeKey

structure AssetRecord where
  library : String
  id : String
  versionSize : VersionSizeKey
  checksum : String
  filename : String
  createdAt : Int
  size : Nat
  mediaType : MediaType

def AssetRecord.key (record : AssetRecord) : RowKey := (record.id, record.versionSize)

/-- The arguments of `import_adopt`. -/
structure Adoption where
  record : AssetRecord
  localPath : Path
  localChecksum : String
  importedSize : Nat
  importedMtime : Option Int

inductive StrictImportDecision where
  | accepted
  | refused

structure ImportRunOptions where
  dryRun : Bool
  strictVerifier : Option (Path → String → Nat → Except String StrictImportDecision)

/-- The answers to the calls of a run, which are numbered. -/
structure Replies where
  getAllImportedRecords : Except String (RowKey → Option ImportedRecord)
  computeSha256 : Nat → Except String String
  importAdopt : Nat → Except String Unit
  /-- Shutdown is requested before the asset with this number. -/
  cancelled : Nat → Bool

structure ImportStats where
  total : Nat
  matched : Nat
  unmatched : Nat
  filtered : Nat
  strictRefused : Nat
  hashErrors : Nat
  skippedAlreadyImported : Nat

structure ImportState where
  stats : ImportStats
  /-- The rows that are written, with their files. -/
  adopted : List Adoption
  /-- The rows that are left as they are, with their files. -/
  kept : List (RowKey × Path)
  dirCache : DirCache
  calls : Nat

def ImportState.new (dirCache : DirCache) : ImportState :=
  ⟨⟨0, 0, 0, 0, 0, 0, 0⟩, [], [], dirCache, 0⟩

/-- What stays the same during a run. -/
structure ImportRun where
  host : Host
  tree : Tree
  config : PassConfig
  libraryLabel : String
  options : ImportRunOptions
  replies : Replies

namespace ImportRun

variable (run : ImportRun)

def importedIndex : RowKey → Option ImportedRecord :=
  match run.replies.getAllImportedRecords with
  | .ok index => index
  | .error _ => fun _ => none

/-- The strict verifier takes the file, or there is none. -/
def verified (path : Path) (url : String) (size : Nat) : Bool :=
  match run.options.strictVerifier with
  | none => true
  | some verify =>
      match verify path url size with
      | .ok .accepted => true
      | .ok .refused | .error _ => false

/-- The row is there, for the same file with the same size and time. -/
def alreadyImported (key : RowKey) (path : Path) (metadata : Metadata) : Bool :=
  (run.importedIndex key).any (fun row =>
    components row.localPath = components path && row.importedSize = some metadata.len &&
      row.importedMtime.isSome && row.importedMtime = metadata.mtime)

def newPending (asset : PlannedAsset) (d : DerivedPath) (path : Path) : AssetRecord where
  library := run.libraryLabel
  id := asset.stateId
  versionSize := d.versionSize
  checksum := d.checksum
  filename := (fileName path).getD ""
  createdAt := asset.created
  size := d.size
  mediaType := determineMediaType d.versionSize asset.toPhotoAsset

/-- A matched file is hashed, and its row is written. -/
def adopt (asset : PlannedAsset) (d : DerivedPath) (path : Path) (metadata : Metadata)
    (state : ImportState) : ImportState :=
  let stats := state.stats
  match run.replies.computeSha256 state.calls with
  | .error _ => { state with
      stats := { stats with hashErrors := stats.hashErrors + 1 }, calls := state.calls + 1 }
  | .ok localChecksum =>
      match run.replies.importAdopt state.calls with
      | .error _ => { state with calls := state.calls + 1 }
      | .ok () => { state with
          stats := { stats with matched := stats.matched + 1 },
          adopted := state.adopted ++ [⟨run.newPending asset d path, path, localChecksum,
            metadata.len, metadata.mtime⟩],
          calls := state.calls + 1 }

/-- What follows once the file of a version is found. -/
def importMatched (asset : PlannedAsset) (d : DerivedPath) (path : Path) (metadata : Metadata)
    (state : ImportState) : ImportState :=
  let stats := state.stats
  if !run.verified path d.url d.size then
    { state with stats := { stats with strictRefused := stats.strictRefused + 1 } }
  else if run.options.dryRun then
    { state with stats := { stats with matched := stats.matched + 1 } }
  else if run.alreadyImported (asset.stateId, d.versionSize) path metadata then
    { state with
      stats := { stats with
        matched := stats.matched + 1, skippedAlreadyImported := stats.skippedAlreadyImported + 1 },
      kept := state.kept ++ [((asset.stateId, d.versionSize), path)] }
  else run.adopt asset d path metadata state

def candidateOf (d : DerivedPath) : ImportPathCandidate := ⟨d.path, d.size, d.versionSize⟩

/-- One version of an asset. -/
def importVersion (asset : PlannedAsset) (expected : List DerivedPath) (state : ImportState)
    (d : DerivedPath) : ImportState :=
  match resolveMatchPath run.host run.tree run.config.toDownloadConfig (candidateOf d) expected
      asset.stateId state.dirCache with
  | (none, dirCache) =>
      let stats := state.stats
      { state with stats := { stats with unmatched := stats.unmatched + 1 }, dirCache := dirCache }
  | (some (path, metadata), dirCache) =>
      run.importMatched asset d path metadata { state with dirCache := dirCache }

/-- The versions of an asset that are looked for. -/
def expectedOf (asset : PlannedAsset) : List DerivedPath :=
  if asset.versions.isEmpty || (isAssetFiltered run.host asset run.config).isSome then []
  else deriveExpectedPaths run.host asset.toPhotoAsset run.config.toDownloadConfig

def importAsset (asset : PlannedAsset) (state : ImportState) : ImportState :=
  let expected := run.expectedOf asset
  let stats := { state.stats with total := state.stats.total + 1 }
  if expected.isEmpty then
    { state with stats := { stats with filtered := stats.filtered + 1 } }
  else expected.foldl (run.importVersion asset expected) { state with stats := stats }

inductive ImportError where
  | interrupted (library : String)
  | icloud (library message : String)
  | fetcherCrashed (library : String)

/-- The loop over the assets of the stream. -/
def importStream : List (Except String PlannedAsset) → ImportState →
    Except ImportError Unit × ImportState
  | [], state =>
      (if run.replies.cancelled state.stats.total then .error (.interrupted run.libraryLabel)
        else .ok (), state)
  | result :: rest, state =>
      if run.replies.cancelled state.stats.total then
        (.error (.interrupted run.libraryLabel), state)
      else
        match result with
        | .error message => (.error (.icloud run.libraryLabel message), state)
        | .ok asset => importStream rest (run.importAsset asset state)

def importAssets (stream : List (Except String PlannedAsset)) (panicked : Bool)
    (dirCache : DirCache) : Except ImportError ImportStats × ImportState :=
  match run.importStream stream (.new dirCache) with
  | (.error err, state) => (.error err, state)
  | (.ok (), state) =>
      (if panicked then .error (.fetcherCrashed run.libraryLabel) else .ok state.stats, state)

end ImportRun

end Kei.Import
