import Kei.Changes
import Kei.FullEnumeration
import Kei.Lib.LastWriter
import Kei.Selection

/-!
# Kei.Library

The albums of a library, and the passes that a selection makes of them.

User albums and smart folders are put into one map, by their names.  The name
of a user album is its title as it is decoded and cleaned, so a title can
replace what another title, or a smart folder, has put there.
-/

namespace Kei.Library

open Str PhotoStream Selection
open Changes (fieldValue)
open FullEnumeration (PassKind)

/-- The libraries that the records are read with. -/
structure Host where
  platform : Download.Platform
  decodeBase64 : String → Option ByteArray

inductive Error where
  | request (message : String)
  /-- Use `--smart-folder` for this name. -/
  | smartFolder (name : String)
  | albumNotFound (name : String) (available : List String)
  | excludedNotFound (name : String) (available : List String)

/-! ## records -/

def rootFolder : String := "----Root-Folder----"

def projectRootFolder : String := "----Project-Root-Folder----"

/-- The record is an album: neither a sentinel nor deleted. -/
def isListed (folder : Record) : Bool :=
  !(folder.recordName = rootFolder || folder.recordName = projectRootFolder) &&
    !((fieldValue folder.fields "isDeleted").bind (·.asBool)).getD false

/-- The name of an album in the map. -/
def folderName (host : Host) (folder : Record) : String :=
  match (fieldValue folder.fields "albumNameEnc").bind (·.asStr) with
  | some enc =>
      let decoded := (host.decodeBase64 enc).getD .empty
      let rawName := (String.fromUTF8? decoded).getD folder.recordName
      Download.sanitizePathComponent host.platform rawName
  | none => folder.recordName

/-! ## albums -/

/-- An album with its query. -/
structure PhotoAlbum where
  name : String
  listType : String
  objType : String
  queryFilter : Option Json
  zoneName : String
  containerId : Option String
  /-- The zones whose libraries are searched for shared members. -/
  crossZoneSources : List String

def queryFilter (field value : String) : Json :=
  .array [.object [("fieldName", .string field), ("comparator", .string "EQUALS"),
    ("fieldValue", .object [("type", .string "STRING"), ("value", .string value)])]]

structure FolderDef where
  objType : String
  listType : String
  queryFilter : Option Json
  isSensitive : Bool

def smartAlbumList : String := "CPLAssetAndMasterInSmartAlbumByAssetDate"

/-- A folder that is a smart album of its own. -/
def smartFolderDef (objType value : String) : FolderDef :=
  ⟨objType, smartAlbumList, some (queryFilter "smartAlbum" value), false⟩

def smartFolders : List (String × FolderDef) :=
  [("Time-lapse", smartFolderDef "CPLAssetInSmartAlbumByAssetDate:Timelapse" "TIMELAPSE"),
    ("Videos", smartFolderDef "CPLAssetInSmartAlbumByAssetDate:Video" "VIDEO"),
    ("Slo-mo", smartFolderDef "CPLAssetInSmartAlbumByAssetDate:Slomo" "SLOMO"),
    ("Bursts", ⟨"CPLAssetBurstStackAssetByAssetDate", "CPLBurstStackAssetAndMasterByAssetDate",
      none, false⟩),
    ("Favorites", smartFolderDef "CPLAssetInSmartAlbumByAssetDate:Favorite" "FAVORITE"),
    ("Panoramas", smartFolderDef "CPLAssetInSmartAlbumByAssetDate:Panorama" "PANORAMA"),
    ("Screenshots", smartFolderDef "CPLAssetInSmartAlbumByAssetDate:Screenshot" "SCREENSHOT"),
    ("Live", smartFolderDef "CPLAssetInSmartAlbumByAssetDate:Live" "LIVE"),
    ("Recently Deleted", ⟨"CPLAssetDeletedByExpungedDate",
      "CPLAssetAndMasterDeletedByExpungedDate", none, true⟩),
    ("Hidden", ⟨"CPLAssetHiddenByAssetDate", "CPLAssetAndMasterHiddenByAssetDate", none, true⟩)]

def smartFolderNames : List String := smartFolders.map (·.1)

structure PhotoLibrary where
  host : Host
  zoneName : String

def isSharedZone (zoneName : String) : Bool := "SharedSync-".toList.isPrefixOf zoneName.toList

namespace PhotoLibrary

variable (library : PhotoLibrary)

def smartAlbum (name : String) (folderDef : FolderDef) : PhotoAlbum :=
  ⟨name, folderDef.listType, folderDef.objType, folderDef.queryFilter, library.zoneName, none, []⟩

def folderAlbum (folder : Record) : PhotoAlbum where
  name := folderName library.host folder
  listType := "CPLContainerRelationLiveByAssetDate"
  objType := "CPLContainerRelationNotDeletedByAssetDate:" ++ folder.recordName
  queryFilter := some (queryFilter "parentId" folder.recordName)
  zoneName := library.zoneName
  containerId := some folder.recordName
  crossZoneSources := []

/-- The library-wide album. -/
def all : PhotoAlbum :=
  ⟨"", "CPLAssetAndMasterByAssetDateWithoutHiddenOrDeleted",
    "CPLAssetByAssetDateWithoutHiddenOrDeleted", none, library.zoneName, none, []⟩

end PhotoLibrary

/-- A page of folder records. -/
structure FolderPage where
  records : List Record
  continuationMarker : Option String

def FolderPage.hasMore (page : FolderPage) : Bool :=
  match page.continuationMarker with
  | some marker => marker ≠ ""
  | none => false

def folderPageCap : Nat := 64

/-- The answer to each request, of which each one has the marker of the one before. -/
abbrev FolderReplies := Nat → Except String FolderPage

/-- From a page on, with as many requests as are left. -/
def fetchFoldersFrom (replies : FolderReplies) :
    Nat → Nat → List Record → Except Error (List Record)
  | 0, _, allRecords => .ok allRecords
  | left + 1, page, allRecords =>
      match replies page with
      | .error message => .error (.request message)
      | .ok query =>
          if query.hasMore then
            fetchFoldersFrom replies left (page + 1) (allRecords ++ query.records)
          else .ok (allRecords ++ query.records)

def fetchFolders (replies : FolderReplies) : Except Error (List Record) :=
  fetchFoldersFrom replies folderPageCap 0 []

/-- Albums by their names. -/
abbrev AlbumMap := AList (fun _ : String => PhotoAlbum)

namespace PhotoLibrary

variable (library : PhotoLibrary)

def insertSmartFolder (albums : AlbumMap) (entry : String × FolderDef) : AlbumMap :=
  albums.insert entry.1 (library.smartAlbum entry.1 entry.2)

def insertFolder (albums : AlbumMap) (folder : Record) : AlbumMap :=
  if isListed folder then
    albums.insert (folderName library.host folder) (library.folderAlbum folder)
  else albums

def albums (replies : FolderReplies) : Except Error AlbumMap :=
  let smart := smartFolders.foldl library.insertSmartFolder ∅
  if isSharedZone library.zoneName then .ok smart
  else (fetchFolders replies).map (fun folders => folders.foldl library.insertFolder smart)

end PhotoLibrary

/-! ## passes -/

structure AlbumPass where
  kind : PassKind
  album : PhotoAlbum
  excludeIds : List String

structure PassScope where
  includeAlbums : Bool
  includeSmartFolders : Bool
  includeUnfiled : Bool

/-- The parts of a selection that the passes of one library depend on. -/
structure Choice where
  albums : AlbumSelector
  albumsExplicit : Bool
  smartFolders : SmartFolderSelector

structure CollectionContext where
  collectionAlbumNames : BTreeSet String
  selectedSmartFolderNames : List String

/-- The user albums of a map. -/
def userAlbumNames (albumMap : AlbumMap) : List String :=
  albumMap.keys.filter (· ∉ smartFolderNames)

/-- Every excluded name has to be known. -/
def bailUnknownExcluded (excluded : List String) (known available : List String) :
    Except Error Unit :=
  match excluded.find? (· ∉ known) with
  | some name => .error (.excludedNotFound name available)
  | none => .ok ()

/-- The first of the included names that is not an album. -/
def checkIncluded (excluded known available : List String) : List String → Except Error Unit
  | [] => .ok ()
  | name :: names =>
      if name ∈ smartFolderNames then .error (.smartFolder name)
      else if name ∉ excluded ∧ name ∉ known then .error (.albumNotFound name available)
      else checkIncluded excluded known available names

def pickAlbumNames (albums : AlbumSelector) (albumMap : AlbumMap) : Except Error (List String) :=
  let available := (userAlbumNames albumMap).mergeSort (fun a b => a ≤ b)
  match albums with
  | .none => .ok []
  | .all excluded => do
      bailUnknownExcluded excluded.elems albumMap.keys available
      .ok ((userAlbumNames albumMap).filter (· ∉ excluded.elems))
  | .named included excluded => do
      checkIncluded excluded.elems albumMap.keys available included.elems
      bailUnknownExcluded excluded.elems albumMap.keys available
      .ok (included.elems.filter (· ∉ excluded.elems))

/-- The same when the names were given for all collections together. -/
def pickCollectionScopedAlbumNames (albums : AlbumSelector) (albumMap : AlbumMap)
    (collectionAlbumNames : BTreeSet String) : Except Error (List String) :=
  let available := collectionAlbumNames.elems
  match albums with
  | .none => .ok []
  | .all excluded => do
      bailUnknownExcluded excluded.elems available available
      .ok ((userAlbumNames albumMap).filter (· ∉ excluded.elems))
  | .named included excluded => do
      checkIncluded excluded.elems available available included.elems
      bailUnknownExcluded excluded.elems available available
      .ok ((included.elems.filter (· ∉ excluded.elems)).filter (· ∈ albumMap.keys))

def AlbumPass.ofAlbum (kind : PassKind) (crossZoneSources : List String) (album : PhotoAlbum) :
    AlbumPass :=
  ⟨kind, if kind = .album && crossZoneSources ≠ [] then
    { album with crossZoneSources := crossZoneSources } else album, []⟩

/-- Moves one name out of the map. -/
def drainName (kind : PassKind) (crossZoneSources : List String)
    (state : AlbumMap × List AlbumPass) (name : String) : AlbumMap × List AlbumPass :=
  match state.1.lookup name with
  | none => state
  | some album =>
      (state.1.erase name, state.2 ++ [AlbumPass.ofAlbum kind crossZoneSources album])

def drainNamedIntoPasses (names : List String) (kind : PassKind) (crossZoneSources : List String)
    (state : AlbumMap × List AlbumPass) : AlbumMap × List AlbumPass :=
  (names.mergeSort (fun a b => a ≤ b)).foldl (drainName kind crossZoneSources) state

/-- The names of the album passes. -/
def selectedAlbumNames (choice : Choice) (context : CollectionContext) (albumMap : AlbumMap) :
    Except Error (List String) :=
  if choice.albumsExplicit then
    pickCollectionScopedAlbumNames choice.albums albumMap context.collectionAlbumNames
  else pickAlbumNames choice.albums albumMap

/-- The map is fetched if something is selected from it. -/
def PhotoLibrary.albumsIf (library : PhotoLibrary) (replies : FolderReplies) (active : Bool) :
    Except Error AlbumMap :=
  if active then library.albums replies else .ok ∅

def selectedAlbumNamesIf (choice : Choice) (context : CollectionContext) (albumMap : AlbumMap)
    (active : Bool) : Except Error (List String) :=
  if active then selectedAlbumNames choice context albumMap else .ok []

/-- The passes of one library, with the names of the zones of the others. -/
def PhotoLibrary.resolvePassesForScope (library : PhotoLibrary) (replies : FolderReplies)
    (choice : Choice) (scope : PassScope) (context : CollectionContext)
    (crossZoneLibraries : List String) : Except Error (List AlbumPass) := do
  let albumActive := scope.includeAlbums && choice.albums ≠ .none
  let smartActive := scope.includeSmartFolders && choice.smartFolders ≠ .none
  let albumMap ← library.albumsIf replies (albumActive || smartActive)
  let albumNames ← selectedAlbumNamesIf choice context albumMap albumActive
  let smartNames := if smartActive then
    context.selectedSmartFolderNames.filter (· ∈ albumMap.keys) else []
  let sources := crossZoneLibraries.filter (· ≠ library.zoneName)
  let albumPasses := drainNamedIntoPasses albumNames .album sources (albumMap, [])
  let passes := (drainNamedIntoPasses smartNames .smartFolder [] albumPasses).2
  .ok (if scope.includeUnfiled then passes ++ [⟨.unfiled, library.all, []⟩] else passes)

end Kei.Library
