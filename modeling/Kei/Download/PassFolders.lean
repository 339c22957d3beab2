import Kei.Download.Planner
import Kei.FullEnumeration

/-!
# Kei.Download.PassFolders

The folder template of a pass, with the names that it stands for.

Each category of passes has a template of its own.  The name of the album takes
the place of the category's token, and then the name of the library that of its
token.
-/

namespace Kei.Download

open Str FullEnumeration

def tokenSmartFolder : String := "\x7bsmart-folder\x7d"

def tokenLibrary : String := "\x7blibrary\x7d"

def PassKind.token : PassKind → String
  | .album | .unfiled => tokenAlbum
  | .smartFolder => tokenSmartFolder

/-- The name of a zone, with the first 8 bytes of the id of a shared one. -/
def truncateLibraryZone (zoneName : String) : String :=
  let shared := "SharedSync-"
  if shared.toList.isPrefixOf zoneName.toList && 8 < byteLen zoneName - byteLen shared then
    let cut := floorBytes (byteLen shared + 8) zoneName
    -- within a character there is no place to cut
    if byteLen cut = byteLen shared + 8 then cut else zoneName
  else
    zoneName

def folderStructureForPass (host : Host) (folderStructure folderStructureAlbums
    folderStructureSmartFolders library : String) (pass : AlbumPass) : String :=
  let template :=
    match pass.kind with
    | .album => folderStructureAlbums
    | .smartFolder => folderStructureSmartFolders
    | .unfiled => folderStructure
  let name := (some pass.name).filter (fun n => n ≠ "")
  let categoryExpanded := expandNamedToken host template (PassKind.token pass.kind) name
  expandNamedToken host categoryExpanded tokenLibrary (some (truncateLibraryZone library))

inductive RecentScope where
  | global
  | perFilter
  deriving DecidableEq

/-- The configuration of a run, from which its passes get theirs. -/
structure RunConfig extends PassConfig where
  folderStructureAlbums : String
  folderStructureSmartFolders : String
  recent : Option UInt32
  recentScope : RecentScope

def RunConfig.withPass (config : RunConfig) (host : Host) (pass : AlbumPass) : RunConfig :=
  { config with
    albumName := some pass.name,
    folderStructure := folderStructureForPass host config.folderStructure
      config.folderStructureAlbums config.folderStructureSmartFolders config.library pass,
    excludeAssetIds := pass.excludeIds }

end Kei.Download
