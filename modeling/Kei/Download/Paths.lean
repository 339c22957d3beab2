import Kei.Lib.Str
import Mathlib.Logic.Function.Basic

/-!
# Kei.Download.Paths

Download paths: file names and their suffixes, the directory of an asset, and
the cached listings that say which names are taken.

A path is a string in the syntax of Unix; `components` is how paths are
compared.  Libraries that the source calls and the disk itself come from a
`Host`.
-/

namespace Kei.Download

open Str

inductive Platform where
  | linux
  | macos
  | windows
  deriving DecidableEq

structure DateTime where
  millis : Int
  /-- Seconds east of UTC. -/
  offset : Int
  deriving DecidableEq

abbrev Path := String

/-- The entries of a directory with their sizes. -/
abbrev Listing := List (String × Nat)

/-- What the program runs on. -/
structure Host where
  platform : Platform
  /-- The date formatting of the calendar library. -/
  strftime : DateTime → String → String
  sha256 : String → List UInt8
  /-- The URL-safe alphabet, without padding. -/
  base64 : String → String
  globMatches : String → String → Bool
  /-- What a directory holds when it is first read, by its components. -/
  readDirEntries : List String → Listing

/-! ## paths -/

/-- `Path::join`. -/
def join (base component : Path) : Path :=
  if startsWith component '/' then component
  else if base = "" || base.toList.getLast? = some '/' then base ++ component
  else base ++ "/" ++ component

/-- The components of a path: the root, a leading `.`, and the names that are neither empty
nor `.`. -/
def components (path : Path) : List String :=
  let parts := split path '/'
  let names := parts.filter (fun part => part ≠ "" && part ≠ ".")
  if startsWith path '/' then "/" :: names
  else if parts.head? = some "." then "." :: names
  else names

/-- `Path::file_name`. -/
def fileName (path : Path) : Option String :=
  (components path).getLast?.filter (fun name => name ≠ "/" && name ≠ "." && name ≠ "..")

/-- `Path::parent`, by its components. -/
def parent (path : Path) : Option (List String) :=
  match components path with
  | [] => none
  | ["/"] => none
  | names => some names.dropLast

/-! ## file names -/

def maxFilenameBytes : Nat := 255

def isInvalid (c : Char) : Bool :=
  c ∈ ['/', '\\', ':', '*', '?', '"', '<', '>', '|'] || isControl c

/-- Replace the characters that file systems do not take and cut at 255 bytes, before the
extension where there is room for it. -/
def cleanFilename (filename : String) : String :=
  if filename = "" then
    "_"
  else if byteLen filename ≤ maxFilenameBytes && !filename.toList.any isInvalid then
    filename
  else
    let cleaned := String.ofList (filename.toList.map (fun c => if isInvalid c then '_' else c))
    if byteLen cleaned ≤ maxFilenameBytes then
      cleaned
    else
      match rsplitOnce '.' cleaned with
      | some (stem, ext) =>
          if byteLen ("." ++ ext) < maxFilenameBytes then
            floorBytes (maxFilenameBytes - byteLen ("." ++ ext)) stem ++ "." ++ ext
          else
            floorBytes maxFilenameBytes cleaned
      | none => floorBytes maxFilenameBytes cleaned

/-- Device names that Windows does not take as a file name. -/
def reservedNames : List String :=
  ["CON", "PRN", "AUX", "NUL", "COM1", "COM2", "COM3", "COM4", "COM5", "COM6", "COM7", "COM8",
    "COM9", "LPT1", "LPT2", "LPT3", "LPT4", "LPT5", "LPT6", "LPT7", "LPT8", "LPT9"]

def sanitizePathComponent (platform : Platform) (name : String) : String :=
  let noTraversal := replace (cleanFilename name) ".." "_"
  let isEdge := fun c => c = '.' || c = ' '
  let trimmed := String.ofList (dropEndWhile isEdge (noTraversal.toList.dropWhile isEdge))
  if trimmed = "" then
    "_"
  else if platform = .windows &&
      (split (asciiUpper trimmed) '.').headD "" ∈ reservedNames then
    "_" ++ trimmed
  else
    trimmed

def removeUnicodeChars (filename : String) : String :=
  String.ofList (filename.toList.filter (fun c => c.toNat < 128))

/-- Put `suffix` between the stem and the extension of a file name. -/
def insertBeforeExtension (path suffix : String) : String :=
  match rsplitOnce '.' path with
  | some (stem, ext) => stem ++ suffix ++ "." ++ ext
  | none => path ++ suffix

def addDedupSuffix (path : String) (size : Nat) : String :=
  insertBeforeExtension path ("-" ++ toString size)

def insertSuffix (path suffix : String) : String := insertBeforeExtension path ("-" ++ suffix)

def insertLiteralSuffix (path suffix : String) : String := insertBeforeExtension path suffix

def assetIdentitySuffix (assetId : String) : String := cleanFilename assetId

def insertAssetIdentitySuffix (path assetId : String) : String :=
  insertSuffix path (assetIdentitySuffix assetId)

def insertAssetIdentityOrdinalSuffix (path assetId : String) (n : Nat) : String :=
  insertSuffix path (assetIdentitySuffix assetId ++ "-" ++ toString n)

def itemTypeExtensions : List (String × String) :=
  [("public.heic", "HEIC"), ("public.heif", "HEIF"), ("public.jpeg", "JPG"),
    ("public.png", "PNG"), ("com.apple.quicktime-movie", "MOV"), ("com.adobe.raw-image", "DNG"),
    ("com.canon.cr2-raw-image", "CR2"), ("com.canon.crw-raw-image", "CRW"),
    ("com.sony.arw-raw-image", "ARW"), ("com.fuji.raw-image", "RAF"),
    ("com.panasonic.rw2-raw-image", "RW2"), ("com.nikon.nrw-raw-image", "NRF"),
    ("com.pentax.raw-image", "PEF"), ("com.nikon.raw-image", "NEF"),
    ("com.olympus.raw-image", "ORF"), ("com.canon.cr3-raw-image", "CR3"),
    ("com.olympus.or-raw-image", "ORF"), ("org.webmproject.webp", "WEBP")]

def itemTypeExtension (assetType : String) : String :=
  (itemTypeExtensions.lookup assetType).getD "unknown"

def mapFilenameExtension (filename assetType : String) : String :=
  let ext := itemTypeExtension assetType
  if ext = "unknown" then
    filename
  else
    match rsplitOnce '.' filename with
    | some (stem, _) => stem ++ "." ++ ext
    | none => filename ++ "." ++ ext

/-- The first seven characters of the encoded asset id. -/
def base64Id7 (host : Host) (id : String) : String :=
  String.ofList ((host.base64 id).toList.take 7)

def applyNameId7 (host : Host) (filename id : String) : String :=
  insertBeforeExtension filename ("_" ++ base64Id7 host id)

/-- The name of the movie of a live photo, marked after a HEIC still. -/
def livePhotoMovPathSuffix (filename : String) : String :=
  match rsplitOnce '.' filename with
  | some (stem, ext) => if asciiLower ext = "heic" then stem ++ "_HEVC.MOV" else stem ++ ".MOV"
  | none => filename ++ ".MOV"

def livePhotoMovPathOriginal (filename : String) : String :=
  match rsplitOnce '.' filename with
  | some (stem, _) => stem ++ ".MOV"
  | none => filename ++ ".MOV"

/-- Two hexadecimal digits. -/
def hexByte (b : UInt8) : String :=
  String.ofList [Nat.digitChar (b.toNat / 16), Nat.digitChar (b.toNat % 16)]

/-- A name made from the asset id, where the asset has none. -/
def generateFingerprintFilename (host : Host) (assetId assetType : String) : String :=
  String.join (((host.sha256 assetId).take 6).map hexByte) ++ "." ++ itemTypeExtension assetType

/-- A blank before AM or PM. -/
def isAmpmBlank (c : Char) : Bool := c = ' ' || c.toNat = 0xA0 || c.toNat = 0x202F

def isAmpm : List Char → Bool
  | c₁ :: c₂ :: _ => (c₁.toUpper = 'A' || c₁.toUpper = 'P') && c₂.toUpper = 'M'
  | _ => false

def dropAmpmBlanks : List Char → List Char
  | [] => []
  | c :: rest =>
      if isAmpmBlank c && isAmpm rest then dropAmpmBlanks rest else c :: dropAmpmBlanks rest

def normalizeAmpm (s : String) : String := String.ofList (dropAmpmBlanks s.toList)

/-! ## the path of an asset -/

def noDateStructure : String := "none"

def tokenAlbum : String := "\x7balbum\x7d"

/-- Strip the wrapper of the old format strings. -/
def stripPythonWrapper (folderStructure : String) : String :=
  if ['\x7b', ':'].isPrefixOf folderStructure.toList &&
      folderStructure.toList.getLast? = some '\x7d' then
    String.ofList (folderStructure.toList.drop 2).dropLast
  else
    folderStructure

def expandNamedToken (host : Host) (folderStructure token : String) (name : Option String) :
    String :=
  let formatStr := stripPythonWrapper folderStructure
  if contains formatStr token then
    let safeName := ((name.filter (fun n => n ≠ "")).map (fun n =>
      replace (sanitizePathComponent host.platform n) "%" "%%")).getD ""
    replace formatStr token safeName
  else
    formatStr

def localDownloadDir (host : Host) (directory : Path) (folderStructure : String)
    (createdDate : DateTime) (albumName : Option String) : Path :=
  if eqIgnoreAsciiCase folderStructure noDateStructure then
    directory
  else
    let datePath := host.strftime createdDate
      (expandNamedToken host folderStructure tokenAlbum albumName)
    ((split datePath '/').filter (fun component => component ≠ "")).foldl
      (fun path component => join path (sanitizePathComponent host.platform component)) directory

def localDownloadPath (host : Host) (directory : Path) (folderStructure : String)
    (createdDate : DateTime) (filename : String) (albumName : Option String) : Path :=
  join (localDownloadDir host directory folderStructure createdDate albumName)
    (cleanFilename filename)

/-! ## cached listings -/

/-- The directories that were read, by their components. -/
structure DirCache where
  dirs : List String → Option Listing

namespace DirCache

def new : DirCache := ⟨fun _ => none⟩

/-- The listing of a directory, read from the disk once. -/
def ensureDir (host : Host) (cache : DirCache) (dir : List String) : Listing × DirCache :=
  match cache.dirs dir with
  | some listing => (listing, cache)
  | none =>
      let listing := host.readDirEntries dir
      (listing, ⟨Function.update cache.dirs dir (some listing)⟩)

def fileSize (host : Host) (cache : DirCache) (path : Path) : Option Nat × DirCache :=
  match fileName path, parent path with
  | some filename, some dir =>
      let (listing, cache) := cache.ensureDir host dir
      (listing.lookup filename, cache)
  | _, _ => (none, cache)

def pathExists (host : Host) (cache : DirCache) (path : Path) : Bool × DirCache :=
  match fileName path, parent path with
  | some filename, some dir =>
      let (listing, cache) := cache.ensureDir host dir
      ((listing.lookup filename).isSome, cache)
  | _, _ => (false, cache)

/-- A file whose name differs from the one of `path` in blanks before AM or PM only. -/
def findAmpmVariant (host : Host) (cache : DirCache) (path : Path) : Option Path × DirCache :=
  match fileName path, parent path with
  | some filename, some dir =>
      if normalizeAmpm filename = filename then
        (none, cache)
      else
        let (listing, cache) := cache.ensureDir host dir
        ((listing.find? (fun entry =>
            entry.1 ≠ filename && normalizeAmpm entry.1 = normalizeAmpm filename)).map
          (fun entry => join (dir.foldl join "") entry.1), cache)
  | _, _ => (none, cache)

end DirCache

/-- `NormalizedPath::normalize`: the key under which a path is claimed. -/
def normalize (host : Host) (path : Path) : String :=
  match host.platform with
  | .linux => path
  | .macos | .windows => asciiLower path

end Kei.Download
