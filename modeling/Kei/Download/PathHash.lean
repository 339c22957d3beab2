import Kei.Download.Claims
import Kei.Download.ConfigHash
import Kei.Download.PassFolders

/-!
# Kei.Download.PathHash

What the hash of a download configuration says about the paths.

While the stored hash is that of the configuration, files are trusted to be where
they were downloaded to.  The directory and the templates are written with a NUL
after each, and nothing keeps a NUL out of them.
-/

namespace Kei.Download

open Str FullEnumeration Delimited

/-! ## what is hashed -/

def FileMatchPolicy.toU8 : FileMatchPolicy → UInt8
  | .nameSizeDedupWithSuffix => 0
  | .nameId7 => 1

def LivePhotoMovFilenamePolicy.toU8 : LivePhotoMovFilenamePolicy → UInt8
  | .suffix => 0
  | .original => 1

def pathDerivationHashVersion : UInt8 := 3

/-- `u32::to_le_bytes`. -/
def toLeBytes (n : UInt32) : List UInt8 :=
  [n.toUInt8, (n >>> 8).toUInt8, (n >>> 16).toUInt8, (n >>> 24).toUInt8]

def hashOptionalU32 : Option UInt32 → List UInt8
  | none => [0]
  | some n => 1 :: toLeBytes n

def RecentScope.bytes : RecentScope → List UInt8
  | .global => asBytes "global"
  | .perFilter => asBytes "per-filter"

/-- The directory and the templates, as they are written. -/
def RunConfig.folders (config : RunConfig) : List (List UInt8) :=
  [asBytes config.directory, asBytes config.folderStructure,
    asBytes config.folderStructureAlbums, asBytes config.folderStructureSmartFolders]

def hashSharedFields (version : UInt8) (config : RunConfig)
    (skipCreatedBefore skipCreatedAfter : Option CreatedDateFilter) : List UInt8 :=
  [version] ++ hashBytes (asBytes config.directory) ++ hashBytes (asBytes config.folderStructure) ++
    hashBytes (asBytes config.folderStructureAlbums) ++
    hashBytes (asBytes config.folderStructureSmartFolders) ++
    [config.resolution.toU8] ++ [config.liveResolution.toU8] ++ [config.fileMatchPolicy.toU8] ++
    [config.livePhotoMovFilenamePolicy.toU8] ++ [config.edited.toUInt8] ++
    [config.alternative.toUInt8] ++ [config.rawPolicy.toU8] ++
    [config.keepUnicodeInFilenames.toUInt8] ++
    hashOptionalCreatedDateFilter skipCreatedBefore ++
    hashOptionalCreatedDateFilter skipCreatedAfter ++
    [config.forceResolution.toUInt8] ++ [config.media.photos.toUInt8] ++
    [config.media.videos.toUInt8] ++ [config.media.livePhotos.toUInt8] ++
    [config.livePhotoMode.toU8] ++
    (config.filenameExclude.mergeSort (fun a b => a ≤ b)).flatMap
      (fun pattern => hashBytes (asBytes pattern))

def hashDownloadConfigWithDateBounds (config : RunConfig) (version : UInt8)
    (includeDateBounds : Bool) : List UInt8 :=
  let (skipCreatedBefore, skipCreatedAfter) :=
    if includeDateBounds then (config.skipCreatedBefore, config.skipCreatedAfter)
    else (none, none)
  hashSharedFields version config skipCreatedBefore skipCreatedAfter ++
    hashOptionalU32 config.recent ++
    (if config.recent.isSome then
      asBytes "recent_scope:" ++ config.recentScope.bytes ++ [0]
    else [])

/-- The bytes that `hash_download_config` feeds the hasher. -/
def downloadHashInput (config : RunConfig) : List UInt8 :=
  hashDownloadConfigWithDateBounds config pathDerivationHashVersion false

/-! ## settings are read back -/

/-- The settings between the templates and the patterns. -/
def pathSettingBytes (config : RunConfig) : List UInt8 :=
  [config.resolution.toU8, config.liveResolution.toU8, config.fileMatchPolicy.toU8,
    config.livePhotoMovFilenamePolicy.toU8, config.edited.toUInt8, config.alternative.toUInt8,
    config.rawPolicy.toU8, config.keepUnicodeInFilenames.toUInt8, 0, 0,
    config.forceResolution.toUInt8, config.media.photos.toUInt8, config.media.videos.toUInt8,
    config.media.livePhotos.toUInt8, config.livePhotoMode.toU8]

/-- What is written after them. -/
def eligibilityBytes (config : RunConfig) : List UInt8 :=
  (config.filenameExclude.mergeSort (fun a b => a ≤ b)).flatMap
      (fun pattern => hashBytes (asBytes pattern)) ++
    hashOptionalU32 config.recent ++
    (if config.recent.isSome then asBytes "recent_scope:" ++ config.recentScope.bytes ++ [0]
    else [])

theorem downloadHashInput_eq (config : RunConfig) :
    downloadHashInput config = pathDerivationHashVersion :: (terminated 0 config.folders ++
      (pathSettingBytes config ++ eligibilityBytes config)) := by
  have hdate : hashOptionalCreatedDateFilter none = [0] := rfl
  unfold downloadHashInput hashDownloadConfigWithDateBounds hashSharedFields eligibilityBytes
    pathSettingBytes RunConfig.folders RecentScope.bytes
  -- the bytes of the texts are not looked into
  generalize asBytes = encode
  simp only [hashBytes, hdate, terminated_cons, terminated_nil, Bool.false_eq_true, if_false,
    List.append_assoc, List.cons_append, List.nil_append]

theorem FileMatchPolicy.toU8_injective {a b : FileMatchPolicy} (h : a.toU8 = b.toU8) : a = b := by
  cases a <;> cases b <;> first | rfl | exact absurd h (by decide)

theorem LivePhotoMovFilenamePolicy.toU8_injective {a b : LivePhotoMovFilenamePolicy}
    (h : a.toU8 = b.toU8) : a = b := by
  cases a <;> cases b <;> first | rfl | exact absurd h (by decide)

/-- The settings that path derivation reads, apart from the library. -/
structure SamePathSettings (c d : RunConfig) : Prop where
  directory : c.directory = d.directory
  folderStructure : c.folderStructure = d.folderStructure
  folderStructureAlbums : c.folderStructureAlbums = d.folderStructureAlbums
  folderStructureSmartFolders : c.folderStructureSmartFolders = d.folderStructureSmartFolders
  resolution : c.resolution = d.resolution
  liveResolution : c.liveResolution = d.liveResolution
  fileMatchPolicy : c.fileMatchPolicy = d.fileMatchPolicy
  livePhotoMovFilenamePolicy : c.livePhotoMovFilenamePolicy = d.livePhotoMovFilenamePolicy
  edited : c.edited = d.edited
  alternative : c.alternative = d.alternative
  rawPolicy : c.rawPolicy = d.rawPolicy
  keepUnicodeInFilenames : c.keepUnicodeInFilenames = d.keepUnicodeInFilenames
  forceResolution : c.forceResolution = d.forceResolution
  livePhotoMode : c.livePhotoMode = d.livePhotoMode

/-- There is no NUL in the directory and the templates. -/
def RunConfig.NulFree (config : RunConfig) : Prop := ∀ text ∈ config.folders, 0 ∉ text

variable {c d : RunConfig}

/-- Words without a terminator in them end where they end, whatever comes after them. -/
theorem folders_of_input (h : downloadHashInput c = downloadHashInput d) (hc : c.NulFree)
    (hd : d.NulFree) : c.folders = d.folders := by
  rw [downloadHashInput_eq, downloadHashInput_eq, List.cons.injEq] at h
  simp only [RunConfig.NulFree, RunConfig.folders, List.forall_mem_cons] at hc hd
  simp only [RunConfig.folders, terminated_cons, terminated_nil, List.append_assoc,
    List.cons_append, List.nil_append] at h ⊢
  obtain ⟨hdirectory, h⟩ := word_inj hc.1 hd.1 h.2
  obtain ⟨hfolders, h⟩ := word_inj hc.2.1 hd.2.1 h
  obtain ⟨halbums, h⟩ := word_inj hc.2.2.1 hd.2.2.1 h
  obtain ⟨hsmart, -⟩ := word_inj hc.2.2.2.1 hd.2.2.2.1 h
  rw [hdirectory, hfolders, halbums, hsmart]

theorem samePathSettings_of_input (h : downloadHashInput c = downloadHashInput d)
    (hfolders : c.folders = d.folders) : SamePathSettings c d := by
  rw [downloadHashInput_eq, downloadHashInput_eq, List.cons.injEq, hfolders] at h
  have hsettings := (List.append_inj (List.append_cancel_left h.2) rfl).1
  simp only [pathSettingBytes, List.cons.injEq, and_true, true_and] at hsettings
  simp only [RunConfig.folders, List.cons.injEq, and_true] at hfolders
  obtain ⟨hresolution, hlive, hmatch, hmov, hedited, halternative, hraw, hunicode, hforce,
    -, -, -, hmode⟩ := hsettings
  exact {
    directory := asBytes_injective hfolders.1
    folderStructure := asBytes_injective hfolders.2.1
    folderStructureAlbums := asBytes_injective hfolders.2.2.1
    folderStructureSmartFolders := asBytes_injective hfolders.2.2.2
    resolution := PhotoResolution.toU8_injective hresolution
    liveResolution := AssetVersionSize.toU8_injective hlive
    fileMatchPolicy := FileMatchPolicy.toU8_injective hmatch
    livePhotoMovFilenamePolicy := LivePhotoMovFilenamePolicy.toU8_injective hmov
    edited := toUInt8_injective hedited
    alternative := toUInt8_injective halternative
    rawPolicy := RawPolicy.toU8_injective hraw
    keepUnicodeInFilenames := toUInt8_injective hunicode
    forceResolution := toUInt8_injective hforce
    livePhotoMode := LivePhotoMode.toU8_injective hmode }

/-! ## what the settings decide -/

/-- The patterns say which assets are taken, not where their files go. -/
theorem deriveExpectedPaths_exclude (host : Host) (asset : PhotoAsset) (config : DownloadConfig)
    (patterns : List String) :
    deriveExpectedPaths host asset { config with filenameExclude := patterns } =
      deriveExpectedPaths host asset config := rfl

/-- The configurations of a pass that the settings decide are the same but for the patterns. -/
theorem SamePathSettings.withPass (h : SamePathSettings c d) (hlibrary : c.library = d.library)
    (host : Host) (pass : AlbumPass) :
    (c.withPass host pass).toDownloadConfig =
      { (d.withPass host pass).toDownloadConfig with filenameExclude := c.filenameExclude } := by
  unfold RunConfig.withPass
  simp only [h.directory, h.folderStructure, h.folderStructureAlbums,
    h.folderStructureSmartFolders, h.resolution, h.liveResolution, h.fileMatchPolicy,
    h.livePhotoMovFilenamePolicy, h.edited, h.alternative, h.rawPolicy,
    h.keepUnicodeInFilenames, h.forceResolution, h.livePhotoMode, hlibrary]

/-- **Configurations with one hash input expect the same paths**, if they have the same directory
and templates, or none of these has a NUL in it. -/
theorem samePaths_of_input (host : Host) (c d : RunConfig)
    (h : downloadHashInput c = downloadHashInput d) (hlibrary : c.library = d.library)
    (hfolders : c.folders = d.folders ∨ (c.NulFree ∧ d.NulFree)) (pass : AlbumPass)
    (asset : PhotoAsset) :
    deriveExpectedPaths host asset (c.withPass host pass).toDownloadConfig =
      deriveExpectedPaths host asset (d.withPass host pass).toDownloadConfig := by
  have hsame : c.folders = d.folders := hfolders.elim id fun hfree =>
    folders_of_input h hfree.1 hfree.2
  rw [(samePathSettings_of_input h hsame).withPass hlibrary host pass,
    deriveExpectedPaths_exclude]

/-! ## a template with a NUL -/

/-- A configuration with these templates for the unfiled photos and the albums. -/
def folderConfig (folderStructure folderStructureAlbums : String) : RunConfig where
  __ := samplePass
  folderStructure := folderStructure
  folderStructureAlbums := folderStructureAlbums
  folderStructureSmartFolders := "d"
  recent := none
  recentScope := .global

/-- The pass of the photos that are in no album. -/
def unfiledPass : AlbumPass := ⟨.unfiled, "", none, []⟩

/-- The same folders, for the photos from some time on. -/
def datedConfig : RunConfig :=
  { folderConfig "a" "b" with skipCreatedBefore := some (.instant 0) }

/-- The day bounds are not hashed, and two configurations that differ there expect the same
paths. -/
theorem samePaths_of_input_plain :
    deriveExpectedPaths batchHost (batchPhoto "A" 10)
        ((folderConfig "a" "b").withPass batchHost unfiledPass).toDownloadConfig =
      deriveExpectedPaths batchHost (batchPhoto "A" 10)
        (datedConfig.withPass batchHost unfiledPass).toDownloadConfig := by
  refine samePaths_of_input batchHost _ datedConfig rfl rfl (.inr ⟨?_, ?_⟩) unfiledPass
    (batchPhoto "A" 10)
  all_goals
    unfold RunConfig.NulFree
    decide +kernel

/-- Two ways to read one hash input, with different directories for the unfiled photos. -/
theorem nul_moves_the_template :
    ¬ ∀ (host : Host) (c d : RunConfig), downloadHashInput c = downloadHashInput d →
      c.library = d.library → ∀ (pass : AlbumPass) (asset : PhotoAsset),
        deriveExpectedPaths host asset (c.withPass host pass).toDownloadConfig =
          deriveExpectedPaths host asset (d.withPass host pass).toDownloadConfig := by
  intro h
  have hinput : downloadHashInput (folderConfig "a\x00b" "c") =
      downloadHashInput (folderConfig "a" "b\x00c") := by decide +kernel
  have hpaths := congrArg (List.map DerivedPath.path)
    (h batchHost _ _ hinput rfl unfiledPass (batchPhoto "A" 10))
  have hleft : (deriveExpectedPaths batchHost (batchPhoto "A" 10)
      ((folderConfig "a\x00b" "c").withPass batchHost unfiledPass).toDownloadConfig).map
        DerivedPath.path = ["/photos/a_b/IMG_0001.JPG"] := by decide +kernel
  have hright : (deriveExpectedPaths batchHost (batchPhoto "A" 10)
      ((folderConfig "a" "b\x00c").withPass batchHost unfiledPass).toDownloadConfig).map
        DerivedPath.path = ["/photos/a/IMG_0001.JPG"] := by decide +kernel
  rw [hleft, hright] at hpaths
  exact absurd hpaths (by decide)

end Kei.Download
