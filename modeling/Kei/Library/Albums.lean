import Kei.Library

/-!
# Kei.Library.Albums

When no album and no smart folder is lost.

The map has the last record of each title.  Every folder has an album of its
own if every record is the last one of one title, and the smart folders are
left if none of these titles is the name of one.
-/

namespace Kei.Library

open Selection
open FullEnumeration (PassKind)

variable {library : PhotoLibrary} {folders : List PhotoStream.Record} {replies : FolderReplies}
  {albumMap : AlbumMap}

/-! ## pages -/

/-- The replies are these pages: all but the last one have a marker. -/
def Serves (replies : FolderReplies) : Nat → List (List PhotoStream.Record) → Prop
  | _, [] => False
  | page, [records] => ∃ query, replies page = .ok query ∧ query.records = records ∧
      query.hasMore = false
  | page, records :: rest => (∃ query, replies page = .ok query ∧ query.records = records ∧
      query.hasMore = true) ∧ Serves replies (page + 1) rest

/-- The folders come in pages, which are no more than are read. -/
def ServesFolders (replies : FolderReplies) (folders : List PhotoStream.Record) : Prop :=
  ∃ pages, Serves replies 0 pages ∧ pages.length ≤ folderPageCap ∧ pages.flatten = folders

theorem fetchFoldersFrom_served {pages : List (List PhotoStream.Record)} {page : Nat}
    (left : Nat) (allRecords : List PhotoStream.Record) (h : Serves replies page pages)
    (hleft : pages.length ≤ left) :
    fetchFoldersFrom replies left page allRecords = .ok (allRecords ++ pages.flatten) := by
  induction pages generalizing left page allRecords with
  | nil => exact h.elim
  | cons records rest ih =>
      obtain ⟨left, rfl⟩ : ∃ n, left = n + 1 := ⟨left - 1, by simp at hleft; omega⟩
      cases rest with
      | nil =>
          obtain ⟨query, hreply, rfl, hlast⟩ := h
          simp [fetchFoldersFrom, hreply, hlast]
      | cons next rest =>
          obtain ⟨⟨query, hreply, rfl, hmore⟩, hrest⟩ := h
          have hrec := ih left (allRecords ++ query.records) hrest (by simpa using hleft)
          simp [fetchFoldersFrom, hreply, hmore, hrec]

theorem fetchFolders_served (h : ServesFolders replies folders) :
    fetchFolders replies = .ok folders := by
  obtain ⟨pages, hpages, hcap, rfl⟩ := h
  simp [fetchFolders, fetchFoldersFrom_served _ _ hpages hcap]

/-! ## the map -/

/-- The folder record of a title, if the record is an album. -/
def titled (host : Host) (title : String) (folder : PhotoStream.Record) :
    Option PhotoStream.Record :=
  if isListed folder ∧ folderName host folder = title then some folder else none

/-- The last record with a title. -/
def lastTitled (host : Host) (folders : List PhotoStream.Record) (title : String) :
    Option PhotoStream.Record :=
  lastWrite (titled host title) folders

theorem lookup_insertFolder (folder : PhotoStream.Record) (title : String) :
    (library.insertFolder albumMap folder).lookup title =
      ((titled library.host title folder).map library.folderAlbum).or (albumMap.lookup title) := by
  unfold PhotoLibrary.insertFolder titled
  by_cases hlisted : isListed folder = true
  · by_cases htitle : folderName library.host folder = title
    · simp [hlisted, htitle, AList.lookup_insert]
    · have hne : title ≠ folderName library.host folder := fun h => htitle h.symm
      simp [hlisted, htitle, AList.lookup_insert_ne hne]
  · simp [hlisted]

theorem lookup_insertFolders (title : String) :
    (folders.foldl library.insertFolder albumMap).lookup title =
      ((lastTitled library.host folders title).map library.folderAlbum).or
        (albumMap.lookup title) := by
  induction folders generalizing albumMap with
  | nil => simp [lastTitled, lastWrite]
  | cons folder rest ih =>
      rw [List.foldl_cons, ih, lookup_insertFolder]
      simp only [lastTitled, lastWrite]
      cases lastWrite (titled library.host title) rest <;> simp

/-- The smart folders of a library. -/
def smartMap (library : PhotoLibrary) : AlbumMap :=
  smartFolders.foldl library.insertSmartFolder ∅

theorem lookup_smartMap {entry : String × FolderDef} (h : entry ∈ smartFolders) :
    (smartMap library).lookup entry.1 = some (library.smartAlbum entry.1 entry.2) := by
  simp only [smartFolders, List.mem_cons, List.not_mem_nil, or_false] at h
  rcases h with rfl | rfl | rfl | rfl | rfl | rfl | rfl | rfl | rfl | rfl <;> rfl

variable {album : PhotoAlbum} {title : String}

theorem smartFolders_containerId {entries : List (String × FolderDef)}
    (hbefore : ∀ album, albumMap.lookup title = some album → album.containerId = none)
    (h : (entries.foldl library.insertSmartFolder albumMap).lookup title = some album) :
    album.containerId = none := by
  induction entries generalizing albumMap with
  | nil => exact hbefore album h
  | cons entry rest ih =>
      refine ih (fun album halbum => ?_) h
      by_cases htitle : title = entry.1
      · subst htitle
        simp only [PhotoLibrary.insertSmartFolder, AList.lookup_insert, Option.some.injEq] at halbum
        rw [← halbum]
        rfl
      · rw [PhotoLibrary.insertSmartFolder, AList.lookup_insert_ne htitle] at halbum
        exact hbefore album halbum

theorem smartMap_containerId (h : (smartMap library).lookup title = some album) :
    album.containerId = none :=
  smartFolders_containerId (by simp) h

theorem albums_served (hzone : isSharedZone library.zoneName = false)
    (h : ServesFolders replies folders) :
    library.albums replies = .ok (folders.foldl library.insertFolder (smartMap library)) := by
  simp [PhotoLibrary.albums, hzone, fetchFolders_served h, Except.map, smartMap]

/-! ## what is kept -/

/-- No album and no smart folder is lost. -/
structure Keeps (library : PhotoLibrary) (folders : List PhotoStream.Record)
    (albumMap : AlbumMap) : Prop where
  /-- Every folder has one album. -/
  folder : ∀ folder ∈ folders, isListed folder = true → ∃! title, ∃ album,
    albumMap.lookup title = some album ∧ album.containerId = some folder.recordName
  /-- Every smart folder has its own query. -/
  smart : ∀ entry ∈ smartFolders,
    albumMap.lookup entry.1 = some (library.smartAlbum entry.1 entry.2)

/-- Every folder is the last one of one title, which is not the name of a smart folder. -/
def OneTitleEach (host : Host) (folders : List PhotoStream.Record) : Prop :=
  ∀ folder ∈ folders, isListed folder = true →
    folderName host folder ∉ smartFolderNames ∧
      ∃! title, (lastTitled host folders title).map (·.recordName) = some folder.recordName

/-- An album of a container is made of the last record of its title. -/
theorem container_iff {title containerId : String} :
    (∃ album, (folders.foldl library.insertFolder (smartMap library)).lookup title = some album ∧
      album.containerId = some containerId) ↔
      (lastTitled library.host folders title).map (·.recordName) = some containerId := by
  rw [lookup_insertFolders]
  cases lastTitled library.host folders title with
  | some folder =>
      simp only [Option.map_some, Option.some_or, Option.some.injEq]
      exact ⟨fun ⟨album, halbum, hid⟩ => by
          rw [← halbum] at hid
          simpa [PhotoLibrary.folderAlbum] using hid,
        fun hid => ⟨_, rfl, by simpa [PhotoLibrary.folderAlbum] using hid⟩⟩
  | none =>
      simp only [Option.map_none, Option.none_or, reduceCtorEq, iff_false, not_exists, not_and]
      intro album halbum
      simp [smartMap_containerId halbum]

theorem lastTitled_eq_none {host : Host} :
    lastTitled host folders title = none ↔
      ∀ folder ∈ folders, isListed folder = true → folderName host folder ≠ title := by
  simp [lastTitled, lastWrite_eq_none, titled]

theorem smart_iff {entry : String × FolderDef} (h : entry ∈ smartFolders) :
    (folders.foldl library.insertFolder (smartMap library)).lookup entry.1 =
        some (library.smartAlbum entry.1 entry.2) ↔
      lastTitled library.host folders entry.1 = none := by
  rw [lookup_insertFolders, lookup_smartMap h]
  cases lastTitled library.host folders entry.1 with
  | none => simp
  | some folder =>
      have hne : library.folderAlbum folder ≠ library.smartAlbum entry.1 entry.2 := fun heq => by
        have hid := congrArg PhotoAlbum.containerId heq
        simp [PhotoLibrary.folderAlbum, PhotoLibrary.smartAlbum] at hid
      simp [hne]

theorem keeps_iff :
    Keeps library folders (folders.foldl library.insertFolder (smartMap library)) ↔
      OneTitleEach library.host folders := by
  have hsmart : (∀ entry ∈ smartFolders, lastTitled library.host folders entry.1 = none) ↔
      ∀ folder ∈ folders, isListed folder = true →
        folderName library.host folder ∉ smartFolderNames := by
    simp only [lastTitled_eq_none, smartFolderNames, List.mem_map, not_exists, not_and]
    exact ⟨fun h folder hmem hlisted entry hentry heq =>
        h entry hentry folder hmem hlisted heq.symm,
      fun h entry hentry folder hmem hlisted heq => h folder hmem hlisted entry hentry heq.symm⟩
  refine ⟨fun h folder hmem hlisted => ⟨?_, ?_⟩, fun h => ⟨fun folder hmem hlisted => ?_, ?_⟩⟩
  · exact hsmart.mp (fun entry hentry => (smart_iff hentry).mp (h.smart entry hentry)) folder hmem
      hlisted
  · simpa only [container_iff] using h.folder folder hmem hlisted
  · simpa only [container_iff] using (h folder hmem hlisted).2
  · have hnone := hsmart.mpr (fun folder hmem hlisted => (h folder hmem hlisted).1)
    exact fun entry hentry => (smart_iff hentry).mpr (hnone entry hentry)

/-! ## passes -/

theorem drainName_extends (kind : PassKind) (sources : List String)
    (state : AlbumMap × List AlbumPass) (name : String) :
    state.2 <+: (drainName kind sources state name).2 := by
  unfold drainName
  cases state.1.lookup name <;> simp

theorem foldl_drainName_extends (kind : PassKind) (sources : List String)
    (state : AlbumMap × List AlbumPass) (names : List String) :
    state.2 <+: (names.foldl (drainName kind sources) state).2 := by
  induction names generalizing state with
  | nil => exact List.prefix_refl _
  | cons name rest ih => exact (drainName_extends kind sources state name).trans (ih _)

theorem drain_extends (names : List String) (kind : PassKind) (sources : List String)
    (state : AlbumMap × List AlbumPass) :
    state.2 <+: (drainNamedIntoPasses names kind sources state).2 :=
  foldl_drainName_extends kind sources state _

theorem mem_foldl_drainName {kind : PassKind} {sources : List String}
    {state : AlbumMap × List AlbumPass} {names : List String} {name : String} (hmem : name ∈ names)
    (hlookup : state.1.lookup name = some album) :
    AlbumPass.ofAlbum kind sources album ∈ (names.foldl (drainName kind sources) state).2 := by
  induction names generalizing state with
  | nil => simp at hmem
  | cons first rest ih =>
      by_cases hfirst : name = first
      · subst hfirst
        have hpass : AlbumPass.ofAlbum kind sources album ∈
            (drainName kind sources state name).2 := by
          simp [drainName, hlookup]
        exact (foldl_drainName_extends kind sources _ rest).subset hpass
      · refine ih (List.mem_of_ne_of_mem hfirst hmem) ?_
        unfold drainName
        cases state.1.lookup first with
        | none => exact hlookup
        | some other => simp [AList.lookup_erase_ne hfirst, hlookup]

theorem mem_drain {kind : PassKind} {sources : List String} {state : AlbumMap × List AlbumPass}
    {names : List String} {name : String} (hmem : name ∈ names)
    (hlookup : state.1.lookup name = some album) :
    AlbumPass.ofAlbum kind sources album ∈ (drainNamedIntoPasses names kind sources state).2 :=
  mem_foldl_drainName (List.mem_mergeSort.mpr hmem) hlookup

theorem ofAlbum_containerId (kind : PassKind) (sources : List String) (album : PhotoAlbum) :
    (AlbumPass.ofAlbum kind sources album).album.containerId = album.containerId := by
  unfold AlbumPass.ofAlbum
  split <;> rfl

theorem selectedAlbumNames_all (choice : Choice) (context : CollectionContext)
    (albumMap : AlbumMap) (hall : choice.albums = .all .empty) :
    selectedAlbumNames choice context albumMap = .ok (userAlbumNames albumMap) := by
  unfold selectedAlbumNames pickAlbumNames pickCollectionScopedAlbumNames
  split <;> simp [hall, bailUnknownExcluded]

/-- Every folder has an album pass, whatever else is selected, in the passes of all albums. -/
def PassForEach (library : PhotoLibrary) (replies : FolderReplies)
    (folders : List PhotoStream.Record) : Prop :=
  ∀ (choice : Choice) (scope : PassScope) (context : CollectionContext)
    (crossZoneLibraries : List String), choice.albums = .all .empty → scope.includeAlbums = true →
    ∃ passes, library.resolvePassesForScope replies choice scope context crossZoneLibraries =
        .ok passes ∧
      ∀ folder ∈ folders, isListed folder = true → ∃ pass ∈ passes, pass.kind = .album ∧
        pass.album.containerId = some folder.recordName

theorem passForEach_of_keeps (hmap : library.albums replies = .ok albumMap)
    (hkeeps : Keeps library folders albumMap) : PassForEach library replies folders := by
  intro choice scope context crossZoneLibraries hall hscope
  have halbums : choice.albums ≠ .none := by simp [hall]
  unfold PhotoLibrary.resolvePassesForScope
  simp only [hscope, halbums, ne_eq, not_false_eq_true, decide_true, Bool.and_self, Bool.true_or,
    PhotoLibrary.albumsIf, if_true, hmap, selectedAlbumNamesIf,
    selectedAlbumNames_all choice context albumMap hall, Fallible.ok_bind]
  refine ⟨_, rfl, fun folder hmem hlisted => ?_⟩
  obtain ⟨title, ⟨album, hlookup, hid⟩, -⟩ := hkeeps.folder folder hmem hlisted
  -- The title is not one of a smart folder, whose album has no container.
  have hname : title ∈ userAlbumNames albumMap := by
    have hkey : title ∈ albumMap.keys :=
      AList.mem_keys.mp (AList.lookup_isSome.mp (by rw [hlookup]; rfl))
    refine List.mem_filter.mpr ⟨hkey, ?_⟩
    simp only [decide_eq_true_eq, smartFolderNames, List.mem_map, not_exists, not_and]
    rintro entry hentry rfl
    have hsmart := hlookup.symm.trans (hkeeps.smart entry hentry)
    simp only [Option.some.injEq] at hsmart
    simp [hsmart, PhotoLibrary.smartAlbum] at hid
  have hpass : AlbumPass.ofAlbum .album (crossZoneLibraries.filter (· ≠ library.zoneName)) album ∈
      (drainNamedIntoPasses (userAlbumNames albumMap) .album
        (crossZoneLibraries.filter (· ≠ library.zoneName)) (albumMap, [])).2 :=
    mem_drain hname hlookup
  refine ⟨AlbumPass.ofAlbum .album (crossZoneLibraries.filter (· ≠ library.zoneName)) album, ?_,
    rfl, (ofAlbum_containerId _ _ _).trans hid⟩
  -- The later passes come after it.
  split
  · exact List.mem_append_left _ ((drain_extends _ PassKind.smartFolder [] _).subset hpass)
  · exact (drain_extends _ PassKind.smartFolder [] _).subset hpass

theorem mem_of_lastTitled {host : Host} {folder : PhotoStream.Record}
    (h : lastTitled host folders title = some folder) :
    folder ∈ folders ∧ isListed folder = true ∧ folderName host folder = title := by
  obtain ⟨found, hmem, hfound⟩ := exists_of_lastWrite h
  unfold titled at hfound
  split at hfound
  · rename_i hgood
    cases hfound
    exact ⟨hmem, hgood⟩
  · cases hfound

/-- The listed folders have titles of their own, and none is the name of a smart folder. -/
structure OwnTitles (host : Host) (folders : List PhotoStream.Record) : Prop where
  notSmart : ∀ folder ∈ folders, isListed folder = true → folderName host folder ∉ smartFolderNames
  nodup : ((folders.filter (isListed ·)).map (folderName host)).Nodup

/-- When no record comes twice, the condition is about the titles alone. -/
theorem oneTitleEach_iff_ownTitles {host : Host} (hnodup : (folders.map (·.recordName)).Nodup) :
    OneTitleEach host folders ↔ OwnTitles host folders := by
  have hrecords : ((folders.filter (isListed ·)).map (·.recordName)).Nodup :=
    hnodup.sublist (List.filter_sublist.map _)
  have hlisted : ∀ {folder}, folder ∈ folders.filter (isListed ·) ↔
      folder ∈ folders ∧ isListed folder = true := by simp
  constructor
  · intro h
    refine ⟨fun folder hmem hfolder => (h folder hmem hfolder).1,
      (List.nodup_map_iff_inj_on (List.Nodup.of_map _ hrecords)).mpr fun first hfirst second hsecond
        heq => ?_⟩
    -- Both are the last one of the title.
    have hlast : ∀ folder ∈ folders.filter (isListed ·),
        lastTitled host folders (folderName host folder) = some folder := fun folder hfolder => by
      obtain ⟨hmem, hgood⟩ := hlisted.mp hfolder
      obtain ⟨-, title, htitle, -⟩ := h folder hmem hgood
      obtain ⟨found, hfound, hname⟩ := Option.map_eq_some_iff.mp htitle
      obtain ⟨hfmem, hfgood, rfl⟩ := mem_of_lastTitled hfound
      obtain rfl := List.inj_on_of_nodup_map hrecords (hlisted.mpr ⟨hfmem, hfgood⟩) hfolder hname
      exact hfound
    have hsame := hlast first hfirst
    rw [heq, hlast second hsecond] at hsame
    exact (Option.some.inj hsame).symm
  · intro h folder hmem hgood
    have hfolder := hlisted.mpr ⟨hmem, hgood⟩
    refine ⟨h.notSmart folder hmem hgood, folderName host folder, ?_, fun title htitle => ?_⟩
    · cases hlast : lastTitled host folders (folderName host folder) with
      | none => exact absurd rfl (lastTitled_eq_none.mp hlast folder hmem hgood)
      | some found =>
          obtain ⟨hfmem, hfgood, hname⟩ := mem_of_lastTitled hlast
          have hsame : found = folder :=
            List.inj_on_of_nodup_map h.nodup (hlisted.mpr ⟨hfmem, hfgood⟩) hfolder hname
          exact Option.map_eq_some_iff.mpr ⟨found, hlast, by rw [hsame]⟩
    · obtain ⟨found, hfound, hname⟩ := Option.map_eq_some_iff.mp htitle
      obtain ⟨hfmem, hfgood, rfl⟩ := mem_of_lastTitled hfound
      rw [List.inj_on_of_nodup_map hrecords (hlisted.mpr ⟨hfmem, hfgood⟩) hfolder hname]

/-! ## the albums of a library -/

/-- No album and no smart folder is lost, and every album has its pass. -/
def LosesNothing (library : PhotoLibrary) (replies : FolderReplies)
    (folders : List PhotoStream.Record) : Prop :=
  (∃ albumMap, library.albums replies = .ok albumMap ∧ Keeps library folders albumMap) ∧
    PassForEach library replies folders

/--
**Nothing is lost** if and only if every folder is the last one of exactly one
title, and no title is the name of a smart folder.
-/
theorem albums_losesNothing_iff (library : PhotoLibrary) (replies : FolderReplies)
    (folders : List PhotoStream.Record) (hzone : isSharedZone library.zoneName = false)
    (hserved : ServesFolders replies folders) :
    LosesNothing library replies folders ↔ OneTitleEach library.host folders := by
  have hmap := albums_served hzone hserved
  constructor
  · rintro ⟨⟨albumMap, halbums, hkeeps⟩, -⟩
    rw [hmap] at halbums
    cases halbums
    exact keeps_iff.mp hkeeps
  · intro h
    have hkeeps := keeps_iff.mpr h
    exact ⟨⟨_, hmap, hkeeps⟩, passForEach_of_keeps hmap hkeeps⟩

/-! ## equal titles -/

/-- A folder with an encoded title. -/
def folderOf (recordName enc : String) : PhotoStream.Record :=
  ⟨recordName, "CPLAlbumByPositionLive",
    .object [("albumNameEnc", .object [("value", .string enc)])]⟩

def primary : PhotoLibrary where
  host := ⟨.linux, fun enc =>
    if enc = "VHJpcA==" then some "Trip".toUTF8
    else if enc = "QmVhY2g=" then some "Beach".toUTF8 else none⟩
  zoneName := "PrimarySync"

/-- All folders in one page. -/
def onePage (folders : List PhotoStream.Record) : FolderReplies := fun _ => .ok ⟨folders, none⟩

theorem onePage_serves (folders : List PhotoStream.Record) :
    ServesFolders (onePage folders) folders :=
  ⟨[folders], ⟨_, rfl, rfl, rfl⟩, by simp [folderPageCap], by simp⟩

theorem fromUTF8_toUTF8 (s : String) : String.fromUTF8? s.toUTF8 = some s := by
  simp [String.fromUTF8?, String.toUTF8, s.isValidUTF8]
  rfl

theorem folderName_titled {host : Host} {recordName enc title : String}
    (hdecode : host.decodeBase64 enc = some title.toUTF8) :
    folderName host (folderOf recordName enc) =
      Download.sanitizePathComponent host.platform title := by
  have henc : (Changes.fieldValue (folderOf recordName enc).fields "albumNameEnc").bind
      (·.asStr) = some enc := rfl
  simp only [folderName, henc, hdecode, Option.getD_some, fromUTF8_toUTF8]

theorem isListed_folderOf {recordName enc : String} (hroot : recordName ≠ rootFolder)
    (hproject : recordName ≠ projectRootFolder) : isListed (folderOf recordName enc) = true := by
  have hdeleted : (Changes.fieldValue (folderOf recordName enc).fields "isDeleted").bind
      (·.asBool) = none := rfl
  simp only [isListed, hdeleted]
  simp [folderOf, hroot, hproject]

theorem folderName_trip (recordName : String) :
    folderName primary.host (folderOf recordName "VHJpcA==") = "Trip" := by
  have hclean : Download.sanitizePathComponent .linux "Trip" = "Trip" := by decide
  exact (folderName_titled (by simp [primary])).trans hclean

theorem folderName_beach (recordName : String) :
    folderName primary.host (folderOf recordName "QmVhY2g=") = "Beach" := by
  have hclean : Download.sanitizePathComponent .linux "Beach" = "Beach" := by decide
  exact (folderName_titled (by simp [primary])).trans hclean

/-- With two titles nothing is lost. -/
theorem trip_and_beach :
    LosesNothing primary (onePage [folderOf "A" "VHJpcA==", folderOf "B" "QmVhY2g="])
      [folderOf "A" "VHJpcA==", folderOf "B" "QmVhY2g="] := by
  refine (albums_losesNothing_iff primary _ _ (by decide) (onePage_serves _)).mpr ?_
  refine (oneTitleEach_iff_ownTitles (by simp [folderOf])).mpr ⟨?_, ?_⟩
  · simp [folderName_trip, folderName_beach, smartFolderNames, smartFolders]
  · have hA : isListed (folderOf "A" "VHJpcA==") = true := isListed_folderOf (by decide) (by decide)
    have hB : isListed (folderOf "B" "QmVhY2g=") = true := isListed_folderOf (by decide) (by decide)
    rw [List.filter_cons_of_pos hA, List.filter_cons_of_pos hB]
    simp [folderName_trip, folderName_beach]

/-- **The first of two albums of one title is lost.** -/
theorem trip_twice_lost :
    ¬ LosesNothing primary (onePage [folderOf "A" "VHJpcA==", folderOf "B" "VHJpcA=="])
      [folderOf "A" "VHJpcA==", folderOf "B" "VHJpcA=="] := by
  rintro ⟨⟨albumMap, halbums, hkeeps⟩, -⟩
  rw [albums_served (by decide) (onePage_serves _)] at halbums
  cases halbums
  have hown := (oneTitleEach_iff_ownTitles (by simp [folderOf])).mp (keeps_iff.mp hkeeps)
  have hnodup := hown.nodup
  have hA : isListed (folderOf "A" "VHJpcA==") = true := isListed_folderOf (by decide) (by decide)
  have hB : isListed (folderOf "B" "VHJpcA==") = true := isListed_folderOf (by decide) (by decide)
  rw [List.filter_cons_of_pos hA, List.filter_cons_of_pos hB] at hnodup
  simp [folderName_trip] at hnodup

end Kei.Library
