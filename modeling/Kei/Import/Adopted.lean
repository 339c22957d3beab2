import Kei.Import.Family

/-!
# Kei.Import.Adopted

Which files a run of the import records.

Each version gets the first file of its family, whatever the versions before
it have got.  So two versions share a file if and only if the first file of
their size is the same one in both families.
-/

namespace Kei.Import

open Str Download

variable {run : ImportRun} {listing : List String → Listing}

/-! ## what is looked for -/

/-- A version that is looked for. -/
structure Wanted where
  key : RowKey
  candidate : ImportPathCandidate
  allExpected : List DerivedPath

/-- The versions of an asset. -/
def wantedOf (run : ImportRun) (asset : PlannedAsset) : List Wanted :=
  let expected := run.expectedOf asset
  expected.map (fun d =>
    ⟨(asset.stateId, d.versionSize), ImportRun.candidateOf d, expected⟩)

/-- The assets before the first error of the stream. -/
def assetsOf (stream : List (Except String PlannedAsset)) : List PlannedAsset :=
  (stream.map Except.toOption).takeWhile (·.isSome) |>.filterMap id

/-- The first file of the family with the size of the version. -/
def Wanted.file (run : ImportRun) (listing : List String → Listing) (w : Wanted) : Option Path :=
  (firstOfSize w.candidate.expectedSize (family run.tree listing run.config.toDownloadConfig
    w.candidate w.allExpected w.key.1)).map (·.1)

/-- The rows of some versions, with the files they get. -/
def rowsOf (run : ImportRun) (listing : List String → Listing) (ws : List Wanted) :
    List (RowKey × Path) :=
  ws.filterMap (fun w => (w.file run listing).map (w.key, ·))

/-- The rows that a run has written or left, with their files. -/
def ImportState.recorded (state : ImportState) : List (RowKey × Path) :=
  state.adopted.map (fun adoption => (adoption.record.key, adoption.localPath)) ++ state.kept

/-! ## what a stretch of a run records -/

/-- Every call succeeds, and nothing was imported before. -/
structure ImportRun.Serves (run : ImportRun) : Prop where
  dryRun : run.options.dryRun = false
  notStrict : run.options.strictVerifier = none
  empty : ∀ key, run.importedIndex key = none
  hash : ∀ n, ∃ checksum, run.replies.computeSha256 n = .ok checksum
  row : ∀ n, run.replies.importAdopt n = .ok ()
  cancelled : ∀ n, run.replies.cancelled n = false

/-- A stretch of a run records some of these rows, or all of them if every call succeeds. -/
structure Records (run : ImportRun) (rows : List (RowKey × Path)) (s s' : ImportState) : Prop where
  listing : listingOf run.host s'.dirCache = listingOf run.host s.dirCache
  only : ∀ row ∈ s'.recorded, row ∈ s.recorded ∨ row ∈ rows
  every : run.Serves → ∀ row, row ∈ s.recorded ∨ row ∈ rows → row ∈ s'.recorded

variable {s s' : ImportState}

theorem Records.nothing (hcache : s'.dirCache = s.dirCache) (hrecorded : s'.recorded = s.recorded) :
    Records run [] s s' where
  listing := by rw [hcache]
  only row h := .inl (hrecorded ▸ h)
  every _ row h := by simpa [hrecorded] using h

theorem Records.trans {rows rows' : List (RowKey × Path)} {s₀ s₁ s₂ : ImportState}
    (h : Records run rows s₀ s₁) (h' : Records run rows' s₁ s₂) :
    Records run (rows ++ rows') s₀ s₂ where
  listing := h'.listing.trans h.listing
  only row hrow := by
    cases h'.only row hrow with
    | inl hearlier => simpa [or_assoc] using (h.only row hearlier).imp_right .inl
    | inr hlater => exact .inr (List.mem_append_right _ hlater)
  every hserves row hrow := by
    refine h'.every hserves row ?_
    simp only [List.mem_append, ← or_assoc] at hrow
    exact hrow.imp_left (h.every hserves row)

theorem Records.skipped {rows : List (RowKey × Path)} (hcache : s'.dirCache = s.dirCache)
    (hrecorded : s'.recorded = s.recorded) (hfails : ¬ run.Serves) : Records run rows s s' where
  listing := by rw [hcache]
  only row h := .inl (hrecorded ▸ h)
  every hserves := absurd hserves hfails

theorem Records.one {row : RowKey × Path} (hcache : s'.dirCache = s.dirCache)
    (hrecorded : ∀ other, other ∈ s'.recorded ↔ other ∈ s.recorded ∨ other = row) :
    Records run [row] s s' where
  listing := by rw [hcache]
  only other h := by simpa using (hrecorded other).mp h
  every _ other h := (hrecorded other).mpr (by simpa using h)

theorem adopt_records (asset : PlannedAsset) (d : DerivedPath) (path : Path)
    (metadata : Metadata) (state : ImportState) :
    Records run [((asset.stateId, d.versionSize), path)] state
      (run.adopt asset d path metadata state) := by
  unfold ImportRun.adopt
  cases hhash : run.replies.computeSha256 state.calls with
  | error err =>
      refine Records.skipped rfl rfl (fun hserves => ?_)
      obtain ⟨checksum, hchecksum⟩ := hserves.hash state.calls
      simp [hhash] at hchecksum
  | ok checksum =>
      cases hrow : run.replies.importAdopt state.calls with
      | error err =>
          refine Records.skipped rfl rfl (fun hserves => ?_)
          simp [hserves.row] at hrow
      | ok done =>
          refine Records.one rfl (fun other => ?_)
          simp only [ImportState.recorded, List.map_append, List.mem_append, List.map_cons,
            List.map_nil, List.mem_singleton]
          simp only [AssetRecord.key, ImportRun.newPending]
          grind

theorem importMatched_records (asset : PlannedAsset) (d : DerivedPath) (path : Path)
    (metadata : Metadata) (state : ImportState) :
    Records run [((asset.stateId, d.versionSize), path)] state
      (run.importMatched asset d path metadata state) := by
  unfold ImportRun.importMatched
  split
  · next hrefused =>
      refine Records.skipped rfl rfl (fun hserves => ?_)
      simp [ImportRun.verified, hserves.notStrict] at hrefused
  · split
    · next hdry =>
        refine Records.skipped rfl rfl (fun hserves => ?_)
        simp [hserves.dryRun] at hdry
    · split
      · refine Records.one rfl (fun other => ?_)
        simp only [ImportState.recorded, List.mem_append, List.mem_singleton, or_assoc]
      · exact adopt_records asset d path metadata state

theorem importVersion_records (asset : PlannedAsset) (expected : List DerivedPath)
    (state : ImportState) (d : DerivedPath) :
    Records run (rowsOf run (listingOf run.host state.dirCache)
      [⟨(asset.stateId, d.versionSize), ImportRun.candidateOf d, expected⟩]) state
      (run.importVersion asset expected state d) := by
  obtain ⟨hfound, hlisting⟩ := @resolveMatchPath_spec run.host run.tree state.dirCache
    run.config.toDownloadConfig (ImportRun.candidateOf d) expected asset.stateId
  unfold ImportRun.importVersion
  cases hmatch : resolveMatchPath run.host run.tree run.config.toDownloadConfig
      (ImportRun.candidateOf d) expected asset.stateId state.dirCache with
  | mk found dirCache =>
      rw [hmatch] at hfound hlisting
      cases found with
      | none =>
          have hrows : rowsOf run (listingOf run.host state.dirCache)
              [⟨(asset.stateId, d.versionSize), ImportRun.candidateOf d, expected⟩] = [] := by
            simp [rowsOf, Wanted.file, ← hfound]
          rw [hrows]
          exact ⟨hlisting, fun row h => .inl h, fun _ row h => h.resolve_right (by simp)⟩
      | some found =>
          have hrows : rowsOf run (listingOf run.host state.dirCache)
              [⟨(asset.stateId, d.versionSize), ImportRun.candidateOf d, expected⟩] =
                [((asset.stateId, d.versionSize), found.1)] := by
            simp [rowsOf, Wanted.file, ← hfound]
          rw [hrows]
          obtain ⟨hsame, honly, hevery⟩ := @importMatched_records run asset d found.1
            found.2 { state with dirCache := dirCache }
          exact ⟨hsame.trans hlisting, honly, hevery⟩

/-! ## runs -/

theorem rowsOf_append (ws ws' : List Wanted) :
    rowsOf run listing (ws ++ ws') = rowsOf run listing ws ++ rowsOf run listing ws' :=
  List.filterMap_append

theorem importVersions_records (asset : PlannedAsset) (expected ds : List DerivedPath)
    (state : ImportState) :
    Records run (rowsOf run (listingOf run.host state.dirCache) (ds.map (fun d =>
      ⟨(asset.stateId, d.versionSize), ImportRun.candidateOf d, expected⟩))) state
      (ds.foldl (run.importVersion asset expected) state) := by
  induction ds generalizing state with
  | nil => exact Records.nothing rfl rfl
  | cons d rest ih =>
      have hfirst := @importVersion_records run asset expected state d
      have hrest := ih (run.importVersion asset expected state d)
      rw [hfirst.listing] at hrest
      have hboth := hfirst.trans hrest
      rwa [← rowsOf_append] at hboth

theorem importAsset_records (asset : PlannedAsset) (state : ImportState) :
    Records run (rowsOf run (listingOf run.host state.dirCache) (wantedOf run asset)) state
      (run.importAsset asset state) := by
  unfold ImportRun.importAsset wantedOf
  dsimp only
  split
  · next hnone =>
      rw [List.isEmpty_iff.mp hnone]
      exact Records.nothing rfl rfl
  · obtain ⟨hlisting, honly, hevery⟩ := @importVersions_records run asset
      (run.expectedOf asset) (run.expectedOf asset)
      { state with stats := { state.stats with total := state.stats.total + 1 } }
    exact ⟨hlisting, honly, hevery⟩

theorem importStream_records (stream : List (Except String PlannedAsset)) (state : ImportState) :
    Records run (rowsOf run (listingOf run.host state.dirCache)
      ((assetsOf stream).flatMap (wantedOf run))) state (run.importStream stream state).2 := by
  induction stream generalizing state with
  | nil => exact Records.nothing rfl rfl
  | cons result rest ih =>
      unfold ImportRun.importStream
      split
      · next hcancelled =>
          refine Records.skipped rfl rfl (fun hserves => ?_)
          simp [hserves.cancelled] at hcancelled
      · cases result with
        | error message => exact Records.nothing rfl rfl
        | ok asset =>
            have hfirst := @importAsset_records run asset state
            have hrest := ih (run.importAsset asset state)
            rw [hfirst.listing] at hrest
            have hboth := hfirst.trans hrest
            rwa [← rowsOf_append] at hboth

/-! ## shared files -/

/-- No file is recorded for two keys. -/
def NoneShared (rows : List (RowKey × Path)) : Prop :=
  ∀ row ∈ rows, ∀ row' ∈ rows, components row.2 = components row'.2 → row.1 = row'.1

/-- No run shares a file that does not verify strictly, whatever is answered. -/
def SharesNone (run : ImportRun) (dirCache : DirCache)
    (stream : List (Except String PlannedAsset)) : Prop :=
  ∀ (options : ImportRunOptions) (replies : Replies) (panicked : Bool),
    options.strictVerifier = none →
      NoneShared ({ run with options := options, replies := replies }.importAssets stream panicked
        dirCache).2.recorded

/-- Versions with different keys have different first files of their size. -/
def OwnFiles (run : ImportRun) (dirCache : DirCache)
    (stream : List (Except String PlannedAsset)) : Prop :=
  let wanted := (assetsOf stream).flatMap (wantedOf run)
  let listing := listingOf run.host dirCache
  ∀ w ∈ wanted, ∀ w' ∈ wanted, ∀ path path', w.file run listing = some path →
    w'.file run listing = some path' → components path = components path' → w.key = w'.key

theorem noneShared_rowsOf {ws : List Wanted} : NoneShared (rowsOf run listing ws) ↔
    ∀ w ∈ ws, ∀ w' ∈ ws, ∀ path path', w.file run listing = some path →
      w'.file run listing = some path' → components path = components path' → w.key = w'.key := by
  have hrow : ∀ {row : RowKey × Path}, row ∈ rowsOf run listing ws ↔
      ∃ w ∈ ws, ∃ path, w.file run listing = some path ∧ (w.key, path) = row := by
    simp [rowsOf, List.mem_filterMap]
  constructor
  · intro h w hw w' hw' path path' hpath hpath' hsame
    exact h _ (hrow.mpr ⟨w, hw, path, hpath, rfl⟩) _ (hrow.mpr ⟨w', hw', path', hpath', rfl⟩) hsame
  · intro h row hmem row' hmem' hsame
    obtain ⟨w, hw, path, hpath, rfl⟩ := hrow.mp hmem
    obtain ⟨w', hw', path', hpath', rfl⟩ := hrow.mp hmem'
    exact h w hw w' hw' path path' hpath hpath' hsame

theorem importAssets_records (stream : List (Except String PlannedAsset)) (panicked : Bool)
    (dirCache : DirCache) : Records run (rowsOf run (listingOf run.host dirCache)
      ((assetsOf stream).flatMap (wantedOf run))) (.new dirCache)
      (run.importAssets stream panicked dirCache).2 := by
  have hstream := @importStream_records run stream (.new dirCache)
  unfold ImportRun.importAssets
  cases hrun : run.importStream stream (.new dirCache) with
  | mk result state =>
      rw [hrun] at hstream
      cases result <;> exact hstream

/-- Every call succeeds. -/
def allServed : Replies where
  getAllImportedRecords := .ok (fun _ => none)
  computeSha256 _ := .ok ""
  importAdopt _ := .ok ()
  cancelled _ := false

theorem ownFiles_of_sharesNone {dirCache : DirCache} {stream : List (Except String PlannedAsset)}
    (h : SharesNone run dirCache stream) : OwnFiles run dirCache stream := by
  let served : ImportRun := { run with options := ⟨false, none⟩, replies := allServed }
  have hserves : served.Serves :=
    ⟨rfl, rfl, fun _ => rfl, fun _ => ⟨_, rfl⟩, fun _ => rfl, fun _ => rfl⟩
  have hrecords := @importAssets_records served stream false dirCache
  refine noneShared_rowsOf.mp (fun row hrow row' hrow' hsame => ?_)
  exact h ⟨false, none⟩ allServed false rfl row (hrecords.every hserves row (.inr hrow)) row'
    (hrecords.every hserves row' (.inr hrow')) hsame

/--
**No file is recorded for two keys** if and only if versions with different
keys have different first files of their size.
-/
theorem sharesNone_iff (run : ImportRun) (dirCache : DirCache)
    (stream : List (Except String PlannedAsset)) :
    SharesNone run dirCache stream ↔ OwnFiles run dirCache stream := by
  refine ⟨ownFiles_of_sharesNone, fun h options replies panicked _ row hrow row' hrow' hsame => ?_⟩
  have hrecords := @importAssets_records { run with options := options, replies := replies }
    stream panicked dirCache
  have hwanted : ∀ row ∈ ({ run with options := options, replies := replies }.importAssets stream
      panicked dirCache).2.recorded, row ∈ rowsOf run (listingOf run.host dirCache)
        ((assetsOf stream).flatMap (wantedOf run)) := fun row hrow =>
    (hrecords.only row hrow).resolve_left (by simp [ImportState.recorded, ImportState.new])
  exact noneShared_rowsOf.mpr h row (hwanted row hrow) row' (hwanted row' hrow') hsame

/-! ## two photos of one name -/

/-- A disk with one file. -/
def oneFile (names : List String) (metadata : Metadata) : Tree where
  metadata path := if path = names then some metadata else none
  readDir _ := none

def plainRun : ImportRun where
  host := sampleHost
  tree := oneFile ["/", "photos", "IMG_0001.JPG"] ⟨10, none⟩
  config := samplePass
  libraryLabel := "PrimarySync"
  options := ⟨false, none⟩
  replies := allServed

/-- On a disk with one file, a version with its path and size gets this file. -/
theorem file_oneFile {names : List String} {metadata : Metadata} {w : Wanted}
    (htree : run.tree = oneFile names metadata) (hpath : components w.candidate.path = names)
    (hsize : w.candidate.expectedSize = metadata.len) :
    ∃ path, w.file run listing = some path ∧ components path = names := by
  have hfile : run.tree.metadata (components w.candidate.path) = some metadata := by
    simp [htree, oneFile, hpath]
  obtain ⟨file, hmem, hlen, -⟩ := @exact_mem_family run.tree listing run.config.toDownloadConfig
    w.candidate w.allExpected w.key.1 w.candidate.path metadata path_mem_importMatchCandidates hfile
  obtain ⟨found, hfound⟩ := exists_firstOfSize hmem (hlen.trans hsize.symm)
  refine ⟨found.1, by simp [Wanted.file, hfound], ?_⟩
  obtain ⟨other, hother, -, rfl⟩ := exists_of_firstOfSize hfound
  rcases mem_family hother with ⟨path, hnamed⟩ | ⟨path, hsibling⟩
  · have hmeta := metadata_of_mem_sightings hnamed
    by_contra hne
    simp [htree, oneFile, hne] at hmeta
  · unfold siblingSightings at hsibling
    split at hsibling <;> simp [htree, oneFile, siblingsAmong] at hsibling

theorem plainPhoto_A : (plainRun.expectedOf (samplePlanned "A")).map
    (fun d => (components d.path, d.size, d.versionSize)) =
      [(["/", "photos", "IMG_0001.JPG"], 10, .original)] := by decide +kernel

theorem plainPhoto_B : (plainRun.expectedOf (samplePlanned "B")).map
    (fun d => (components d.path, d.size, d.versionSize)) =
      [(["/", "photos", "IMG_0001.JPG"], 10, .original)] := by decide +kernel

theorem plainPhoto_file {id : String} (h : (plainRun.expectedOf (samplePlanned id)).map
    (fun d => (components d.path, d.size, d.versionSize)) =
      [(["/", "photos", "IMG_0001.JPG"], 10, .original)]) :
    ∃ w ∈ wantedOf plainRun (samplePlanned id), w.key = (id, .original) ∧
      ∃ path, w.file plainRun listing = some path ∧
        components path = ["/", "photos", "IMG_0001.JPG"] := by
  obtain ⟨d, hd, hvalues⟩ := List.map_eq_singleton_iff.mp h
  simp only [Prod.mk.injEq] at hvalues
  obtain ⟨hpath, hsize, hversion⟩ := hvalues
  refine ⟨⟨(id, d.versionSize), ImportRun.candidateOf d, [d]⟩, ?_, by rw [hversion],
    file_oneFile rfl hpath hsize⟩
  unfold wantedOf
  rw [hd]
  exact List.mem_singleton.mpr rfl

/-- **Two photos with one name and size share the file of one of them.** -/
theorem photos_share :
    ¬ SharesNone plainRun .new [.ok (samplePlanned "A"), .ok (samplePlanned "B")] := by
  intro h
  obtain ⟨w, hw, hkey, path, hpath, hnames⟩ :=
    @plainPhoto_file (listingOf plainRun.host .new) "A" plainPhoto_A
  obtain ⟨w', hw', hkey', path', hpath', hnames'⟩ :=
    @plainPhoto_file (listingOf plainRun.host .new) "B" plainPhoto_B
  have hwanted : ∀ v, v ∈ (assetsOf [.ok (samplePlanned "A"), .ok (samplePlanned "B")]).flatMap
      (wantedOf plainRun) ↔ v ∈ wantedOf plainRun (samplePlanned "A") ∨
        v ∈ wantedOf plainRun (samplePlanned "B") := fun v => by
    simp [assetsOf, Except.toOption]
  have hsame := ownFiles_of_sharesNone h w ((hwanted w).mpr (.inl hw)) w'
    ((hwanted w').mpr (.inr hw')) path path' hpath hpath' (hnames.trans hnames'.symm)
  rw [hkey, hkey'] at hsame
  simp at hsame

end Kei.Import
