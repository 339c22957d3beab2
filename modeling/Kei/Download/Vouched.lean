import Kei.Download.CatalogPaths
import Kei.Download.Contained
import Kei.Download.Plannable

/-!
# Kei.Download.Vouched

What stands behind a row that path reconciliation marks as downloaded.

The copy hashes the bytes that it finds, and that hash becomes the checksum of
the row.  Neither is compared with what the row recorded.  So the files have to
be trusted from the start: a recorded file has the bytes it was recorded with,
the provider still offers the recorded version, and no copy comes to a path that
a row has recorded.
-/

namespace Kei.Download

open Str FullEnumeration Prog

/-! ## what a copy changes -/

namespace CopyReplies

variable {replies : CopyReplies} {land : LandHost} {source destination part : Path}
  {path : List String} {held : Option Content}

theorem keeps_check (succeeds : Bool) : Keeps (fun files : Files => files path = held)
    (check succeeds) := by
  unfold check
  exact Keeps.ite (fun _ => Keeps.pure ()) (fun _ => Keeps.halt ())

theorem keeps_computeSha256 (file : Path) : Keeps (fun files : Files => files path = held)
    (replies.computeSha256 land file) := by
  refine Keeps.bind (Keeps.of_snd fun files hfiles => ?_) (fun _ => Keeps.pure _)
  unfold readFile
  split <;> exact hfiles

theorem keeps_destinationHashIf (sourceHash : String) :
    Keeps (fun files : Files => files path = held)
      (replies.destinationHashIf land sourceHash destination) :=
  Keeps.bind (keeps_computeSha256 destination) (fun _ => Keeps.pure _)

/-- A copy to a free destination leaves every file but it and the temporary one. -/
theorem keeps_copyThroughPart (hpart : path ≠ components part)
    (hdest : path ≠ components destination) :
    Keeps (fun files : Files => files path = held)
      (replies.copyThroughPart land source destination part) := by
  have hremove : Keeps (fun files : Files => files path = held) (logRemove part) :=
    Keeps.modify fun files hfiles => by rwa [Function.update_of_ne hpart]
  have hcopy : Keeps (fun files : Files => files path = held) (replies.copyFile source part) := by
    refine Keeps.of_snd fun files hfiles => ?_
    unfold copyFile
    split
    · simpa [Function.update_of_ne hpart] using hfiles
    · exact hfiles
  have hpublish : Keeps (fun files : Files => files path = held)
      (replies.publishPartNoReplace part destination) := by
    refine Keeps.of_snd fun files hfiles => ?_
    have happears : (if replies.appears.isSome then
        Function.update files (components destination) replies.appears else files) path = held := by
      split
      · rwa [Function.update_of_ne hdest]
      · exact hfiles
    unfold publishPartNoReplace
    generalize (if replies.appears.isSome then
      Function.update files (components destination) replies.appears else files) = files'
      at happears ⊢
    dsimp only
    split
    · exact happears
    · split
      · simpa [Function.update_of_ne hpart, Function.update_of_ne hdest] using happears
      · exact happears
  refine Keeps.bind (keeps_check _) (fun _ => Keeps.bind hremove (fun _ => Keeps.bind hcopy
    (fun _ => Keeps.bind (keeps_computeSha256 source) (fun sourceHash =>
      Keeps.bind (keeps_computeSha256 part) (fun copiedHash => Keeps.ite
        (fun _ => Keeps.bind hremove (fun _ => Keeps.halt ()))
        (fun _ => Keeps.bind hpublish (fun publication => ?_)))))))
  cases publication with
  | published => exact Keeps.pure _
  | destinationExists =>
      exact Keeps.bind hremove (fun _ => keeps_destinationHashIf sourceHash)

/-- A copy leaves every file but the temporary one, and what is missing elsewhere. -/
theorem keeps_copyLocalFileNoReplace {tempSuffix : String}
    (hpart : path ≠ components (partPath destination tempSuffix))
    (hdest : held = none → path ≠ components destination) :
    Keeps (fun files : Files => files path = held)
      (replies.copyLocalFileNoReplace land source destination tempSuffix) := by
  refine Triple.bind (R := fun found files => files path = held ∧
      found = (files (components destination)).isSome) ?_ (fun found => Triple.ite (fun _ => ?_)
        (fun hfree => ?_))
  · exact Triple.bind (keeps_check _) (fun _ files hfiles => ⟨hfiles, rfl⟩)
  · exact Triple.strengthen_pre (Keeps.bind (keeps_computeSha256 source)
      (fun sourceHash => keeps_destinationHashIf sourceHash)) fun _ h => h.1
  · refine Triple.pre (p := path ≠ components destination) (fun files h heq => ?_)
      (fun hne => Triple.strengthen_pre (keeps_copyThroughPart hpart hne) fun _ h => h.1)
    have hnone : files (components destination) = none := by simpa [h.2] using hfree
    exact hdest (by rw [← h.1, heq, hnone]) heq

end CopyReplies

/-! ## the marks -/

/-- The bytes are the ones that the row recorded, if it recorded any. -/
def CatalogRow.Recorded (land : LandHost) (row : CatalogRow) (bytes : Content) : Prop :=
  ∀ checksum, row.localChecksum = some checksum → land.sha256 bytes = checksum

/-- The version that is planned is the one of the row. -/
def CatalogRow.Plans (row : CatalogRow) (task : DownloadTask) : Prop :=
  task.checksum = row.checksum ∧ task.size = row.sizeBytes

/-- The file had the recorded bytes when it was copied, and the version is the row's. -/
def CatalogMark.Vouched (land : LandHost) (m : CatalogMark) : Prop :=
  (∃ bytes, m.source = some bytes ∧ m.record.Recorded land bytes) ∧ m.record.Plans m.task

namespace Catalog

variable (catalog : Catalog)

/-- A task that may be planned after the answers of the provider, whatever is on the disk. -/
def MayPlan (task : DownloadTask) : Prop :=
  ∃ pass ∈ catalog.passes, ∃ stateId asset named,
    catalog.resolve stateId = .present asset named ∧
      ∃ d name, Plannable catalog.host asset.toPhotoAsset
          (catalog.withPass pass).toDownloadConfig d ∧ IsNameOf stateId d name ∧
        task = taskOf asset.toPhotoAsset (catalog.withPass pass).toDownloadConfig d
          (pathOf catalog.host (catalog.withPass pass).toDownloadConfig asset.createdLocal name)

/-- What a row recorded is still so: its file has the recorded bytes if it is there, the provider
offers the recorded version, and no copy comes to the path of the file. -/
structure Trusted (row : CatalogRow) : Prop where
  recorded : ∀ path, row.localPath = some path → ∀ bytes,
    catalog.files (components path) = some bytes → row.Recorded catalog.land bytes
  offered : ∀ asset named, catalog.resolve row.id = .present asset named → ∀ key version,
    (key, version) ∈ (applyRawPolicy asset.versions catalog.config.rawPolicy).iter →
      .from key = row.versionSize →
      version.checksum = row.checksum ∧ version.size = row.sizeBytes
  apart : ∀ path, row.localPath = some path → row.localChecksum.isSome →
    ∀ task, catalog.MayPlan task →
      components path ≠ components (CopyReplies.partPath task.downloadPath catalog.tempSuffix) ∧
        (catalog.files (components path) = none → row.target ≠ .fromTask task →
          components path ≠ components task.downloadPath)

variable {catalog} {replies : CatalogReplies} {task : DownloadTask} {row : CatalogRow}

/-! ## the planned tasks -/

/-- The tasks so far are ones that may be planned. -/
abbrev MayPlanAll (catalog : Catalog) (s : CatalogPlan) : Prop :=
  ∀ task ∈ s.tasks, catalog.MayPlan task

theorem mayPlan_takeTasks {config : PassConfig} {asset : PlannedAsset} {tasks : List DownloadTask}
    (htasks : ∀ task ∈ tasks, catalog.MayPlan task) :
    Keeps catalog.MayPlanAll (catalog.takeTasks replies config asset tasks) := by
  induction tasks with
  | nil => exact Keeps.pure ()
  | cons task tasks ih =>
      obtain ⟨htask, hrest⟩ := List.forall_mem_cons.mp htasks
      refine Keeps.bind (Keeps.bind (Keeps.of_snd fun s hs => ?_) (fun found => Keeps.ite
        (fun _ => Keeps.pure ()) (fun _ => Keeps.modify fun s hs => ?_))) (fun _ => ih hrest)
      · unfold isAtCurrentPath
        split
        · exact hs
        · split
          · exact hs
          · exact hs
      · split
        · exact hs
        · exact List.forall_mem_append.mpr ⟨hs, List.forall_mem_singleton.mpr htask⟩

theorem mayPlan_planPass {stateId : String} {asset : PlannedAsset}
    {named : asset.stateId = stateId} (hpresent : catalog.resolve stateId = .present asset named)
    {pass : AlbumPass} (hpass : pass ∈ catalog.passes) :
    Keeps catalog.MayPlanAll (catalog.planPass replies stateId asset pass) := by
  refine Keeps.ite (fun _ => ?_) (fun _ => Keeps.pure ())
  refine Triple.bind (R := fun plan s => catalog.MayPlanAll s ∧
    ∀ task ∈ plan.tasks, catalog.MayPlan task) (fun s hs => ?_) (fun plan =>
      Triple.pre (fun _ h => h.2) fun htasks => Triple.strengthen_pre
        (Keeps.ite (fun _ => mayPlan_takeTasks htasks) (fun _ => Keeps.pure ())) fun _ h => h.1)
  unfold planAsset
  cases hplan : s.taskPlanner.planAsset catalog.host catalog.fuel asset (catalog.withPass pass) with
  | none => exact hs
  | some planned =>
      refine ⟨hs, ?_⟩
      unfold TaskPlanner.planAsset at hplan
      split at hplan
      · cases hplan
        exact fun _ htask => nomatch htask
      · obtain ⟨⟨tasks, claimedPaths, dirCache⟩, hfilter, h⟩ := Option.bind_eq_some_iff.mp hplan
        cases h
        intro task htask
        obtain ⟨d, name, hd, hname, rfl⟩ := filterAssetToTasks_plannable hfilter task htask
        exact ⟨pass, hpass, stateId, asset, named, hpresent, d, name, hd, named ▸ hname, rfl⟩

theorem mayPlan_settleAll {stateIds : List String} {index : Nat} :
    Keeps catalog.MayPlanAll (catalog.settleAll replies stateIds index) := by
  have hdrop (stateId : String) : Keeps catalog.MayPlanAll (dropTargets stateId) :=
    Keeps.modify fun _ hs => hs
  induction stateIds generalizing index with
  | nil => exact Keeps.pure ()
  | cons stateId stateIds ih =>
      refine Keeps.ite (fun _ => Keeps.pure ()) (fun _ => Keeps.bind ?_ (fun _ => ih))
      unfold settle
      cases hresolve : catalog.resolve stateId with
      | present asset named =>
          refine Keeps.bind (hdrop stateId) (fun _ => ?_)
          have hpasses : ∀ passes, (∀ pass ∈ passes, pass ∈ catalog.passes) →
              Keeps catalog.MayPlanAll (catalog.planPasses replies stateId asset passes) := by
            intro passes hpasses
            induction passes with
            | nil => exact Keeps.pure ()
            | cons pass passes ih =>
                obtain ⟨hpass, hrest⟩ := List.forall_mem_cons.mp hpasses
                exact Keeps.bind (mayPlan_planPass hresolve hpass) (fun _ => ih hrest)
          exact hpasses _ (fun _ h => h)
      | deleted masterFamily =>
          exact Keeps.ite (fun _ => Keeps.bind (Keeps.modify fun _ hs => hs)
            (fun _ => hdrop stateId)) (fun _ => Keeps.halt _)
      | assetPresent => exact Keeps.pure ()
      | masterPresent => exact Keeps.pure ()
      | unknown => exact Keeps.pure ()
      | transientFailure => exact Keeps.pure ()

/-! ## the copies -/

theorem mem_of_recordByTarget {target : PendingRetryTarget}
    (h : catalog.recordByTarget target = some row) :
    row ∈ catalog.records ∧ row.target = target :=
  ⟨List.mem_of_find?_eq_some h, by simpa using List.find?_some h⟩

theorem trusted_plans (hrow : catalog.Trusted row) (htask : catalog.MayPlan task)
    (htarget : row.target = .fromTask task) : row.Plans task := by
  obtain ⟨pass, -, stateId, asset, named, hresolve, d, name, hd, -, rfl⟩ := htask
  obtain ⟨key, version, hversion, hsize, hchecksum, hbytes⟩ := hd.version
  have hid : row.id = stateId := (congrArg PendingRetryTarget.assetId htarget).trans named
  subst hid
  obtain ⟨hsum, hlen⟩ := hrow.offered asset named hresolve key version hversion
    (hsize.symm.trans (congrArg PendingRetryTarget.versionSize htarget).symm)
  exact ⟨hchecksum.trans hsum, hbytes.trans hlen⟩

/-- The recorded files are those of the start, and what was marked is vouched for. -/
structure Unspoilt (catalog : Catalog) (s : CatalogRun) : Prop where
  files : ∀ row, catalog.recordByTarget row.target = some row → row.localChecksum.isSome →
    ∀ path, row.localPath = some path →
      s.files (components path) = catalog.files (components path)
  marks : ∀ m ∈ s.marks, m.Vouched catalog.land

theorem unspoilt_copyFor (htrusted : ∀ row ∈ catalog.records, catalog.Trusted row)
    {taskReplies : TaskReplies} {path : Path} {s : CatalogRun} (hs : catalog.Unspoilt s)
    (htask : catalog.MayPlan task) (hrecord : catalog.recordByTarget (.fromTask task) = some row)
    (hpath : row.localPath = some path) (hthere : s.files (components path) ≠ none) :
    catalog.Unspoilt (catalog.copyFor replies taskReplies row task path s) := by
  obtain ⟨hmem, htarget⟩ := mem_of_recordByTarget hrecord
  have hrow := htrusted row hmem
  have hcopied : ∀ other, catalog.recordByTarget other.target = some other →
      other.localChecksum.isSome → ∀ file, other.localPath = some file →
      (taskReplies.copyLocalFileNoReplace catalog.land path task.downloadPath catalog.tempSuffix
        s.files).2 (components file) = catalog.files (components file) := by
    intro other hother hsome file hfile
    have hkept := hs.files other hother hsome file hfile
    obtain ⟨hpart, hdest⟩ :=
      (htrusted other (mem_of_recordByTarget hother).1).apart file hfile hsome task htask
    refine (CopyReplies.keeps_copyLocalFileNoReplace hpart fun hnone => hdest hnone ?_).snd hkept
    -- the own task of a missing file does not come to the copy
    intro hown
    rw [hown, hrecord] at hother
    cases hother
    obtain rfl : file = path := Option.some.inj (hfile.symm.trans hpath)
    exact hthere (hkept.trans hnone)
  have hvouched : CatalogMark.Vouched catalog.land ⟨row, task, s.files (components path)⟩ := by
    obtain ⟨bytes, hbytes⟩ := Option.ne_none_iff_exists'.mp hthere
    refine ⟨⟨bytes, hbytes, fun checksum hchecksum => ?_⟩, trusted_plans hrow htask htarget⟩
    have hsome : row.localChecksum.isSome := by rw [hchecksum]; rfl
    refine hrow.recorded path hpath bytes ?_ checksum hchecksum
    rw [← hs.files row (htarget ▸ hrecord) hsome path hpath, hbytes]
  unfold copyFor
  split
  · next localChecksum files heq =>
      rw [heq] at hcopied
      unfold markCopied
      split
      · exact ⟨hcopied, List.forall_mem_append.mpr
          ⟨hs.marks, List.forall_mem_singleton.mpr hvouched⟩⟩
      · exact ⟨hcopied, List.forall_mem_append.mpr
          ⟨hs.marks, List.forall_mem_singleton.mpr hvouched⟩⟩
      · exact ⟨hcopied, hs.marks⟩
  all_goals
    next heq =>
      rw [heq] at hcopied
      exact ⟨hcopied, hs.marks⟩

theorem unspoilt_runTask (htrusted : ∀ row ∈ catalog.records, catalog.Trusted row)
    {taskReplies : TaskReplies} {s : CatalogRun} (hs : catalog.Unspoilt s)
    (htask : catalog.MayPlan task) :
    catalog.Unspoilt (catalog.runTask replies taskReplies task s) := by
  have hrequeue : catalog.Unspoilt (requeueMissingCatalogFile taskReplies task s) := by
    unfold requeueMissingCatalogFile
    split <;> exact ⟨hs.files, hs.marks⟩
  unfold runTask
  split
  · exact hs
  · next row hrecord =>
      split
      · exact hrequeue
      · next path hpath =>
          split
          · exact ⟨hs.files, hs.marks⟩
          · split
            · exact hrequeue
            · next hthere =>
                exact unspoilt_copyFor htrusted hs htask hrecord hpath (by simpa using hthere)

theorem unspoilt_runTasks (htrusted : ∀ row ∈ catalog.records, catalog.Trusted row)
    {tasks : List DownloadTask} {index : Nat} {s : CatalogRun} (hs : catalog.Unspoilt s)
    (htasks : ∀ task ∈ tasks, catalog.MayPlan task) :
    catalog.Unspoilt (catalog.runTasks replies tasks index s) := by
  induction tasks generalizing index s with
  | nil => exact hs
  | cons task tasks ih =>
      obtain ⟨htask, hrest⟩ := List.forall_mem_cons.mp htasks
      exact ih (unspoilt_runTask htrusted hs htask) hrest

end Catalog

/-! ## an edited file -/

/-- There is one file, at `/old`. -/
def movedFiles (bytes : Content) : Files := fun path =>
  if path = ["/", "old", "IMG_0001.JPG"] then some bytes else none

def movedHost (bytes : Content) : Host :=
  { sampleHost with
    readDirEntries := fun dir =>
      if dir = ["/", "old"] then [("IMG_0001.JPG", bytes.length)] else [] }

theorem movedHost_listing (bytes : Content) (dir : List String) (name : String) :
    ((movedHost bytes).readDirEntries dir).lookup name =
      (movedFiles bytes (dir ++ [name])).map List.length := by
  have hpath : dir ++ [name] = ["/", "old", "IMG_0001.JPG"] ↔
      dir = ["/", "old"] ∧ name = "IMG_0001.JPG" := by
    show dir ++ [name] = ["/", "old"] ++ ["IMG_0001.JPG"] ↔ _
    exact List.append_singleton_inj
  simp only [movedHost, movedFiles, hpath]
  by_cases hdir : dir = ["/", "old"]
  · by_cases hname : name = "IMG_0001.JPG"
    · simp [hdir, hname]
    · have hbeq : (name == "IMG_0001.JPG") = false := by simpa using hname
      simp [hdir, hname, List.lookup_cons, hbeq]
  · simp [hdir]

def movedConfig : PassConfig :=
  { samplePass with directory := "/new", liveResolution_isLive := isLive_liveOriginal }

def movedPhoto : PlannedAsset :=
  { samplePlanned "m" with
    assetRecordName := "a"
    stateRecordName := some "a"
    versions := [(.original, ⟨3, "url", "public.jpeg", "sum"⟩)] }

/-- It was downloaded with the bytes `[1, 2, 3]`. -/
def movedRow : CatalogRow where
  library := "PrimarySync"
  id := "a"
  versionSize := .original
  checksum := "sum"
  filename := "IMG_0001.JPG"
  localPath := some "/old/IMG_0001.JPG"
  localChecksum := some (plainLandHost.sha256 [1, 2, 3])
  downloadChecksum := none
  downloadedAt := some 0
  sizeBytes := 3
  lastError := none
  status := .downloaded
  isDeleted := false

/-- The library was at `/old` and is to be at `/new`. -/
def movedCatalog (bytes : Content) (assetAlbums : List (String × String)) : Catalog where
  host := movedHost bytes
  land := plainLandHost
  fuel := 1
  config := movedConfig
  tempSuffix := ".kei-tmp"
  folderStructureForPass _ := "none"
  passes := [⟨.unfiled, "", none, []⟩]
  assets := ⟨[movedRow], List.nodup_singleton _⟩
  assetMasterMappings := [("a", "m")]
  assetAlbums := assetAlbums
  snapshotComplete _ := true
  resolve stateId :=
    if h : movedPhoto.stateId = stateId then .present movedPhoto h else .unknown
  files := movedFiles bytes
  listing := movedHost_listing bytes

/-- Every request succeeds. -/
def smoothly : CatalogReplies where
  pagesRead := true
  mapsRead := true
  readable _ := true
  deletionWritten _ := true
  shutdown := none
  task _ := ⟨⟨true, true, some, fun _ => true, none, true⟩, true, .done, true⟩
  now := 1

/-- The temporary file of a copy to `/new` is there too. -/
theorem partPath_new {name : String} (hdot : name ≠ ".") (hup : name ≠ "..") :
    ∃ part, components (CopyReplies.partPath (join "/new" (cleanFilename name)) ".kei-tmp") =
      ["/", "new", part] := by
  have hnormal := cleanFilename_normal hdot hup
  have hcomponents : components (join "/new" (cleanFilename name)) =
      ["/", "new"] ++ [cleanFilename name] := by
    rw [components_join hnormal.plain]
    rfl
  have hplain : Plain (cleanFilename name ++ ".kei-tmp" ++ "-reconcile") := by
    refine ⟨?_, ?_, ?_⟩
    · simpa using hnormal.plain.noSlash
    all_goals
      intro hempty
      have hlast := congrArg (·.toList.getLast?) hempty
      simp at hlast
  refine ⟨cleanFilename name ++ ".kei-tmp" ++ "-reconcile", ?_⟩
  unfold CopyReplies.partPath parentPath
  rw [parent_of_components hnormal.plain hcomponents,
    fileName_of_components hnormal.plain hnormal.notParent hcomponents]
  exact components_join hplain

theorem moved_name {d : DerivedPath} {name : String} (hname : IsNameOf "a" d name)
    (hd : d.filename = "IMG_0001.JPG") : name.toList.head? = some 'I' := by
  have hinsert (suffix : String) :
      (insertBeforeExtension "IMG_0001.JPG" suffix).toList.head? = some 'I' := by
    have hsplit : rsplitOnce '.' "IMG_0001.JPG" = some ("IMG_0001", "JPG") := by decide
    unfold insertBeforeExtension
    simp [hsplit]
  obtain rfl | ⟨kind, rfl⟩ := hname
  · rw [hd]
    decide
  · rw [hd]
    cases kind <;> exact hinsert _

/-- The file is as it was recorded. -/
theorem moved_trusted : ∀ row ∈ (movedCatalog [1, 2, 3] []).records,
    (movedCatalog [1, 2, 3] []).Trusted row := by
  have hrecords : (movedCatalog [1, 2, 3] []).records = [movedRow] := rfl
  have hpresent {stateId : String} {asset : PlannedAsset} {named : asset.stateId = stateId}
      (h : (movedCatalog [1, 2, 3] []).resolve stateId = .present asset named) :
      asset = movedPhoto := by
    simp only [movedCatalog] at h
    split at h
    · cases h
      rfl
    · cases h
  rw [hrecords, List.forall_mem_singleton]
  refine ⟨fun path hpath bytes hbytes checksum hchecksum => ?_,
    fun asset named hasset key version hversion _ => ?_, fun path hpath _ task htask => ?_⟩
  · cases hpath
    cases hbytes
    exact Option.some.inj hchecksum
  · rw [hpresent hasset] at hversion
    cases List.mem_singleton.mp hversion
    exact ⟨rfl, rfl⟩
  · cases hpath
    obtain ⟨pass, hpass, stateId, asset, named, hasset, d, name, hd, hname, rfl⟩ := htask
    obtain rfl := hpresent hasset
    cases List.mem_singleton.mp hpass
    cases named
    have hfilename : d.filename = "IMG_0001.JPG" := by
      cases hd with
      | primary hderive =>
          cases hderive
          decide +kernel
      | extra hmem => cases hmem
      | mov _ hderive => cases hderive
    have hhead := moved_name hname hfilename
    have hdot : name ≠ "." := fun h => by simp [h] at hhead
    have hup : name ≠ ".." := fun h => by simp [h] at hhead
    obtain ⟨part, hpart⟩ := partPath_new hdot hup
    refine ⟨?_, fun hnone => ?_⟩
    · show _ ≠ components (CopyReplies.partPath (join "/new" (cleanFilename name)) ".kei-tmp")
      rw [hpart]
      simp [show components "/old/IMG_0001.JPG" = ["/", "old", "IMG_0001.JPG"] from by decide]
    · cases hnone

end Kei.Download
