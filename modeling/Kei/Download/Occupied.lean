import Kei.Download.Claims
import Kei.Download.Expected
import Kei.Download.Listings
import Mathlib.Data.List.Nodup

/-!
# Kei.Download.Occupied

What stands at the path of a version, and whose file that is.

The files of a directory come from earlier tasks, and `Holdings` keeps for each of
them the asset and the version it was placed for.  A version is skipped when
there is something at its path, whosever it is.
-/

namespace Kei.Download

open Str

/-! ## files and their owners -/

/-- An asset, by its state id, and a version of it. -/
abbrev FileKey := String × VersionSizeKey

def DownloadTask.key (task : DownloadTask) : FileKey := (task.assetId, task.versionSize)

/-- A file of an earlier task. -/
structure Placed where
  path : Path
  size : Nat
  owner : FileKey

/-- The disk, and the planner of the session with the tasks it has planned. -/
structure Holdings where
  files : List Placed
  claimedPaths : ClaimedPaths
  dirCache : DirCache
  planned : List DownloadTask

/-- The entries of a directory. -/
def entriesOf (files : List Placed) (dir : List String) : Listing :=
  files.filterMap (fun file =>
    if parent file.path = some dir then (fileName file.path).map (·, file.size) else none)

/-- The host, with the disk as it is. -/
def Holdings.host (disk : Holdings) (host : Host) : Host :=
  { host with readDirEntries := entriesOf disk.files }

def Holdings.empty : Holdings := ⟨[], fun _ => none, .new, []⟩

/-- No file has the path. -/
def NoFileAt (files : List Placed) (path : Path) : Prop :=
  ∀ file ∈ files, components file.path ≠ components path

/-- What happens to the disk and the planner. -/
inductive Holdings.Step (host : Host) (fuel : Nat) : Holdings → Holdings → Prop
  /-- A new session starts; some files may have gone. -/
  | session (disk : Holdings) (files : List Placed) (hsub : files.Sublist disk.files) :
      Step host fuel disk ⟨files, fun _ => none, .new, []⟩
  | plan (disk : Holdings) (asset : PhotoAsset) (config : DownloadConfig)
      (tasks : List DownloadTask) (claimedPaths : ClaimedPaths) (dirCache : DirCache)
      (h : filterAssetToTasks (disk.host host) fuel asset config disk.claimedPaths
        disk.dirCache = some (tasks, claimedPaths, dirCache)) :
      Step host fuel disk ⟨disk.files, claimedPaths, dirCache, disk.planned ++ tasks⟩
  /-- A task is finished: its file is put where none was, anywhere among the entries. -/
  | publish (disk : Holdings) (task : DownloadTask) (size : Nat) (before after : List Placed)
      (htask : task ∈ disk.planned) (hfiles : disk.files = before ++ after)
      (hfree : NoFileAt disk.files task.downloadPath) :
      Step host fuel disk { disk with
        files := before ++ ⟨task.downloadPath, size, task.key⟩ :: after }

/-- The states that downloads of the program lead to. -/
inductive Holdings.Reachable (host : Host) (fuel : Nat) : Holdings → Prop
  | empty : Reachable host fuel .empty
  | step {disk disk' : Holdings} : Reachable host fuel disk → Holdings.Step host fuel disk disk' →
      Reachable host fuel disk'

/-! ## what a version is skipped on -/

/-- The primary version, if the asset is planned at all. -/
def plannedPrimary (host : Host) (asset : PhotoAsset) (config : DownloadConfig) :
    Option DerivedPath :=
  if !asset.hasValidId || excludedByFallback host asset config then none
  else derivePrimary host asset config (.build host asset config)

def primaryStrategy (config : DownloadConfig) : CollisionStrategy :=
  match config.fileMatchPolicy with
  | .nameId7 => .skipIfExists
  | .nameSizeDedupWithSuffix => .sizeDedup true

/-- The version that is resolved to a skip, and the path it is skipped on.  The other versions
are searched another name (`resolve_sizeDedup`). -/
def skippedOn (host : Host) (fuel : Nat) (asset : PhotoAsset) (config : DownloadConfig)
    (claimedPaths : ClaimedPaths) (cache : DirCache) : Option (DerivedPath × Path) := do
  let d ← plannedPrimary host asset config
  let (resolution, _) ← resolveDownloadPath host fuel d.path d.size (primaryStrategy config)
    ⟨config, asset.createdLocal, claimedPaths⟩ cache d.checkAmpmOnDisk
    (sizeOrIdentityCollisionFilename d.filename d.size asset.stateId)
  match resolution with
  | .skip path => some (d, path)
  | .download _ => none

/-- What stands at a path: the file with its name, else the one whose name differs in the blank
before AM or PM, else a claim. -/
def occupant (host : Host) (claimedPaths : ClaimedPaths) (listing : List String → Listing)
    (path : Path) (checkAmpm : Bool) : Option Path :=
  if (listedSize listing path).isSome then some path
  else (if checkAmpm then listedVariant listing path else none).or
    (if (claimedPaths (normalize host path)).isSome then some path else none)

/-- The path is one of the file or, where there is no file, of the task. -/
def Holdings.Belongs (disk : Holdings) (host : Host) (path : Path) (key : FileKey) : Prop :=
  (∃ file ∈ disk.files, components file.path = components path ∧ file.owner = key) ∨
    NoFileAt disk.files path ∧
      ∃ task ∈ disk.planned, normalize host task.downloadPath = normalize host path ∧
        task.key = key

variable {host : Host} {fuel : Nat} {asset : PhotoAsset} {config : DownloadConfig}
  {claimedPaths : ClaimedPaths} {cache : DirCache}

/-! ## resolution, by the listings -/

@[simp] theorem listingOf_pathExists (path : Path) :
    listingOf host (cache.pathExists host path).2 = listingOf host cache := by
  rw [pathExists_eq]
  exact listingOf_fileSize path

theorem listingOf_availableCollisionPath {ctx : ResolveContext}
    {makeFilename : CollisionFilenameKind → String} {kind : CollisionFilenameKind}
    {tried : List String} :
    listingOf host (availableCollisionPath host ctx makeFilename kind cache tried).2.1 =
      listingOf host cache := by
  unfold availableCollisionPath
  dsimp only
  split
  · rfl
  · split <;> simp

variable {cache' : DirCache} {ctx : ResolveContext} {path : Path}

theorem listingOf_ordinalCollisionPath {makeFilename : CollisionFilenameKind → String}
    {ordinal : Nat} {tried : List String}
    (h : ordinalCollisionPath host ctx makeFilename fuel ordinal cache tried =
      some (path, cache')) : listingOf host cache' = listingOf host cache := by
  induction fuel generalizing ordinal cache tried with
  | zero => contradiction
  | succ fuel ih =>
      have hsame := @listingOf_availableCollisionPath host cache ctx makeFilename
        (.assetIdentityOrdinal ordinal) tried
      rw [ordinalCollisionPath] at h
      split at h
      · next heq =>
          rw [heq] at hsame
          cases h
          exact hsame
      · next heq =>
          rw [heq] at hsame
          exact (ih h).trans hsame

theorem listingOf_firstAvailableCollisionPath {preferred : CollisionFilenameKind}
    {makeFilename : CollisionFilenameKind → String}
    (h : firstAvailableCollisionPath host fuel ctx cache preferred makeFilename =
      some (path, cache')) : listingOf host cache' = listingOf host cache := by
  have hfirst := @listingOf_availableCollisionPath host cache ctx makeFilename preferred []
  unfold firstAvailableCollisionPath at h
  split at h
  · next heq =>
      rw [heq] at hfirst
      cases h
      exact hfirst
  · next cache₁ tried₁ heq =>
      rw [heq] at hfirst
      have hsecond := @listingOf_availableCollisionPath host cache₁ ctx makeFilename
        .assetIdentity tried₁
      split at h
      · next heq =>
          rw [heq] at hsecond
          cases h
          exact hsecond.trans hfirst
      · next heq =>
          rw [heq] at hsecond
          exact ((listingOf_ordinalCollisionPath h).trans hsecond).trans hfirst

theorem onDiskMatch_occupant (path : Path) (checkAmpm : Bool) :
    (onDiskMatch host cache path checkAmpm).1.map (·.2) =
        (if (listedSize (listingOf host cache) path).isSome then some path
          else if checkAmpm then listedVariant (listingOf host cache) path else none) ∧
      listingOf host (onDiskMatch host cache path checkAmpm).2 = listingOf host cache := by
  have hsize := @fileSize_fst host cache path
  have hlisting := @listingOf_fileSize host cache path
  unfold onDiskMatch
  rw [← hsize]
  split
  · next size cache₁ heq =>
      rw [heq] at hlisting
      simp [heq, hlisting]
  · next cache₁ heq =>
      rw [heq] at hlisting
      simp only [heq, Option.isSome_none, Bool.false_eq_true, if_false]
      cases checkAmpm with
      | false => simp [hlisting]
      | true =>
          have hvariant := @findAmpmVariant_fst host cache₁ path
          have hsame := @listingOf_findAmpmVariant host cache₁ path
          rw [hlisting] at hvariant hsame
          rw [← hvariant]
          simp only [if_true]
          split
          · next cache₂ heq₂ =>
              rw [heq₂] at hsame
              simp [heq₂, hsame]
          · next variant cache₂ heq₂ =>
              rw [heq₂] at hsame
              simp [heq₂, hsame]

theorem existingMatch_occupant (path : Path) (checkAmpm : Bool) :
    (existingMatch host claimedPaths cache path checkAmpm).1.map (·.2) =
        occupant host claimedPaths (listingOf host cache) path checkAmpm ∧
      listingOf host (existingMatch host claimedPaths cache path checkAmpm).2 =
        listingOf host cache := by
  obtain ⟨hdisk, hlisting⟩ := @onDiskMatch_occupant host cache path checkAmpm
  have hoccupant : occupant host claimedPaths (listingOf host cache) path checkAmpm =
      ((onDiskMatch host cache path checkAmpm).1.map (·.2)).or
        (if (claimedPaths (normalize host path)).isSome then some path else none) := by
    rw [hdisk, occupant]
    split <;> simp
  rw [hoccupant]
  unfold existingMatch
  split
  · next found cache₁ heq =>
      rw [heq] at hlisting
      simp [heq, hlisting]
  · next cache₁ heq =>
      rw [heq] at hlisting
      cases claimedPaths (normalize host path) <;> simp [heq, hlisting]

/-- **A version is skipped on what stands at its path**, when names tell files apart. -/
theorem resolveDownloadPath_skip {downloadPath path : Path} {versionSize : Nat}
    {strategy : CollisionStrategy} {ctx : ResolveContext} {checkAmpm : Bool}
    {makeCollisionFilename : CollisionFilenameKind → String} {cache : DirCache} :
    (∃ cache', resolveDownloadPath host fuel downloadPath versionSize strategy ctx cache checkAmpm
      makeCollisionFilename = some (.skip path, cache')) ↔
      strategy = .skipIfExists ∧ occupant host ctx.claimedPaths (listingOf host cache) downloadPath
        checkAmpm = some path := by
  have hoccupant := (@existingMatch_occupant host ctx.claimedPaths cache downloadPath checkAmpm).1
  rw [← hoccupant]
  unfold resolveDownloadPath
  cases hmatch : existingMatch host ctx.claimedPaths cache downloadPath checkAmpm with
  | mk found cache₁ =>
      cases found with
      | none => simp
      | some found =>
          cases strategy with
          | skipIfExists => simp
          | sizeDedup skipZeroSize => simp

theorem listingOf_resolveDownloadPath {downloadPath : Path} {versionSize : Nat}
    {strategy : CollisionStrategy} {checkAmpm : Bool}
    {makeCollisionFilename : CollisionFilenameKind → String} {cache cache' : DirCache}
    {resolution : PathResolution}
    (h : resolveDownloadPath host fuel downloadPath versionSize strategy ctx cache checkAmpm
      makeCollisionFilename = some (resolution, cache')) :
    listingOf host cache' = listingOf host cache := by
  have hlisting := (@existingMatch_occupant host ctx.claimedPaths cache downloadPath checkAmpm).2
  unfold resolveDownloadPath at h
  split at h
  · next heq =>
      rw [heq] at hlisting
      cases h
      exact hlisting
  · next heq =>
      rw [heq] at hlisting
      split at h
      · cases h
        exact hlisting
      · obtain ⟨⟨path, cache₂⟩, hfirst, hpair⟩ := Option.map_eq_some_iff.mp h
        cases hpair
        exact (listingOf_firstAvailableCollisionPath hfirst).trans hlisting

/-! ## what a stretch of filtering adds -/

/-- The listings stay, and what is claimed is claimed by a task. -/
structure Filtering.Traced (host : Host) (state state' : Filtering) : Prop where
  listing : listingOf host state'.cache = listingOf host state.cache
  tasks : state.tasks ⊆ state'.tasks
  claimed : ∀ key, (state'.claimedPaths key).isSome → (state.claimedPaths key).isSome ∨
    ∃ task ∈ state'.tasks, normalize host task.downloadPath = key

theorem Filtering.Traced.refl (state : Filtering) : Filtering.Traced host state state :=
  ⟨rfl, List.Subset.refl _, fun _ h => .inl h⟩

theorem Filtering.Traced.trans {a b c : Filtering} (hab : Filtering.Traced host a b)
    (hbc : Filtering.Traced host b c) : Filtering.Traced host a c := by
  refine ⟨hbc.listing.trans hab.listing, fun _ h => hbc.tasks (hab.tasks h), fun key h => ?_⟩
  rcases hbc.claimed key h with hb | hc
  · rcases hab.claimed key hb with ha | ⟨task, htask, hkey⟩
    · exact .inl ha
    · exact .inr ⟨task, hbc.tasks htask, hkey⟩
  · exact .inr hc

variable {d : DerivedPath}

theorem placeVersion_traced {state state' : Filtering} {strategy : CollisionStrategy}
    {makeCollisionFilename : CollisionFilenameKind → String} {resolution : PathResolution}
    (h : placeVersion host fuel asset config state d strategy makeCollisionFilename =
      some (resolution, state')) : Filtering.Traced host state state' := by
  unfold placeVersion at h
  obtain ⟨⟨resolution', cache⟩, hresolve, h⟩ := Option.bind_eq_some_iff.mp h
  have hlisting := listingOf_resolveDownloadPath hresolve
  dsimp only at h
  split at h
  · next path hpath =>
      cases h
      refine ⟨hlisting, List.subset_append_left _ _, fun key hkey => ?_⟩
      by_cases heq : key = normalize host path
      · exact .inr ⟨_, List.mem_append_right _ List.mem_cons_self, heq.symm⟩
      · simp only [Filtering.push, Function.update_of_ne heq] at hkey
        exact .inl hkey
  · cases h
    exact ⟨hlisting, List.Subset.refl _, fun _ hkey => .inl hkey⟩

variable {tasks : List DownloadTask}

theorem filterAssetToTasks_traced {claimedPaths' : ClaimedPaths}
    (h : filterAssetToTasks host fuel asset config claimedPaths cache =
      some (tasks, claimedPaths', cache')) :
    ∃ seenUrls, Filtering.Traced host ⟨[], [], claimedPaths, cache⟩
      ⟨tasks, seenUrls, claimedPaths', cache'⟩ :=
  filterAssetToTasks_rel Filtering.Traced.refl (fun _ _ _ => Filtering.Traced.trans)
    (fun _ _ _ _ _ _ _ => placeVersion_traced) h

/-! ## whose files there are -/

/-- Every file and every claim is known: it has one owner. -/
structure Holdings.Known (host : Host) (disk : Holdings) : Prop where
  apart : (disk.files.map (fun file => components file.path)).Nodup
  listed : ∀ dir, ∀ entry ∈ listingOf (disk.host host) disk.dirCache dir,
    ∃ file ∈ disk.files, parent file.path = some dir ∧ fileName file.path = some entry.1
  claimed : ∀ key, (disk.claimedPaths key).isSome →
    ∃ task ∈ disk.planned, normalize host task.downloadPath = key
  recorded : ∀ task ∈ disk.planned,
    (disk.claimedPaths (normalize host task.downloadPath)).isSome
  distinct : (disk.planned.map (fun task => normalize host task.downloadPath)).Nodup

theorem normalize_host (disk : Holdings) (path : Path) :
    normalize (disk.host host) path = normalize host path := rfl

theorem mem_entriesOf {files : List Placed} {dir : List String} {entry : String × Nat}
    (h : entry ∈ entriesOf files dir) :
    ∃ file ∈ files, parent file.path = some dir ∧ fileName file.path = some entry.1 := by
  obtain ⟨file, hfile, hentry⟩ := List.mem_filterMap.mp h
  split at hentry
  · next hdir =>
      obtain ⟨name, hname, rfl⟩ := Option.map_eq_some_iff.mp hentry
      exact ⟨file, hfile, hdir, hname⟩
  · cases hentry

theorem known_empty : Holdings.Known host .empty where
  apart := List.nodup_nil
  listed dir entry h := by
    simp [listingOf, Holdings.empty, DirCache.new, Holdings.host, entriesOf] at h
  claimed key h := by simp [Holdings.empty] at h
  recorded task h := by simp [Holdings.empty] at h
  distinct := List.nodup_nil

variable {disk : Holdings}

theorem known_session (hknown : Holdings.Known host disk) {files : List Placed}
    (hsub : files.Sublist disk.files) :
    Holdings.Known host ⟨files, fun _ => none, .new, []⟩ where
  apart := hknown.apart.sublist (hsub.map _)
  listed dir entry h := mem_entriesOf (by simpa [listingOf, DirCache.new, Holdings.host] using h)
  claimed key h := by simp at h
  recorded task h := by simp at h
  distinct := List.nodup_nil

theorem known_plan (hknown : Holdings.Known host disk) {claimedPaths : ClaimedPaths}
    {dirCache : DirCache}
    (h : filterAssetToTasks (disk.host host) fuel asset config disk.claimedPaths
      disk.dirCache = some (tasks, claimedPaths, dirCache)) :
    Holdings.Known host ⟨disk.files, claimedPaths, dirCache, disk.planned ++ tasks⟩ := by
  obtain ⟨_, hlisting, -, hclaimed⟩ := filterAssetToTasks_traced h
  have hclaims := filterAssetToTasks_claims h
  refine ⟨hknown.apart, fun dir entry hentry => ?_, fun key hkey => ?_, ?_, ?_⟩
  · refine hknown.listed dir entry ?_
    rw [← hlisting]
    exact hentry
  · rcases hclaimed key hkey with hold | ⟨task, htask, hpath⟩
    · obtain ⟨task, htask, hpath⟩ := hknown.claimed key hold
      exact ⟨task, List.mem_append_left _ htask, hpath⟩
    · exact ⟨task, List.mem_append_right _ htask, hpath⟩
  · rw [List.forall_mem_append]
    constructor
    · intro task htask
      obtain ⟨size, hsize⟩ := Option.isSome_iff_exists.mp (hknown.recorded task htask)
      exact Option.isSome_iff_exists.mpr ⟨size, hclaims.kept _ _ hsize⟩
    · intro task htask
      exact Option.isSome_iff_exists.mpr ⟨_, hclaims.recorded task htask⟩
  · rw [List.map_append]
    refine List.Nodup.append hknown.distinct hclaims.distinct ?_
    intro key hold hnew
    obtain ⟨task, htask, rfl⟩ := List.mem_map.mp hold
    obtain ⟨task', htask', heq⟩ := List.mem_map.mp hnew
    have hsome := hknown.recorded task htask
    rw [← heq, ← normalize_host disk, hclaims.unclaimed task' htask'] at hsome
    contradiction

theorem known_publish (hknown : Holdings.Known host disk) {task : DownloadTask} {size : Nat}
    {before after : List Placed} (hfiles : disk.files = before ++ after)
    (hfree : NoFileAt disk.files task.downloadPath) :
    Holdings.Known host { disk with
      files := before ++ ⟨task.downloadPath, size, task.key⟩ :: after } := by
  have hmem (file : Placed) (h : file ∈ disk.files) :
      file ∈ before ++ ⟨task.downloadPath, size, task.key⟩ :: after := by
    rw [hfiles, List.mem_append] at h
    rw [List.mem_append, List.mem_cons]
    tauto
  refine ⟨?_, fun dir entry hentry => ?_, hknown.claimed, hknown.recorded, hknown.distinct⟩
  · have hapart := hknown.apart
    rw [hfiles, List.map_append] at hapart
    rw [List.map_append, List.map_cons, List.nodup_middle, List.nodup_cons]
    refine ⟨fun h => ?_, hapart⟩
    rw [← List.map_append, ← hfiles] at h
    obtain ⟨file, hfile, heq⟩ := List.mem_map.mp h
    exact hfree file hfile heq
  · cases hdir : disk.dirCache.dirs dir with
    | none => exact mem_entriesOf (by simpa [listingOf, hdir, Holdings.host] using hentry)
    | some listing =>
        have hold : entry ∈ listingOf (disk.host host) disk.dirCache dir := by
          simpa [listingOf, hdir] using hentry
        obtain ⟨file, hfile, hplace⟩ := hknown.listed dir entry hold
        exact ⟨file, hmem file hfile, hplace⟩

/-- **In every state that downloads lead to, every file and every claim is known.** -/
theorem known_of_reachable (h : Holdings.Reachable host fuel disk) : Holdings.Known host disk := by
  induction h with
  | empty => exact known_empty
  | step _ hstep ih =>
      cases hstep with
      | session files hsub => exact known_session ih hsub
      | plan asset config tasks claimedPaths dirCache hplan => exact known_plan ih hplan
      | publish task size before after htask hfiles hfree => exact known_publish ih hfiles hfree

theorem belongs_unique (hknown : Holdings.Known host disk) {key key' : FileKey}
    (h : disk.Belongs host path key) (h' : disk.Belongs host path key') : key = key' := by
  rcases h with ⟨file, hfile, hpath, rfl⟩ | ⟨hapart, task, htask, hpath, rfl⟩
  · rcases h' with ⟨file', hfile', hpath', rfl⟩ | ⟨hapart, -⟩
    · rw [List.inj_on_of_nodup_map hknown.apart hfile hfile' (hpath.trans hpath'.symm)]
    · exact absurd hpath (hapart file hfile)
  · rcases h' with ⟨file', hfile', hpath', -⟩ | ⟨-, task', htask', hpath', rfl⟩
    · exact absurd hpath' (hapart file' hfile')
    · rw [List.inj_on_of_nodup_map hknown.distinct htask htask' (hpath.trans hpath'.symm)]

theorem exists_belongs (hknown : Holdings.Known host disk) {path taken : Path} {checkAmpm : Bool}
    (h : occupant (disk.host host) disk.claimedPaths
      (listingOf (disk.host host) disk.dirCache) path checkAmpm = some taken) :
    ∃ key, disk.Belongs host taken key := by
  unfold occupant at h
  split at h
  · next hlisted =>
      cases h
      unfold listedSize at hlisted
      split at hlisted
      · next filename dir hname hdir =>
          obtain ⟨entry, hentry, hsame⟩ := List.lookup_isSome_iff.mp hlisted
          obtain ⟨file, hfile, hfdir, hfname⟩ := hknown.listed dir entry hentry
          refine ⟨file.owner, .inl ⟨file, hfile, ?_, rfl⟩⟩
          rw [components_of_parent hfdir hfname, components_of_parent hdir hname,
            eq_of_beq hsame]
      · simp at hlisted
  · rcases Option.or_eq_some_iff.mp h with hvariant | ⟨-, hclaim⟩
    · split at hvariant
      · unfold listedVariant at hvariant
        split at hvariant
        · next filename dir hname hdir =>
            split at hvariant
            · cases hvariant
            · obtain ⟨entry, hentry, rfl⟩ := Option.map_eq_some_iff.mp hvariant
              obtain ⟨file, hfile, hfdir, hfname⟩ :=
                hknown.listed dir entry (List.mem_of_find?_eq_some hentry)
              refine ⟨file.owner, .inl ⟨file, hfile, ?_, rfl⟩⟩
              rw [components_of_parent hfdir hfname,
                components_joinDir hdir (plain_of_fileName hfname)]
        · cases hvariant
      · cases hvariant
    · split at hclaim
      · next hclaimed =>
          cases hclaim
          obtain ⟨task, htask, hpath⟩ := hknown.claimed _ hclaimed
          by_cases hapart : NoFileAt disk.files path
          · exact ⟨task.key, .inr ⟨hapart, task, htask, hpath, rfl⟩⟩
          · simp only [NoFileAt, not_forall, not_not] at hapart
            obtain ⟨file, hfile, hpath⟩ := hapart
            exact ⟨file.owner, .inl ⟨file, hfile, hpath, rfl⟩⟩
      · cases hclaim

/-! ## whose files versions are skipped on -/

theorem skippedOn_eq_some :
    skippedOn host fuel asset config claimedPaths cache = some (d, path) ↔
      plannedPrimary host asset config = some d ∧ config.fileMatchPolicy = .nameId7 ∧
        occupant host claimedPaths (listingOf host cache) d.path d.checkAmpmOnDisk =
          some path := by
  have hstrategy : primaryStrategy config = .skipIfExists ↔ config.fileMatchPolicy = .nameId7 := by
    unfold primaryStrategy
    cases config.fileMatchPolicy <;> simp
  unfold skippedOn
  cases hprimary : plannedPrimary host asset config with
  | none => simp
  | some d' =>
      have hskip (path : Path) := @resolveDownloadPath_skip host fuel d'.path path d'.size
        (primaryStrategy config) ⟨config, asset.createdLocal, claimedPaths⟩ d'.checkAmpmOnDisk
        (sizeOrIdentityCollisionFilename d'.filename d'.size asset.stateId) cache
      rw [hstrategy] at hskip
      simp only [Option.bind_eq_bind, Option.bind_some, Option.some.injEq]
      constructor
      · intro h
        obtain ⟨⟨resolution, cache'⟩, hresolve, h⟩ := Option.bind_eq_some_iff.mp h
        cases resolution with
        | download path' => cases h
        | skip path' =>
            cases h
            exact ⟨rfl, (hskip path).mp ⟨cache', hresolve⟩⟩
      · rintro ⟨rfl, hskipped⟩
        obtain ⟨cache', hresolve⟩ := (hskip path).mpr hskipped
        simp [hresolve]

theorem task_or_skipped {claimedPaths' : ClaimedPaths}
    (hnamed : excludedByFallback host asset config = false)
    (h : filterAssetToTasks host fuel asset config claimedPaths cache =
      some (tasks, claimedPaths', cache')) (hd : d ∈ deriveExpectedPaths host asset config) :
    (∃ task ∈ tasks, task.url = d.url) ∨
      ∃ d' path, skippedOn host fuel asset config claimedPaths cache = some (d', path) ∧
        d'.entry = d.entry := by
  have hvalid : asset.hasValidId = true := by
    by_contra hinvalid
    simp [deriveExpectedPaths, hinvalid] at hd
  have hplanned : (!asset.hasValidId || excludedByFallback host asset config) = false := by
    simp [hvalid, hnamed]
  have htask (e : Entry) (he : e ∈ tasks.map DownloadTask.entry) (hurl : e.url = d.url) :
      ∃ task ∈ tasks, task.url = d.url := by
    obtain ⟨task, htask, rfl⟩ := List.mem_map.mp he
    exact ⟨task, htask, hurl⟩
  have hentry := List.mem_map_of_mem (f := DerivedPath.entry) hd
  cases hprimary : derivePrimary host asset config (.build host asset config) with
  | none =>
      have hentries := filterAssetToTasks_entries hprimary hplanned h
      rw [deriveExpectedPaths_entries hvalid hprimary] at hentry
      exact .inl (htask d.entry (by rw [hentries]; exact hentry) rfl)
  | some p =>
      have hentries := filterAssetToTasks_entries hprimary hplanned h
      rw [deriveExpectedPaths_entries hvalid hprimary] at hentry
      cases hskips : skipsPrimary host config claimedPaths cache p with
      | false =>
          simp only [Option.filter_some, hskips, Bool.not_false, if_true] at hentries
          exact .inl (htask d.entry (by rw [hentries]; exact hentry) rfl)
      | true =>
          simp only [Option.filter_some, hskips, Bool.not_true, Bool.false_eq_true, if_false,
            Option.toList_none, List.map_nil, List.nil_append] at hentries
          rcases List.mem_append.mp hentry with hfirst | hother
          · right
            simp only [skipsPrimary, Bool.and_eq_true, decide_eq_true_eq] at hskips
            obtain ⟨hpolicy, hmatch⟩ := hskips
            obtain ⟨found, hfound⟩ := Option.isSome_iff_exists.mp hmatch
            refine ⟨p, found.2, skippedOn_eq_some.mpr ⟨?_, hpolicy, ?_⟩, ?_⟩
            · rw [plannedPrimary, hplanned, if_neg Bool.false_ne_true, hprimary]
            · rw [← (existingMatch_occupant _ _).1, hfound, Option.map_some]
            · exact (List.mem_singleton.mp hfirst).symm
          · left
            obtain ⟨e, he, hurl⟩ := exists_mem_unseen (mem_unseen hother).1
              (List.not_mem_nil (a := d.entry.url))
            exact htask e (by rw [hentries]; exact he) hurl

/-- No version of an asset is left out for a file of another asset or version. -/
structure Holdings.SkipsOwn (disk : Holdings) (host : Host) (fuel : Nat) (asset : PhotoAsset)
    (config : DownloadConfig) (tasks : List DownloadTask) : Prop where
  own : ∀ d path, skippedOn (disk.host host) fuel asset config disk.claimedPaths
    disk.dirCache = some (d, path) → disk.Belongs host path (asset.stateId, d.versionSize)
  planned : excludedByFallback (disk.host host) asset config = false →
    ∀ d ∈ deriveExpectedPaths (disk.host host) asset config,
      (∃ task ∈ tasks, task.url = d.url) ∨
        ∃ d' path, skippedOn (disk.host host) fuel asset config disk.claimedPaths
            disk.dirCache = some (d', path) ∧ d'.entry = d.entry ∧
          disk.Belongs host path (asset.stateId, d.versionSize)

/-- When names are to tell files apart, what stands at the path of the primary version is its
own file or task. -/
def Holdings.Clear (disk : Holdings) (host : Host) (asset : PhotoAsset) (config : DownloadConfig) :
    Prop :=
  config.fileMatchPolicy = .nameId7 → ∀ d, plannedPrimary (disk.host host) asset config = some d →
    ∀ path, occupant (disk.host host) disk.claimedPaths
      (listingOf (disk.host host) disk.dirCache) d.path d.checkAmpmOnDisk = some path →
    ∀ key, disk.Belongs host path key → key = (asset.stateId, d.versionSize)

/-- Two ids that are encoded with the same seven characters. -/
def prefixHost : Host :=
  { sampleHost with base64 := fun id => if id = "ABCDE1" then "QUJDREUx" else "QUJDREUy" }

def prefixPhoto (id : String) : PhotoAsset :=
  { samplePhoto id with filename := some "P.JPG" }

theorem prefixPhoto_run (disk : Holdings) (hdisk : disk = .empty) :
    ∃ tasks claimedPaths dirCache, filterAssetToTasks (disk.host prefixHost) 0
        (prefixPhoto "ABCDE1") twinConfig disk.claimedPaths disk.dirCache =
          some (tasks, claimedPaths, dirCache) ∧
      tasks.map (fun t => (t.downloadPath, t.key)) =
        [("/photos/P_QUJDREU.JPG", "ABCDE1", .original)] := by
  subst hdisk
  have hrun : (filterAssetToTasks (Holdings.empty.host prefixHost) 0 (prefixPhoto "ABCDE1")
      twinConfig Holdings.empty.claimedPaths Holdings.empty.dirCache).map
        (fun r => r.1.map (fun t => (t.downloadPath, t.key))) =
      some [("/photos/P_QUJDREU.JPG", "ABCDE1", .original)] := by decide +kernel
  obtain ⟨⟨tasks, claimedPaths, dirCache⟩, hresult, hpaths⟩ := Option.map_eq_some_iff.mp hrun
  exact ⟨tasks, claimedPaths, dirCache, hresult, hpaths⟩

/-- The disk with the file of the first photo. -/
def prefixDisk : Holdings :=
  ⟨[⟨"/photos/P_QUJDREU.JPG", 10, ("ABCDE1", .original)⟩], fun _ => none, .new, []⟩

theorem prefixDisk_reachable : Holdings.Reachable prefixHost 0 prefixDisk := by
  obtain ⟨tasks, claimedPaths, dirCache, hresult, hpaths⟩ := prefixPhoto_run .empty rfl
  have hmem : ("/photos/P_QUJDREU.JPG", "ABCDE1", VersionSizeKey.original) ∈
      tasks.map (fun t => (t.downloadPath, t.key)) := by
    rw [hpaths]
    exact List.mem_cons_self
  obtain ⟨task, htask, heq⟩ := List.mem_map.mp hmem
  obtain ⟨hpath, hkey⟩ := Prod.mk.injEq .. ▸ heq
  have hplan := Holdings.Step.plan .empty _ _ tasks claimedPaths dirCache hresult
  have hpublish := @Holdings.Step.publish prefixHost 0 ⟨[], claimedPaths, dirCache, [] ++ tasks⟩
    task 10 [] [] htask rfl (fun file h => by cases h)
  have hsession := @Holdings.Step.session prefixHost 0
    ⟨[⟨task.downloadPath, 10, task.key⟩], claimedPaths, dirCache, [] ++ tasks⟩ _
    (List.Sublist.refl _)
  rw [hpath, hkey] at hsession hpublish
  exact ((Holdings.Reachable.empty.step hplan).step hpublish).step hsession

end Kei.Download
