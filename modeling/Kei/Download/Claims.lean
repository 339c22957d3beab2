import Kei.Download.Filter

/-!
# Kei.Download.Claims

The paths of a batch of tasks: each one is new when it is given out, is claimed
from then on, and is not in the listing of its directory.

One record, `Claims`, says this of a stretch of filtering.  It holds of the
placement of one version and two stretches put together have it again, so it
holds of an asset and of a batch.
-/

namespace Kei.Download

variable {host : Host} {fuel : Nat}

/-! ## listings -/

/-- Listings that were read stay as they are. -/
def DirCache.Grows (cache cache' : DirCache) : Prop :=
  ∀ dir listing, cache.dirs dir = some listing → cache'.dirs dir = some listing

theorem DirCache.Grows.refl (cache : DirCache) : cache.Grows cache := fun _ _ h => h

theorem DirCache.Grows.trans {a b c : DirCache} (hab : a.Grows b) (hbc : b.Grows c) :
    a.Grows c := fun dir listing h => hbc dir listing (hab dir listing h)

/-- The listing of the directory was read, and the path is not in it. -/
def DirCache.Unlisted (cache : DirCache) (path : Path) : Prop :=
  ∀ filename dir, fileName path = some filename → parent path = some dir →
    ∃ listing, cache.dirs dir = some listing ∧ listing.lookup filename = none

variable {cache cache' : DirCache} {path : Path}

theorem DirCache.Unlisted.mono (h : cache.Unlisted path) (hgrows : cache.Grows cache') :
    cache'.Unlisted path := by
  intro filename dir hname hdir
  obtain ⟨listing, hlisting, hnone⟩ := h filename dir hname hdir
  exact ⟨listing, hgrows dir listing hlisting, hnone⟩

theorem ensureDir_spec (host : Host) (cache : DirCache) (dir : List String) :
    cache.Grows (cache.ensureDir host dir).2 ∧
      (cache.ensureDir host dir).2.dirs dir = some (cache.ensureDir host dir).1 := by
  unfold DirCache.ensureDir
  cases hdir : cache.dirs dir with
  | some listing => exact ⟨DirCache.Grows.refl cache, hdir⟩
  | none =>
      refine ⟨fun dir' listing' h => ?_, ?_⟩
      · have hne : dir' ≠ dir := by
          rintro rfl
          rw [hdir] at h
          contradiction
        simpa [Function.update_of_ne hne] using h
      · simp

theorem fileSize_spec (host : Host) (cache : DirCache) (path : Path) :
    cache.Grows (cache.fileSize host path).2 ∧
      ((cache.fileSize host path).1 = none → (cache.fileSize host path).2.Unlisted path) := by
  unfold DirCache.fileSize
  cases hname : fileName path with
  | none =>
      refine ⟨DirCache.Grows.refl cache, fun _ filename dir h => ?_⟩
      rw [hname] at h
      contradiction
  | some filename =>
      cases hdir : parent path with
      | none =>
          refine ⟨DirCache.Grows.refl cache, fun _ _ dir _ h => ?_⟩
          rw [hdir] at h
          contradiction
      | some dir =>
          obtain ⟨hgrows, hread⟩ := ensureDir_spec host cache dir
          refine ⟨hgrows, fun hnone filename' dir' hname' hdir' => ?_⟩
          rw [hname] at hname'
          rw [hdir] at hdir'
          cases hname'
          cases hdir'
          exact ⟨_, hread, hnone⟩

theorem pathExists_eq (host : Host) (cache : DirCache) (path : Path) :
    cache.pathExists host path =
      ((cache.fileSize host path).1.isSome, (cache.fileSize host path).2) := by
  unfold DirCache.pathExists DirCache.fileSize
  cases fileName path with
  | none => rfl
  | some filename =>
      cases parent path with
      | none => rfl
      | some dir => rfl

theorem findAmpmVariant_grows (host : Host) (cache : DirCache) (path : Path) :
    cache.Grows (cache.findAmpmVariant host path).2 := by
  unfold DirCache.findAmpmVariant
  split
  · next filename dir _ _ =>
      split
      · exact DirCache.Grows.refl cache
      · exact (ensureDir_spec host cache dir).1
  · exact DirCache.Grows.refl cache

/-! ## resolution -/

/-- The path is new: unlisted and unclaimed. -/
structure Fresh (host : Host) (claimedPaths : ClaimedPaths) (cache : DirCache) (path : Path) :
    Prop where
  unlisted : cache.Unlisted path
  unclaimed : claimedPaths (normalize host path) = none

variable {makeFilename : CollisionFilenameKind → String} {ctx : ResolveContext}

theorem availableCollisionPath_spec {kind : CollisionFilenameKind} {tried tried' : List String}
    {found : Option Path}
    (h : availableCollisionPath host ctx makeFilename kind cache tried = (found, cache', tried')) :
    cache.Grows cache' ∧ ∀ path, found = some path → Fresh host ctx.claimedPaths cache' path := by
  unfold availableCollisionPath at h
  generalize pathOf host ctx.config ctx.createdLocal (makeFilename kind) = path at h
  dsimp only at h
  split at h
  · cases h
    exact ⟨DirCache.Grows.refl cache, fun _ h => by contradiction⟩
  · obtain ⟨hgrows, hnone⟩ := fileSize_spec host cache path
    rw [pathExists_eq] at h
    split at h
    · cases h
      exact ⟨hgrows, fun _ h => by contradiction⟩
    · next hfree =>
        rw [Bool.or_eq_true, not_or, Bool.not_eq_true, Bool.not_eq_true] at hfree
        cases h
        refine ⟨hgrows, fun path' h => ?_⟩
        cases h
        exact ⟨hnone (Option.isSome_eq_false_iff.mp hfree.1 |> Option.isNone_iff_eq_none.mp),
          Option.isNone_iff_eq_none.mp (Option.isSome_eq_false_iff.mp hfree.2)⟩

theorem ordinalCollisionPath_spec {ordinal : Nat} {tried : List String}
    (h : ordinalCollisionPath host ctx makeFilename fuel ordinal cache tried =
      some (path, cache')) : cache.Grows cache' ∧ Fresh host ctx.claimedPaths cache' path := by
  induction fuel generalizing ordinal cache tried with
  | zero => contradiction
  | succ fuel ih =>
      rw [ordinalCollisionPath] at h
      cases havail : availableCollisionPath host ctx makeFilename (.assetIdentityOrdinal ordinal)
        cache tried with
      | mk found rest =>
          obtain ⟨cache₁, tried₁⟩ := rest
          obtain ⟨hgrows, hfresh⟩ := availableCollisionPath_spec havail
          rw [havail] at h
          cases found with
          | some path₁ =>
              cases h
              exact ⟨hgrows, hfresh path rfl⟩
          | none =>
              obtain ⟨hgrows', hfresh'⟩ := ih h
              exact ⟨hgrows.trans hgrows', hfresh'⟩

theorem firstAvailableCollisionPath_spec {preferred : CollisionFilenameKind}
    (h : firstAvailableCollisionPath host fuel ctx cache preferred makeFilename =
      some (path, cache')) : cache.Grows cache' ∧ Fresh host ctx.claimedPaths cache' path := by
  unfold firstAvailableCollisionPath at h
  cases hfirst : availableCollisionPath host ctx makeFilename preferred cache [] with
  | mk found rest =>
      obtain ⟨cache₁, tried₁⟩ := rest
      obtain ⟨hgrows₁, hfresh₁⟩ := availableCollisionPath_spec hfirst
      rw [hfirst] at h
      cases found with
      | some path₁ =>
          cases h
          exact ⟨hgrows₁, hfresh₁ path rfl⟩
      | none =>
          dsimp only at h
          cases hsecond : availableCollisionPath host ctx makeFilename .assetIdentity cache₁
            tried₁ with
          | mk found rest =>
              obtain ⟨cache₂, tried₂⟩ := rest
              obtain ⟨hgrows₂, hfresh₂⟩ := availableCollisionPath_spec hsecond
              rw [hsecond] at h
              cases found with
              | some path₂ =>
                  cases h
                  exact ⟨hgrows₁.trans hgrows₂, hfresh₂ path rfl⟩
              | none =>
                  obtain ⟨hgrows₃, hfresh₃⟩ := ordinalCollisionPath_spec h
                  exact ⟨(hgrows₁.trans hgrows₂).trans hgrows₃, hfresh₃⟩

theorem onDiskMatch_spec (host : Host) (cache : DirCache) (path : Path) (checkAmpm : Bool) :
    cache.Grows (onDiskMatch host cache path checkAmpm).2 ∧
      ((onDiskMatch host cache path checkAmpm).1 = none →
        (onDiskMatch host cache path checkAmpm).2.Unlisted path) := by
  obtain ⟨hgrows, hnone⟩ := fileSize_spec host cache path
  unfold onDiskMatch
  cases hsize : cache.fileSize host path with
  | mk size cache₁ =>
      rw [hsize] at hgrows hnone
      cases size with
      | some size => exact ⟨hgrows, fun h => by contradiction⟩
      | none =>
          have hunlisted := hnone rfl
          cases checkAmpm with
          | false => exact ⟨hgrows, fun _ => hunlisted⟩
          | true =>
              have hampm := findAmpmVariant_grows host cache₁ path
              dsimp only
              cases hvariant : cache₁.findAmpmVariant host path with
              | mk variant cache₂ =>
                  rw [hvariant] at hampm
                  cases variant with
                  | none => exact ⟨hgrows.trans hampm, fun _ => hunlisted.mono hampm⟩
                  | some variant =>
                      exact ⟨(hgrows.trans hampm).trans (fileSize_spec host cache₂ variant).1,
                        fun h => by contradiction⟩

theorem existingMatch_spec (host : Host) (claimedPaths : ClaimedPaths) (cache : DirCache)
    (path : Path) (checkAmpm : Bool) :
    cache.Grows (existingMatch host claimedPaths cache path checkAmpm).2 ∧
      ((existingMatch host claimedPaths cache path checkAmpm).1 = none →
        Fresh host claimedPaths (existingMatch host claimedPaths cache path checkAmpm).2 path) := by
  obtain ⟨hgrows, hnone⟩ := onDiskMatch_spec host cache path checkAmpm
  unfold existingMatch
  cases hdisk : onDiskMatch host cache path checkAmpm with
  | mk found cache₁ =>
      rw [hdisk] at hgrows hnone
      cases found with
      | some found => exact ⟨hgrows, fun h => by contradiction⟩
      | none =>
          refine ⟨hgrows, fun h => ⟨hnone rfl, ?_⟩⟩
          exact Option.map_eq_none_iff.mp h

theorem resolveDownloadPath_spec {downloadPath : Path} {versionSize : Nat}
    {strategy : CollisionStrategy} {checkAmpm : Bool}
    {makeCollisionFilename : CollisionFilenameKind → String} {resolution : PathResolution}
    (h : resolveDownloadPath host fuel downloadPath versionSize strategy ctx cache checkAmpm
      makeCollisionFilename = some (resolution, cache')) :
    cache.Grows cache' ∧ ∀ path, resolution.downloadPath = some path →
      Fresh host ctx.claimedPaths cache' path := by
  obtain ⟨hgrows, hnone⟩ := existingMatch_spec host ctx.claimedPaths cache downloadPath checkAmpm
  unfold resolveDownloadPath at h
  cases hmatch : existingMatch host ctx.claimedPaths cache downloadPath checkAmpm with
  | mk found cache₁ =>
      rw [hmatch] at h hgrows hnone
      cases found with
      | none =>
          cases h
          refine ⟨hgrows, fun path h => ?_⟩
          cases h
          exact hnone rfl
      | some found =>
          cases strategy with
          | skipIfExists =>
              cases h
              exact ⟨hgrows, fun path h => by contradiction⟩
          | sizeDedup skipZeroSize =>
              obtain ⟨⟨path, cache₂⟩, hfirst, heq⟩ := Option.map_eq_some_iff.mp h
              obtain ⟨hgrows₂, hfresh⟩ := firstAvailableCollisionPath_spec hfirst
              cases heq
              refine ⟨hgrows.trans hgrows₂, fun path h => ?_⟩
              cases h
              exact hfresh

/-! ## the placements of an asset -/

variable {claimedPaths claimedPaths' : ClaimedPaths} {tasks : List DownloadTask}

/-- A version that filtering may place, with its strategy and its names; the movie is named after
what the photo got. -/
inductive Placing (host : Host) (fuel : Nat) (asset : PhotoAsset) (config : DownloadConfig)
    (claimedPaths : ClaimedPaths) (cache : DirCache) (seenUrls : List String) :
    DerivedPath → CollisionStrategy → (CollisionFilenameKind → String) → Prop
  | primary {d : DerivedPath} (hnone : seenUrls = [])
      (hderive : derivePrimary host asset config (.build host asset config) = some d) :
      Placing host fuel asset config claimedPaths cache seenUrls d
        (match config.fileMatchPolicy with
          | .nameId7 => .skipIfExists
          | .nameSizeDedupWithSuffix => .sizeDedup true)
        (sizeOrIdentityCollisionFilename d.filename d.size asset.stateId)
  | extra {d : DerivedPath} {derive : List String → Option DerivedPath}
      (hkind : derive ∈ [deriveEditedExtra host asset config (.build host asset config),
        deriveAlternativeExtra host asset config (.build host asset config),
        deriveLiveEditedExtra host asset config (.build host asset config)])
      (hderive : derive seenUrls = some d) :
      Placing host fuel asset config claimedPaths cache seenUrls d (.sizeDedup true)
        (sizeOrIdentityCollisionFilename d.filename d.size asset.stateId)
  | mov {d : DerivedPath} {name : Option String} {state : Filtering} (hnew : d.url ∉ seenUrls)
      (hprimary : placePrimary host fuel asset config ⟨[], [], claimedPaths, cache⟩
        (derivePrimary host asset config (.build host asset config)) = some (name, state))
      (hderive : deriveMovCompanion host asset config (.build host asset config) name = some d) :
      Placing host fuel asset config claimedPaths cache seenUrls d (.sizeDedup false)
        (identityCollisionFilename d.filename asset.stateId)

/-- **A relation that each placement of a version has, an asset has**: filtering is a sequence
of placements. -/
theorem filterAssetToTasks_rel {asset : PhotoAsset} {config : DownloadConfig}
    {R : Filtering → Filtering → Prop} (hrefl : ∀ s, R s s)
    (htrans : ∀ a b c, R a b → R b c → R a c)
    (hplace : ∀ state d strategy makeCollisionFilename resolution state',
      Placing host fuel asset config claimedPaths cache state.seenUrls d strategy
        makeCollisionFilename →
      placeVersion host fuel asset config state d strategy makeCollisionFilename =
        some (resolution, state') → R state state')
    (h : filterAssetToTasks host fuel asset config claimedPaths cache =
      some (tasks, claimedPaths', cache')) :
    ∃ seenUrls, R ⟨[], [], claimedPaths, cache⟩ ⟨tasks, seenUrls, claimedPaths', cache'⟩ := by
  have hextra (state state' : Filtering) (derive : List String → Option DerivedPath)
      (hkind : derive ∈ [deriveEditedExtra host asset config (.build host asset config),
        deriveAlternativeExtra host asset config (.build host asset config),
        deriveLiveEditedExtra host asset config (.build host asset config)])
      (h : placeExtra host fuel asset config state derive = some state') : R state state' := by
    unfold placeExtra at h
    cases hderive : derive state.seenUrls with
    | none =>
        rw [hderive] at h
        cases h
        exact hrefl state
    | some d =>
        rw [hderive] at h
        obtain ⟨⟨resolution, state₁⟩, hplaced, rfl⟩ := Option.map_eq_some_iff.mp h
        exact hplace _ _ _ _ _ _ (.extra hkind hderive) hplaced
  unfold filterAssetToTasks at h
  split at h
  · cases h
    exact ⟨[], hrefl _⟩
  · obtain ⟨⟨filename, s₁⟩, hprimary, h⟩ := Option.bind_eq_some_iff.mp h
    obtain ⟨s₂, hedited, h⟩ := Option.bind_eq_some_iff.mp h
    obtain ⟨s₃, halternative, h⟩ := Option.bind_eq_some_iff.mp h
    obtain ⟨s₄, hliveEdited, h⟩ := Option.bind_eq_some_iff.mp h
    obtain ⟨s₅, hmov, h⟩ := Option.bind_eq_some_iff.mp h
    cases h
    have hfirst : R ⟨[], [], claimedPaths, cache⟩ s₁ := by
      unfold placePrimary at hprimary
      split at hprimary
      · cases hprimary
        exact hrefl _
      · next d hderive =>
          obtain ⟨⟨resolution, state₁⟩, hplaced, heq⟩ := Option.bind_eq_some_iff.mp hprimary
          cases heq
          exact hplace _ _ _ _ _ _ (.primary rfl hderive) hplaced
    have hlast : R s₄ s₅ := by
      unfold placeMov at hmov
      split at hmov
      · cases hmov
        exact hrefl _
      · next d hderive =>
          split at hmov
          · cases hmov
            exact hrefl _
          · next hnew =>
              obtain ⟨⟨resolution, state₁⟩, hplaced, rfl⟩ := Option.map_eq_some_iff.mp hmov
              exact hplace _ _ _ _ _ _ (.mov (by simpa using hnew) hprimary hderive) hplaced
    exact ⟨s₅.seenUrls, htrans _ _ _ hfirst (htrans _ _ _ (hextra _ _ _ (by simp) hedited)
      (htrans _ _ _ (hextra _ _ _ (by simp) halternative)
        (htrans _ _ _ (hextra _ _ _ (by simp) hliveEdited) hlast)))⟩

/-! ## claims -/

/-- What a stretch of filtering that adds `tasks` does to the claims and the listings. -/
structure Claims (host : Host) (claimedPaths : ClaimedPaths) (cache : DirCache)
    (tasks : List DownloadTask) (claimedPaths' : ClaimedPaths) (cache' : DirCache) : Prop where
  grows : cache.Grows cache'
  kept : ∀ key size, claimedPaths key = some size → claimedPaths' key = some size
  unclaimed : ∀ task ∈ tasks, claimedPaths (normalize host task.downloadPath) = none
  distinct : (tasks.map (fun task => normalize host task.downloadPath)).Nodup
  recorded : ∀ task ∈ tasks,
    claimedPaths' (normalize host task.downloadPath) = some task.size
  unlisted : ∀ task ∈ tasks, cache'.Unlisted task.downloadPath

theorem Claims.nil {claimedPaths : ClaimedPaths} (hgrows : cache.Grows cache') :
    Claims host claimedPaths cache [] claimedPaths cache' := by
  refine ⟨hgrows, fun _ _ h => h, ?_, List.nodup_nil, ?_, ?_⟩ <;>
    exact fun _ h => absurd h List.not_mem_nil

theorem Claims.append {c c' c'' : ClaimedPaths} {d d' d'' : DirCache}
    {tasks tasks' : List DownloadTask} (hfirst : Claims host c d tasks c' d')
    (hsecond : Claims host c' d' tasks' c'' d'') :
    Claims host c d (tasks ++ tasks') c'' d'' := by
  refine ⟨hfirst.grows.trans hsecond.grows,
    fun key size h => hsecond.kept key size (hfirst.kept key size h), ?_, ?_, ?_, ?_⟩
  · rw [List.forall_mem_append]
    refine ⟨hfirst.unclaimed, fun task htask => ?_⟩
    have hnone := hsecond.unclaimed task htask
    cases hold : c (normalize host task.downloadPath) with
    | none => rfl
    | some size =>
        rw [hfirst.kept _ _ hold] at hnone
        contradiction
  · rw [List.map_append, List.nodup_append]
    refine ⟨hfirst.distinct, hsecond.distinct, fun key hkey key' hkey' heq => ?_⟩
    obtain ⟨task, htask, rfl⟩ := List.mem_map.mp hkey
    obtain ⟨task', htask', rfl⟩ := List.mem_map.mp hkey'
    have hsome := hfirst.recorded task htask
    rw [heq, hsecond.unclaimed task' htask'] at hsome
    contradiction
  · rw [List.forall_mem_append]
    exact ⟨fun task htask => hsecond.kept _ _ (hfirst.recorded task htask), hsecond.recorded⟩
  · rw [List.forall_mem_append]
    exact ⟨fun task htask => (hfirst.unlisted task htask).mono hsecond.grows, hsecond.unlisted⟩

variable {asset : PhotoAsset} {config : DownloadConfig}

theorem claims_push {state : Filtering} {cache : DirCache} {d : DerivedPath}
    (hgrows : state.cache.Grows cache) (hfresh : Fresh host state.claimedPaths cache path) :
    Claims host state.claimedPaths state.cache [taskOf asset config d path]
      (Function.update state.claimedPaths (normalize host path) (some d.size)) cache := by
  refine ⟨hgrows, fun key size h => ?_, ?_, by simp, ?_, ?_⟩
  · have hne : key ≠ normalize host path := by
      rintro rfl
      rw [hfresh.unclaimed] at h
      contradiction
    rwa [Function.update_of_ne hne]
  · rw [List.forall_mem_singleton]
    exact hfresh.unclaimed
  · rw [List.forall_mem_singleton]
    exact Function.update_self _ _ _
  · rw [List.forall_mem_singleton]
    exact hfresh.unlisted

/-- What a step of filtering adds. -/
def Filtering.Steps (host : Host) (state state' : Filtering) : Prop :=
  ∃ tasks, state'.tasks = state.tasks ++ tasks ∧
    Claims host state.claimedPaths state.cache tasks state'.claimedPaths state'.cache

theorem Filtering.Steps.refl (state : Filtering) : Filtering.Steps host state state :=
  ⟨[], (List.append_nil _).symm, Claims.nil (DirCache.Grows.refl _)⟩

theorem Filtering.Steps.trans {a b c : Filtering} (hab : Filtering.Steps host a b)
    (hbc : Filtering.Steps host b c) : Filtering.Steps host a c := by
  obtain ⟨tasks, htasks, hclaims⟩ := hab
  obtain ⟨tasks', htasks', hclaims'⟩ := hbc
  refine ⟨tasks ++ tasks', ?_, hclaims.append hclaims'⟩
  rw [htasks', htasks, List.append_assoc]

theorem placeVersion_steps {state state' : Filtering} {d : DerivedPath}
    {strategy : CollisionStrategy} {makeCollisionFilename : CollisionFilenameKind → String}
    {resolution : PathResolution}
    (h : placeVersion host fuel asset config state d strategy makeCollisionFilename =
      some (resolution, state')) :
    Filtering.Steps host state state' := by
  unfold placeVersion at h
  obtain ⟨⟨resolution', cache⟩, hresolve, h⟩ := Option.bind_eq_some_iff.mp h
  obtain ⟨hgrows, hfresh⟩ := resolveDownloadPath_spec hresolve
  dsimp only at h
  cases hpath : resolution'.downloadPath with
  | none =>
      rw [hpath] at h
      cases h
      exact ⟨[], (List.append_nil _).symm, Claims.nil hgrows⟩
  | some path =>
      rw [hpath] at h
      cases h
      exact ⟨_, rfl, claims_push hgrows (hfresh path hpath)⟩

theorem filterAssetToTasks_claims
    (h : filterAssetToTasks host fuel asset config claimedPaths cache =
      some (tasks, claimedPaths', cache')) :
    Claims host claimedPaths cache tasks claimedPaths' cache' := by
  obtain ⟨seenUrls, added, htasks, hclaims⟩ :=
    filterAssetToTasks_rel Filtering.Steps.refl (fun _ _ _ => Filtering.Steps.trans)
      (fun _ _ _ _ _ _ _ => placeVersion_steps) h
  simp only [List.nil_append] at htasks
  rw [htasks]
  exact hclaims

theorem filterAssetsToTasks_claims {assets : List (PhotoAsset × DownloadConfig)}
    (h : filterAssetsToTasks host fuel assets claimedPaths cache =
      some (tasks, claimedPaths', cache')) :
    Claims host claimedPaths cache tasks claimedPaths' cache' := by
  induction assets generalizing claimedPaths cache tasks with
  | nil =>
      cases h
      exact Claims.nil (DirCache.Grows.refl _)
  | cons entry rest ih =>
      obtain ⟨asset, config⟩ := entry
      obtain ⟨⟨tasks₁, claimed₁, cache₁⟩, hasset, h⟩ := Option.bind_eq_some_iff.mp h
      obtain ⟨⟨tasks₂, claimed₂, cache₂⟩, hrest, h⟩ := Option.bind_eq_some_iff.mp h
      cases h
      exact (filterAssetToTasks_claims hasset).append (ih hrest)

/-- **No two tasks of a batch have one file**: their paths differ after normalization, each is
recorded as claimed, and none of them is in the listing of its directory. -/
theorem tasks_paths_distinct (host : Host) (fuel : Nat)
    (assets : List (PhotoAsset × DownloadConfig)) (claimedPaths claimedPaths' : ClaimedPaths)
    (cache cache' : DirCache) (tasks : List DownloadTask)
    (h : filterAssetsToTasks host fuel assets claimedPaths cache =
      some (tasks, claimedPaths', cache')) :
    (tasks.map (fun task => normalize host task.downloadPath)).Nodup ∧
      (∀ task ∈ tasks, claimedPaths (normalize host task.downloadPath) = none ∧
        claimedPaths' (normalize host task.downloadPath) = some task.size) ∧
      ∀ task ∈ tasks, cache'.Unlisted task.downloadPath := by
  have hclaims := filterAssetsToTasks_claims h
  exact ⟨hclaims.distinct,
    fun task htask => ⟨hclaims.unclaimed task htask, hclaims.recorded task htask⟩,
    hclaims.unlisted⟩

/-- A disk with one photo in `/photos`. -/
def batchHost : Host :=
  { sampleHost with
    base64 := fun _ => ""
    readDirEntries := fun dir => if dir = ["/", "photos"] then [("IMG_0001.JPG", 5)] else [] }

def batchConfig : DownloadConfig := sampleConfig

/-- A photo of the given size; all of them have one file name. -/
def batchPhoto (id : String) (size : Nat) : PhotoAsset :=
  { samplePhoto id with
    versions := [(.original, ⟨size, "url-" ++ id, "public.jpeg", "sum-" ++ id⟩)] }

/-- Three photos of one name, and a file of that name on the disk. -/
theorem batch_paths_distinct :
    ∃ tasks claimed cache,
      filterAssetsToTasks batchHost 0 [(batchPhoto "A" 10, batchConfig),
        (batchPhoto "B" 20, batchConfig), (batchPhoto "C" 10, batchConfig)] (fun _ => none)
        .new = some (tasks, claimed, cache) ∧
      tasks.map (·.downloadPath) =
        ["/photos/IMG_0001-10.JPG", "/photos/IMG_0001-20.JPG", "/photos/IMG_0001-C.JPG"] ∧
      (tasks.map (fun task => normalize batchHost task.downloadPath)).Nodup ∧
      ∀ task ∈ tasks, cache.Unlisted task.downloadPath := by
  have hrun : (filterAssetsToTasks batchHost 0 [(batchPhoto "A" 10, batchConfig),
      (batchPhoto "B" 20, batchConfig), (batchPhoto "C" 10, batchConfig)] (fun _ => none)
      .new).map (fun r => r.1.map (·.downloadPath)) = some
        ["/photos/IMG_0001-10.JPG", "/photos/IMG_0001-20.JPG", "/photos/IMG_0001-C.JPG"] := by
    decide +kernel
  obtain ⟨⟨tasks, claimed, cache⟩, hresult, hpaths⟩ := Option.map_eq_some_iff.mp hrun
  obtain ⟨hdistinct, -, hunlisted⟩ := tasks_paths_distinct _ _ _ _ _ _ _ _ hresult
  exact ⟨tasks, claimed, cache, hresult, hpaths, hdistinct, hunlisted⟩

end Kei.Download
