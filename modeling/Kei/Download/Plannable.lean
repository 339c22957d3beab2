import Kei.Download.Ordinals
import Kei.Download.Planner

/-!
# Kei.Download.Plannable

The names that the versions of an asset may get, whatever is on the disk.

A version is planned under its derived name or under a collision name made from
it, and a movie is named after what its photo got.
-/

namespace Kei.Download

variable {host : Host} {fuel : Nat} {asset : PhotoAsset} {config : DownloadConfig}
  {claimedPaths : ClaimedPaths} {cache cache' : DirCache} {d : DerivedPath}

/-- A name that a version may get, in a collision or not. -/
def IsNameOf (assetId : String) (d : DerivedPath) (name : String) : Prop :=
  name = d.filename ∨
    ∃ kind, name = sizeOrIdentityCollisionFilename d.filename d.size assetId kind

/-- The name of the photo that a movie is named after. -/
def IsPhotoName (host : Host) (asset : PhotoAsset) (config : DownloadConfig)
    (name : Option String) : Prop :=
  name = none ∨ ∃ photo photoName,
    derivePrimary host asset config (.build host asset config) = some photo ∧
      IsNameOf asset.stateId photo photoName ∧
      name = fileName (pathOf host config asset.createdLocal photoName)

/-- A version that the configuration may plan for the asset. -/
inductive Plannable (host : Host) (asset : PhotoAsset) (config : DownloadConfig) :
    DerivedPath → Prop
  | primary {d : DerivedPath}
      (hderive : derivePrimary host asset config (.build host asset config) = some d) :
      Plannable host asset config d
  | extra {d : DerivedPath} (hmem : d ∈ candidates host asset config) :
      Plannable host asset config d
  | mov {d : DerivedPath} {name : Option String} (hname : IsPhotoName host asset config name)
      (hderive : deriveMovCompanion host asset config (.build host asset config) name = some d) :
      Plannable host asset config d

/-! ## resolved paths -/

section resolved

variable {downloadPath path : Path} {versionSize : Nat} {strategy : CollisionStrategy}
  {ctx : ResolveContext} {checkAmpm : Bool} {makeFilename : CollisionFilenameKind → String}

/-- A version goes to its path if nothing is there, and else to the first free collision name. -/
theorem resolveDownloadPath_download
    (h : resolveDownloadPath host fuel downloadPath versionSize strategy ctx cache checkAmpm
      makeFilename = some (.download path, cache')) :
    path = downloadPath ∨
      ∃ size matched cache₁ skipZeroSize preferred, strategy = .sizeDedup skipZeroSize ∧
        existingMatch host ctx.claimedPaths cache downloadPath checkAmpm =
          (some (size, matched), cache₁) ∧
        preferred = (if (!skipZeroSize || decide (0 < versionSize)) && size == versionSize
          then .assetIdentity else .default) ∧
        firstAvailableCollisionPath host fuel ctx cache₁ preferred makeFilename =
          some (path, cache') := by
  unfold resolveDownloadPath at h
  split at h
  · cases h
    exact .inl rfl
  · next size matched cache₁ hmatch =>
      split at h
      · cases h
      · next skipZeroSize =>
          obtain ⟨⟨found, cache₂⟩, hfirst, hpair⟩ := Option.map_eq_some_iff.mp h
          cases hpair
          exact .inr ⟨size, matched, cache₁, skipZeroSize, _, rfl, hmatch, rfl, hfirst⟩

/-- A resolved path has the derived name or one of the collision names. -/
theorem name_of_resolved
    (h : resolveDownloadPath host fuel downloadPath versionSize strategy ctx cache checkAmpm
      makeFilename = some (.download path, cache')) :
    path = downloadPath ∨
      ∃ kind, path = pathOf host ctx.config ctx.createdLocal (makeFilename kind) := by
  obtain rfl | ⟨_, _, _, _, _, -, -, -, hfirst⟩ := resolveDownloadPath_download h
  · exact .inl rfl
  · obtain ⟨i, -, rfl, -⟩ := firstAvailableCollisionPath_freeAt hfirst
    exact .inr ⟨_, rfl⟩

end resolved

/-! ## derived versions -/

theorem derivePrimary_path
    (h : derivePrimary host asset config (.build host asset config) = some d) :
    d.path = pathOf host config asset.createdLocal d.filename := by
  obtain ⟨_, -, rfl⟩ := Option.map_eq_some_iff.mp h
  rfl

theorem deriveMovCompanion_path {name : Option String}
    (h : deriveMovCompanion host asset config (.build host asset config) name = some d) :
    d.path = pathOf host config asset.createdLocal d.filename := by
  obtain ⟨_, -, rfl⟩ := Option.map_eq_some_iff.mp h
  rfl

/-- An extra version comes from one of the versions, with the label that it is wanted for. -/
theorem deriveExtra_version {seen : List String} {wanted : Bool} {key : AssetVersionSize}
    {suffix : AssetVersion → String} {checkAmpmOnDisk : Bool}
    (h : deriveExtra host asset config (.build host asset config) seen wanted key suffix
      checkAmpmOnDisk = some d) :
    d.path = pathOf host config asset.createdLocal d.filename ∧
      ∃ version, (DerivationContext.build host asset config).versions.get key = some version ∧
        d.versionSize = .from key ∧ d.checksum = version.checksum ∧ d.size = version.size := by
  unfold deriveExtra at h
  split at h
  · split at h
    · cases h
    · next version hversion =>
        split at h
        · cases h
        · cases h
          exact ⟨rfl, version, hversion, rfl, rfl, rfl⟩
  · cases h

theorem Plannable.path (h : Plannable host asset config d) :
    d.path = pathOf host config asset.createdLocal d.filename := by
  cases h with
  | primary hderive => exact derivePrimary_path hderive
  | mov _ hderive => exact deriveMovCompanion_path hderive
  | extra hmem =>
      unfold candidates at hmem
      simp only [List.mem_append, Option.mem_toList] at hmem
      obtain ((hedited | halternative) | hliveEdited) | hmov := hmem
      · exact (deriveExtra_version hedited).1
      · exact (deriveExtra_version halternative).1
      · exact (deriveExtra_version hliveEdited).1
      · exact deriveMovCompanion_path hmov

theorem get_mem {view : VersionsView} {key : AssetVersionSize} {version : AssetVersion}
    (h : view.get key = some version) : (key, version) ∈ view.iter := by
  obtain ⟨⟨found, _⟩, hfind, rfl⟩ := Option.map_eq_some_iff.mp h
  obtain rfl : found = key := by simpa using List.find?_some hfind
  exact List.mem_of_find?_eq_some hfind

theorem versionWithFallback_get {view : VersionsView} {requested fallback key : AssetVersionSize}
    {forceResolution : Bool} {version : AssetVersion}
    (h : versionWithFallback view.get requested fallback forceResolution = some (version, key)) :
    view.get key = some version := by
  unfold versionWithFallback at h
  split at h
  · next hget =>
      cases h
      exact hget
  · split at h
    · obtain ⟨found, hget, hpair⟩ := Option.map_eq_some_iff.mp h
      cases hpair
      exact hget
    · cases h

/-- What is planned has the checksum and the size of the version that the asset has under its
label. -/
theorem Plannable.version (h : Plannable host asset config d) :
    ∃ key version, (key, version) ∈ (applyRawPolicy asset.versions config.rawPolicy).iter ∧
      d.versionSize = .from key ∧ d.checksum = version.checksum ∧ d.size = version.size := by
  have hmov {name : Option String}
      (hderive : deriveMovCompanion host asset config (.build host asset config) name = some d) :
      ∃ key version, (key, version) ∈ (applyRawPolicy asset.versions config.rawPolicy).iter ∧
        d.versionSize = .from key ∧ d.checksum = version.checksum ∧ d.size = version.size := by
    obtain ⟨⟨version, key⟩, hselect, rfl⟩ := Option.map_eq_some_iff.mp hderive
    unfold selectMovCompanion at hselect
    split at hselect
    · have hversion := (Option.filter_eq_some_iff.mp hselect).1
      exact ⟨key, version, get_mem (versionWithFallback_get hversion), rfl, rfl, rfl⟩
    · cases hselect
  have hextra {wanted : Bool} {key : AssetVersionSize} {suffix : AssetVersion → String}
      {checkAmpmOnDisk : Bool} (hderive : deriveExtra host asset config (.build host asset config)
        [] wanted key suffix checkAmpmOnDisk = some d) :
      ∃ key version, (key, version) ∈ (applyRawPolicy asset.versions config.rawPolicy).iter ∧
        d.versionSize = .from key ∧ d.checksum = version.checksum ∧ d.size = version.size := by
    obtain ⟨-, version, hversion, hsame⟩ := deriveExtra_version hderive
    exact ⟨key, version, get_mem hversion, hsame⟩
  cases h with
  | primary hderive =>
      obtain ⟨⟨version, key⟩, hselect, rfl⟩ := Option.map_eq_some_iff.mp hderive
      unfold selectPrimary at hselect
      split at hselect
      · cases hselect
      · split at hselect
        · cases hselect
        · exact ⟨key, version, get_mem (versionWithFallback_get hselect), rfl, rfl, rfl⟩
  | mov _ hderive => exact hmov hderive
  | extra hmem =>
      unfold candidates at hmem
      simp only [List.mem_append, Option.mem_toList] at hmem
      obtain ((hedited | halternative) | hliveEdited) | hderive := hmem
      · exact hextra hedited
      · exact hextra halternative
      · exact hextra hliveEdited
      · exact hmov hderive

/-! ## what is placed -/

theorem photoName_of_placed {name : Option String} {state : Filtering}
    (hpolicy : config.fileMatchPolicy = .nameSizeDedupWithSuffix)
    (h : placePrimary host fuel asset config ⟨[], [], claimedPaths, cache⟩
      (derivePrimary host asset config (.build host asset config)) = some (name, state)) :
    IsPhotoName host asset config name := by
  unfold placePrimary at h
  split at h
  · cases h
    exact .inl rfl
  · next photo hderive =>
      obtain ⟨⟨resolution, state₁⟩, hplaced, hpair⟩ := Option.bind_eq_some_iff.mp h
      cases hpair
      unfold placeVersion at hplaced
      obtain ⟨⟨resolution', cache'⟩, hresolve, hplaced⟩ := Option.bind_eq_some_iff.mp hplaced
      have hsame : resolution' = resolution := by
        dsimp only at hplaced
        split at hplaced <;> cases hplaced <;> rfl
      subst hsame
      refine .inr ⟨photo, ?_⟩
      cases resolution' with
      | skip path =>
          obtain ⟨hskip, -⟩ := resolveDownloadPath_skip.mp ⟨_, hresolve⟩
          rw [hpolicy] at hskip
          cases hskip
      | download path =>
          obtain rfl | ⟨kind, rfl⟩ := name_of_resolved hresolve
          · exact ⟨photo.filename, hderive, .inl rfl, by rw [← derivePrimary_path hderive]; rfl⟩
          · exact ⟨_, hderive, .inr ⟨kind, rfl⟩, rfl⟩

/-- What is placed may be planned, and its collision names are among its names. -/
theorem Placing.plannable {seenUrls : List String} {strategy : CollisionStrategy}
    {makeFilename : CollisionFilenameKind → String}
    (h : Placing host fuel asset config claimedPaths cache seenUrls d strategy makeFilename) :
    Plannable host asset config d ∧ ∀ kind, IsNameOf asset.stateId d (makeFilename kind) := by
  have hfilters {derive : List String → Option DerivedPath} (hkind : Filters derive)
      (hderive : derive seenUrls = some d) : derive [] = some d := by
    rw [hkind] at hderive
    exact (Option.filter_eq_some_iff.mp hderive).1
  cases h with
  | primary _ hderive => exact ⟨.primary hderive, fun kind => .inr ⟨kind, rfl⟩⟩
  | extra hkind hderive =>
      refine ⟨.extra ?_, fun kind => .inr ⟨kind, rfl⟩⟩
      simp only [List.mem_cons, List.not_mem_nil, or_false] at hkind
      unfold candidates
      simp only [List.mem_append, Option.mem_toList]
      obtain rfl | rfl | rfl := hkind
      · exact .inl (.inl (.inl (hfilters (deriveEditedExtra_filters _) hderive)))
      · exact .inl (.inl (.inr (hfilters (deriveAlternativeExtra_filters _) hderive)))
      · exact .inl (.inr (hfilters (deriveLiveEditedExtra_filters _) hderive))
  | mov _ hprimary hderive =>
      refine ⟨?_, fun kind => ?_⟩
      · cases hpolicy : config.fileMatchPolicy with
        | nameId7 =>
            refine .mov (.inl rfl) ?_
            rw [← hderive]
            unfold deriveMovCompanion
            rw [hpolicy]
        | nameSizeDedupWithSuffix => exact .mov (photoName_of_placed hpolicy hprimary) hderive
      · cases kind with
        | default => exact .inr ⟨.assetIdentity, rfl⟩
        | assetIdentity => exact .inr ⟨.assetIdentity, rfl⟩
        | assetIdentityOrdinal n => exact .inr ⟨.assetIdentityOrdinal n, rfl⟩

/-- **The tasks of an asset** are for versions that may be planned, at paths with one of their
names. -/
theorem filterAssetToTasks_plannable {tasks : List DownloadTask} {claimedPaths' : ClaimedPaths}
    (h : filterAssetToTasks host fuel asset config claimedPaths cache =
      some (tasks, claimedPaths', cache')) :
    ∀ task ∈ tasks, ∃ d name, Plannable host asset config d ∧ IsNameOf asset.stateId d name ∧
      task = taskOf asset config d (pathOf host config asset.createdLocal name) := by
  obtain ⟨_, hall⟩ := filterAssetToTasks_rel
    (R := fun s s' => (∀ task ∈ s.tasks, ∃ d name, Plannable host asset config d ∧
        IsNameOf asset.stateId d name ∧
        task = taskOf asset config d (pathOf host config asset.createdLocal name)) →
      ∀ task ∈ s'.tasks, ∃ d name, Plannable host asset config d ∧
        IsNameOf asset.stateId d name ∧
        task = taskOf asset config d (pathOf host config asset.createdLocal name))
    (fun _ h => h) (fun _ _ _ h h' hs => h' (h hs))
    (fun state d strategy makeName resolution state' hplacing hplace hstate => by
      obtain ⟨hplannable, hnames⟩ := hplacing.plannable
      unfold placeVersion at hplace
      obtain ⟨⟨resolution', cache⟩, hresolve, hplace⟩ := Option.bind_eq_some_iff.mp hplace
      cases resolution' with
      | skip path =>
          cases hplace
          exact hstate
      | download path =>
          cases hplace
          refine List.forall_mem_append.mpr ⟨hstate, List.forall_mem_singleton.mpr ?_⟩
          obtain rfl | ⟨kind, rfl⟩ := name_of_resolved hresolve
          · exact ⟨d, d.filename, hplannable, .inl rfl, by rw [hplannable.path]⟩
          · exact ⟨d, _, hplannable, hnames kind, rfl⟩) h
  exact hall (fun _ htask => nomatch htask)

/-- The tasks of a plan are those of versions of the asset. -/
theorem planAsset_taskOf {planner planner' : TaskPlanner} {asset : PlannedAsset}
    {config : PassConfig} {plan : AssetTaskPlan}
    (h : planner.planAsset host fuel asset config = some (plan, planner')) :
    ∀ task ∈ plan.tasks, ∃ d path,
      task = taskOf asset.toPhotoAsset config.toDownloadConfig d path := by
  unfold TaskPlanner.planAsset at h
  split at h
  · cases h
    exact fun _ htask => nomatch htask
  · obtain ⟨⟨tasks, claimedPaths, dirCache⟩, hfilter, h⟩ := Option.bind_eq_some_iff.mp h
    cases h
    intro task htask
    obtain ⟨d, name, -, -, rfl⟩ := filterAssetToTasks_plannable hfilter task htask
    exact ⟨d, _, rfl⟩

theorem planAsset_assetId {planner planner' : TaskPlanner} {asset : PlannedAsset}
    {config : PassConfig} {plan : AssetTaskPlan}
    (h : planner.planAsset host fuel asset config = some (plan, planner')) :
    ∀ task ∈ plan.tasks, task.assetId = asset.stateId := by
  intro task htask
  obtain ⟨d, path, rfl⟩ := planAsset_taskOf h task htask
  rfl

end Kei.Download
