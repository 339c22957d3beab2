import Kei.Download.Filter

/-!
# Kei.Download.Expected

The versions that are planned for download against the ones that are expected.

Both sides walk the same candidates and leave out URLs they have seen; they
differ in what they have seen at the start.  A primary version that is skipped
has its URL among the expected ones and not among the planned ones.
-/

namespace Kei.Download

variable {host : Host} {fuel : Nat} {asset : PhotoAsset} {config : DownloadConfig}
  {claimedPaths claimedPaths' : ClaimedPaths} {cache cache' : DirCache}

/-! ## entries -/

/-- Version, URL and checksum. -/
abbrev Entry := VersionSizeKey × String × String

def Entry.url (e : Entry) : String := e.2.1

def DerivedPath.entry (d : DerivedPath) : Entry := (d.versionSize, d.url, d.checksum)

def DownloadTask.entry (task : DownloadTask) : Entry :=
  (task.versionSize, task.url, task.checksum)

/-- The entries with a URL that was not seen before. -/
def unseen : List String → List Entry → List Entry
  | _, [] => []
  | seen, e :: rest =>
      if e.url ∈ seen then unseen seen rest else e :: unseen (seen ++ [e.url]) rest

theorem unseen_append (seen : List String) (es es' : List Entry) :
    unseen seen (es ++ es') =
      unseen seen es ++ unseen (seen ++ (unseen seen es).map Entry.url) es' := by
  induction es generalizing seen with
  | nil => simp [unseen]
  | cons e rest ih =>
      rw [List.cons_append, unseen, unseen]
      split
      · exact ih seen
      · rw [ih, List.map_cons, List.cons_append, List.append_assoc, List.singleton_append]

variable {seen : List String} {es : List Entry}

theorem mem_unseen {e : Entry} (h : e ∈ unseen seen es) : e ∈ es ∧ e.url ∉ seen := by
  induction es generalizing seen with
  | nil => exact absurd h List.not_mem_nil
  | cons e' rest ih =>
      rw [unseen] at h
      split at h
      · exact ⟨List.mem_cons_of_mem e' (ih h).1, (ih h).2⟩
      · next hnew =>
          rcases List.mem_cons.mp h with rfl | h
          · exact ⟨List.mem_cons_self, hnew⟩
          · obtain ⟨hmem, hseen⟩ := ih h
            exact ⟨List.mem_cons_of_mem e' hmem, fun hin => hseen (List.mem_append_left _ hin)⟩

theorem exists_mem_unseen {e : Entry} (h : e ∈ es) (hnew : e.url ∉ seen) :
    ∃ e' ∈ unseen seen es, e'.url = e.url := by
  induction es generalizing seen with
  | nil => exact absurd h List.not_mem_nil
  | cons e' rest ih =>
      rw [unseen]
      rcases List.mem_cons.mp h with rfl | h
      · rw [if_neg hnew]
        exact ⟨e, List.mem_cons_self, rfl⟩
      · split
        · exact ih h hnew
        · by_cases heq : e'.url = e.url
          · exact ⟨e', List.mem_cons_self, heq⟩
          · have hnew' : e.url ∉ seen ++ [e'.url] := by
              rw [List.mem_append, List.mem_singleton]
              exact fun hin => hin.elim hnew (fun h => heq h.symm)
            obtain ⟨e'', hmem, hurl⟩ := ih h hnew'
            exact ⟨e'', List.mem_cons_of_mem e' hmem, hurl⟩

theorem unseen_congr {seen seen' : List String} (h : ∀ e ∈ es, e.url ∈ seen ↔ e.url ∈ seen') :
    unseen seen es = unseen seen' es := by
  induction es generalizing seen seen' with
  | nil => rfl
  | cons e rest ih =>
      rw [List.forall_mem_cons] at h
      rw [unseen, unseen, ih h.2]
      by_cases hin : e.url ∈ seen
      · rw [if_pos hin, if_pos (h.1.mp hin)]
      · rw [if_neg hin, if_neg (fun h' => hin (h.1.mpr h'))]
        congr 1
        refine ih (fun e' he' => ?_)
        rw [List.mem_append, List.mem_append, h.2 e' he']

/-- From entries and seen URLs on, the candidates `es` were gone through. -/
structure Advances (es : List Entry) (entries : List Entry) (seen : List String)
    (entries' : List Entry) (seen' : List String) : Prop where
  entries_eq : entries' = entries ++ unseen seen es
  seen_eq : seen' = seen ++ (unseen seen es).map Entry.url

theorem Advances.trans {es es' a b c : List Entry} {s t u : List String}
    (hfirst : Advances es a s b t) (hsecond : Advances es' b t c u) :
    Advances (es ++ es') a s c u := by
  obtain ⟨rfl, rfl⟩ := hfirst
  obtain ⟨rfl, rfl⟩ := hsecond
  refine ⟨?_, ?_⟩
  · rw [unseen_append, List.append_assoc]
  · rw [unseen_append, List.map_append, List.append_assoc]

/-! ## candidates -/

/-- The versions besides the primary one, before any URL was seen. -/
def candidates (host : Host) (asset : PhotoAsset) (config : DownloadConfig) : List DerivedPath :=
  let ctx := DerivationContext.build host asset config
  (deriveEditedExtra host asset config ctx []).toList ++
    (deriveAlternativeExtra host asset config ctx []).toList ++
    (deriveLiveEditedExtra host asset config ctx []).toList ++
    (deriveMovCompanion host asset config ctx none).toList

/-- The version of a candidate that keeps its entry through seen URLs. -/
def Filters (derive : List String → Option DerivedPath) : Prop :=
  ∀ seen, derive seen = (derive []).filter (fun d => d.url ∉ seen)

theorem any_eq_decide_mem (seen : List String) (url : String) :
    seen.any (fun s => s = url) = decide (url ∈ seen) := by
  rw [Bool.eq_iff_iff]
  simp

theorem deriveExtra_filters (ctx : DerivationContext) (wanted : Bool) (key : AssetVersionSize)
    (suffix : AssetVersion → String) (checkAmpmOnDisk : Bool) :
    Filters (fun seen => deriveExtra host asset config ctx seen wanted key suffix
      checkAmpmOnDisk) := by
  intro seen
  unfold deriveExtra
  cases wanted with
  | false => rfl
  | true =>
      cases ctx.versions.get key with
      | none => rfl
      | some version =>
          have hurl : (deriveSuffixedExtra host asset config ctx version key (suffix version)
              checkAmpmOnDisk).url = version.url := rfl
          by_cases hin : version.url ∈ seen <;>
            simp [urlSeen, any_eq_decide_mem, hin, hurl, Option.filter_some]

theorem deriveMovCompanion_entry (ctx : DerivationContext) (filename : Option String) :
    (deriveMovCompanion host asset config ctx filename).map DerivedPath.entry =
      (deriveMovCompanion host asset config ctx none).map DerivedPath.entry := by
  unfold deriveMovCompanion
  cases selectMovCompanion asset config ctx [] <;> rfl

variable {key : AssetVersionSize}

theorem versionWithFallback_key {getVersion : AssetVersionSize → Option AssetVersion}
    {requested fallback : AssetVersionSize} {forceResolution : Bool} {v : AssetVersion}
    (h : versionWithFallback getVersion requested fallback forceResolution = some (v, key)) :
    key = requested ∨ key = fallback := by
  unfold versionWithFallback at h
  split at h
  · cases h
    exact .inl rfl
  · split at h
    · obtain ⟨v', -, heq⟩ := Option.map_eq_some_iff.mp h
      cases heq
      exact .inr rfl
    · contradiction

/-- The versions that own the file name of an asset. -/
def VersionSizeKey.isPrimaryMedia : VersionSizeKey → Bool
  | .original | .medium | .thumb => true
  | _ => false

variable {ctx : DerivationContext} {d : DerivedPath}

theorem derivePrimary_isPrimaryMedia (h : derivePrimary host asset config ctx = some d) :
    d.versionSize.isPrimaryMedia = true := by
  unfold derivePrimary at h
  obtain ⟨⟨version, key⟩, hselect, rfl⟩ := Option.map_eq_some_iff.mp h
  unfold selectPrimary at hselect
  split at hselect
  · contradiction
  · cases hres : config.resolution with
    | none =>
        rw [hres] at hselect
        contradiction
    | original | medium | thumb =>
        rw [hres] at hselect
        obtain rfl | rfl := versionWithFallback_key hselect <;> rfl

theorem deriveExtra_versionSize {wanted : Bool} {suffix : AssetVersion → String}
    {checkAmpmOnDisk : Bool}
    (h : deriveExtra host asset config ctx seen wanted key suffix checkAmpmOnDisk = some d) :
    d.versionSize = .from key := by
  unfold deriveExtra at h
  split at h
  · split at h
    · contradiction
    · split at h
      · contradiction
      · cases h
        rfl
  · contradiction

theorem from_isLive (h : key.isLive = true) : (VersionSizeKey.from key).isPrimaryMedia = false := by
  cases key <;> first | rfl | contradiction

variable {filename : Option String}

theorem deriveMovCompanion_not_primaryMedia
    (h : deriveMovCompanion host asset config ctx filename = some d) :
    d.versionSize.isPrimaryMedia = false := by
  unfold deriveMovCompanion at h
  obtain ⟨⟨version, key⟩, hselect, rfl⟩ := Option.map_eq_some_iff.mp h
  unfold selectMovCompanion at hselect
  split at hselect
  · obtain ⟨hversion, -⟩ := Option.filter_eq_some_iff.mp hselect
    obtain rfl | rfl := versionWithFallback_key hversion
    · exact from_isLive config.liveResolution_isLive
    · rfl
  · contradiction

theorem candidates_not_primaryMedia (h : d ∈ candidates host asset config) :
    d.versionSize.isPrimaryMedia = false := by
  unfold candidates at h
  simp only [List.mem_append, Option.mem_toList] at h
  obtain ((hedited | halternative) | hliveEdited) | hmov := h
  · rw [deriveExtra_versionSize hedited]
    rfl
  · rw [deriveExtra_versionSize halternative]
    rfl
  · rw [deriveExtra_versionSize hliveEdited]
    rfl
  · exact deriveMovCompanion_not_primaryMedia hmov

/-! ## what is expected -/

theorem unseen_toList {d : Option DerivedPath} (seen : List String) :
    unseen seen (d.toList.map DerivedPath.entry) =
      (d.filter (fun d => d.url ∉ seen)).toList.map DerivedPath.entry := by
  cases d with
  | none => rfl
  | some d =>
      by_cases hin : d.url ∈ seen <;>
        simp [unseen, Entry.url, DerivedPath.entry, hin, Option.filter_some]

theorem pushDerived_advances {derive : List String → Option DerivedPath} (hfilters : Filters derive)
    (acc : List DerivedPath × List String) :
    Advances ((derive []).toList.map DerivedPath.entry) (acc.1.map DerivedPath.entry) acc.2
      ((pushDerived acc derive).1.map DerivedPath.entry) (pushDerived acc derive).2 := by
  have hunseen := unseen_toList (d := derive []) acc.2
  rw [← hfilters acc.2] at hunseen
  unfold pushDerived
  refine ⟨?_, ?_⟩
  · rw [hunseen]
    cases derive acc.2 <;> simp
  · rw [hunseen]
    cases derive acc.2 <;> simp [DerivedPath.entry, Entry.url]

theorem deriveEditedExtra_filters (ctx : DerivationContext) :
    Filters (deriveEditedExtra host asset config ctx) :=
  deriveExtra_filters ctx config.edited .adjusted _ true

theorem deriveAlternativeExtra_filters (ctx : DerivationContext) :
    Filters (deriveAlternativeExtra host asset config ctx) :=
  deriveExtra_filters ctx (config.alternative && !asset.isLivePhoto) .alternative _ true

theorem deriveLiveEditedExtra_filters (ctx : DerivationContext) :
    Filters (deriveLiveEditedExtra host asset config ctx) :=
  deriveExtra_filters ctx
    (config.edited && asset.isLivePhoto && asset.itemType = some .image) .liveAdjusted _ false

theorem unseen_mov (filename : Option String) (seen : List String) :
    unseen seen ((deriveMovCompanion host asset config ctx none).toList.map DerivedPath.entry) =
      ((deriveMovCompanion host asset config ctx filename).filter
        (fun d => d.url ∉ seen)).toList.map DerivedPath.entry := by
  have hlist (d : Option DerivedPath) :
      d.toList.map DerivedPath.entry = (d.map DerivedPath.entry).toList := by
    cases d <;> rfl
  rw [hlist, ← deriveMovCompanion_entry ctx filename, ← hlist, unseen_toList]

variable {primary : Option DerivedPath}

/-- The expected entries: the primary version, then the candidates whose URLs are new. -/
theorem deriveExpectedPaths_entries (hvalid : asset.hasValidId = true)
    (hprimary : derivePrimary host asset config (.build host asset config) = primary) :
    (deriveExpectedPaths host asset config).map DerivedPath.entry =
      primary.toList.map DerivedPath.entry ++ unseen (primary.toList.map (·.url))
        ((candidates host asset config).map DerivedPath.entry) := by
  unfold deriveExpectedPaths candidates
  rw [if_pos hvalid]
  dsimp only
  rw [hprimary]
  generalize DerivationContext.build host asset config = ctx
  have hfirst : pushDerived ([], []) (fun _ => primary) =
      (primary.toList, primary.toList.map (·.url)) := by
    cases primary <;> rfl
  rw [hfirst]
  have hedited : Filters (deriveEditedExtra host asset config ctx) :=
    deriveEditedExtra_filters ctx
  have halternative : Filters (deriveAlternativeExtra host asset config ctx) :=
    deriveAlternativeExtra_filters ctx
  have hliveEdited : Filters (deriveLiveEditedExtra host asset config ctx) :=
    deriveLiveEditedExtra_filters ctx
  obtain ⟨hentries, hseen⟩ := ((pushDerived_advances hedited _).trans
    (pushDerived_advances halternative _)).trans (pushDerived_advances hliveEdited
      (pushDerived (pushDerived (primary.toList, primary.toList.map (·.url))
        (deriveEditedExtra host asset config ctx)) (deriveAlternativeExtra host asset config ctx)))
  generalize pushDerived (pushDerived (pushDerived (primary.toList, _) _) _) _ = acc
    at hentries hseen ⊢
  simp only [List.map_append]
  rw [unseen_append, ← List.append_assoc, ← hentries, ← hseen,
    unseen_mov (primary.map (·.filename))]
  cases deriveMovCompanion host asset config ctx (primary.map (·.filename)) with
  | none => simp
  | some mov =>
      by_cases hin : mov.url ∈ acc.2 <;> simp [any_eq_decide_mem, hin, Option.filter_some]

/-! ## what is planned -/

variable {makeCollisionFilename : CollisionFilenameKind → String} {resolution : PathResolution}

theorem resolve_sizeDedup {downloadPath : Path} {versionSize : Nat} {skipZeroSize : Bool}
    {ctx : ResolveContext} {checkAmpm : Bool}
    (h : resolveDownloadPath host fuel downloadPath versionSize (.sizeDedup skipZeroSize) ctx cache
      checkAmpm makeCollisionFilename = some (resolution, cache')) :
    ∃ path, resolution.downloadPath = some path := by
  unfold resolveDownloadPath at h
  split at h
  · cases h
    exact ⟨_, rfl⟩
  · obtain ⟨⟨path, cache₁⟩, -, heq⟩ := Option.map_eq_some_iff.mp h
    cases heq
    exact ⟨path, rfl⟩

theorem resolve_skipIfExists {downloadPath : Path} {versionSize : Nat} {ctx : ResolveContext}
    {checkAmpm : Bool}
    (h : resolveDownloadPath host fuel downloadPath versionSize .skipIfExists ctx cache checkAmpm
      makeCollisionFilename = some (resolution, cache')) :
    resolution.downloadPath.isNone =
      (existingMatch host ctx.claimedPaths cache downloadPath checkAmpm).1.isSome := by
  unfold resolveDownloadPath at h
  cases hmatch : existingMatch host ctx.claimedPaths cache downloadPath checkAmpm with
  | mk found cache₁ =>
      rw [hmatch] at h
      cases found <;> cases h <;> rfl

def Filtering.entries (state : Filtering) : List Entry := state.tasks.map DownloadTask.entry

variable {state state' : Filtering}

theorem placeVersion_entries {skipZeroSize : Bool}
    (h : placeVersion host fuel asset config state d (.sizeDedup skipZeroSize)
      makeCollisionFilename = some (resolution, state')) :
    state'.entries = state.entries ++ [d.entry] ∧ state'.seenUrls = state.seenUrls ++ [d.url] := by
  unfold placeVersion at h
  obtain ⟨⟨resolution', cache⟩, hresolve, h⟩ := Option.bind_eq_some_iff.mp h
  obtain ⟨path, hpath⟩ := resolve_sizeDedup hresolve
  dsimp only at h
  rw [hpath] at h
  cases h
  exact ⟨List.map_append, rfl⟩

theorem placeExtra_advances {derive : List String → Option DerivedPath} (hfilters : Filters derive)
    (h : placeExtra host fuel asset config state derive = some state') :
    Advances ((derive []).toList.map DerivedPath.entry) state.entries state.seenUrls
      state'.entries state'.seenUrls := by
  have hunseen := unseen_toList (d := derive []) state.seenUrls
  rw [← hfilters state.seenUrls] at hunseen
  unfold placeExtra at h
  cases hderive : derive state.seenUrls with
  | none =>
      rw [hderive] at h hunseen
      cases h
      refine ⟨?_, ?_⟩ <;> rw [hunseen] <;> simp
  | some d =>
      rw [hderive] at h hunseen
      obtain ⟨⟨resolution, state₁⟩, hplace, rfl⟩ := Option.map_eq_some_iff.mp h
      obtain ⟨hentries, hseen⟩ := placeVersion_entries hplace
      refine ⟨?_, ?_⟩
      · rw [hunseen]
        exact hentries
      · rw [hunseen]
        exact hseen

theorem placeMov_advances
    (h : placeMov host fuel asset config state (deriveMovCompanion host asset config ctx filename) =
      some state') :
    Advances ((deriveMovCompanion host asset config ctx none).toList.map DerivedPath.entry)
      state.entries state.seenUrls state'.entries state'.seenUrls := by
  have hunseen : unseen state.seenUrls ((deriveMovCompanion host asset config ctx
      none).toList.map DerivedPath.entry) = _ := unseen_mov filename state.seenUrls
  unfold placeMov at h
  cases hmov : deriveMovCompanion host asset config ctx filename with
  | none =>
      rw [hmov] at h hunseen
      cases h
      refine ⟨?_, ?_⟩ <;> rw [hunseen] <;> simp
  | some d =>
      rw [hmov] at h hunseen
      rw [Option.filter_some] at hunseen
      dsimp only at h
      rw [any_eq_decide_mem] at h
      by_cases hin : d.url ∈ state.seenUrls
      · simp only [hin, decide_true, if_true] at h
        cases h
        refine ⟨?_, ?_⟩ <;> rw [hunseen] <;> simp [hin]
      · simp only [hin, decide_false, Bool.false_eq_true, if_false] at h
        obtain ⟨⟨resolution, state₁⟩, hplace, rfl⟩ := Option.map_eq_some_iff.mp h
        obtain ⟨hentries, hseen⟩ := placeVersion_entries hplace
        refine ⟨?_, ?_⟩
        · rw [hunseen, hentries]
          simp [hin]
        · rw [hunseen, hseen]
          simp [hin, DerivedPath.entry, Entry.url]

/-- Names tell files apart, and there is something at the path of the primary version. -/
def skipsPrimary (host : Host) (config : DownloadConfig) (claimedPaths : ClaimedPaths)
    (cache : DirCache) (d : DerivedPath) : Bool :=
  config.fileMatchPolicy = .nameId7 &&
    (existingMatch host claimedPaths cache d.path d.checkAmpmOnDisk).1.isSome

theorem placePrimary_entries {state : Filtering}
    (h : placePrimary host fuel asset config ⟨[], [], claimedPaths, cache⟩ primary =
      some (filename, state)) :
    let placed := primary.filter (fun d => !skipsPrimary host config claimedPaths cache d)
    state.entries = placed.toList.map DerivedPath.entry ∧
      state.seenUrls = placed.toList.map (·.url) := by
  unfold placePrimary at h
  cases primary with
  | none =>
      cases h
      exact ⟨rfl, rfl⟩
  | some d =>
      obtain ⟨⟨resolution, state₁⟩, hplace, h⟩ := Option.bind_eq_some_iff.mp h
      cases h
      unfold skipsPrimary
      cases hpolicy : config.fileMatchPolicy with
      | nameSizeDedupWithSuffix =>
          rw [hpolicy] at hplace
          exact placeVersion_entries hplace
      | nameId7 =>
          rw [hpolicy] at hplace
          unfold placeVersion at hplace
          obtain ⟨⟨resolution', cache₁⟩, hresolve, hplace⟩ := Option.bind_eq_some_iff.mp hplace
          have hskip := resolve_skipIfExists hresolve
          dsimp only at hplace hskip
          simp only [decide_true, Bool.true_and, Option.filter_some, ← hskip]
          cases hpath : resolution'.downloadPath with
          | none | some =>
              rw [hpath] at hplace
              cases hplace
              exact ⟨rfl, rfl⟩

/-- The planned entries: the primary version unless it is skipped, then the candidates whose
URLs are new. -/
theorem filterAssetToTasks_entries {tasks : List DownloadTask}
    (hprimary : derivePrimary host asset config (.build host asset config) = primary)
    (hplanned : (!asset.hasValidId || excludedByFallback host asset config) = false)
    (h : filterAssetToTasks host fuel asset config claimedPaths cache =
      some (tasks, claimedPaths', cache')) :
    let placed := primary.filter (fun d => !skipsPrimary host config claimedPaths cache d)
    tasks.map DownloadTask.entry = placed.toList.map DerivedPath.entry ++
      unseen (placed.toList.map (·.url))
        ((candidates host asset config).map DerivedPath.entry) := by
  unfold filterAssetToTasks at h
  rw [hplanned, if_neg Bool.false_ne_true] at h
  dsimp only at h
  rw [hprimary] at h
  obtain ⟨⟨filename, s₁⟩, hfirst, h⟩ := Option.bind_eq_some_iff.mp h
  obtain ⟨s₂, hedited, h⟩ := Option.bind_eq_some_iff.mp h
  obtain ⟨s₃, halternative, h⟩ := Option.bind_eq_some_iff.mp h
  obtain ⟨s₄, hliveEdited, h⟩ := Option.bind_eq_some_iff.mp h
  obtain ⟨s₅, hmov, h⟩ := Option.bind_eq_some_iff.mp h
  cases h
  obtain ⟨hentries, hseen⟩ := placePrimary_entries hfirst
  obtain ⟨hall, -⟩ := (((placeExtra_advances (deriveEditedExtra_filters _) hedited).trans
    (placeExtra_advances (deriveAlternativeExtra_filters _) halternative)).trans
    (placeExtra_advances (deriveLiveEditedExtra_filters _) hliveEdited)).trans
    (placeMov_advances hmov)
  rw [hentries, hseen] at hall
  unfold candidates
  simp only [List.map_append]
  exact hall

/-- The primary version is skipped, and a further version has its URL. -/
structure SkippedWithTwin (host : Host) (asset : PhotoAsset) (config : DownloadConfig)
    (claimedPaths : ClaimedPaths) (cache : DirCache) : Prop where
  valid : asset.hasValidId = true
  named : excludedByFallback host asset config = false
  twin : ∃ d, derivePrimary host asset config (.build host asset config) = some d ∧
    skipsPrimary host config claimedPaths cache d = true ∧
    ∃ c ∈ candidates host asset config, c.url = d.url

/-- **What is planned was expected**, unless a skipped primary version has a twin. -/
theorem tasks_sublist_expected_iff (host : Host) (fuel : Nat) (asset : PhotoAsset)
    (config : DownloadConfig) (claimedPaths claimedPaths' : ClaimedPaths)
    (cache cache' : DirCache) (tasks : List DownloadTask)
    (h : filterAssetToTasks host fuel asset config claimedPaths cache =
      some (tasks, claimedPaths', cache')) :
    List.Sublist (tasks.map DownloadTask.entry)
        ((deriveExpectedPaths host asset config).map DerivedPath.entry) ↔
      ¬ SkippedWithTwin host asset config claimedPaths cache := by
  cases hplanned : (!asset.hasValidId || excludedByFallback host asset config) with
  | true =>
      -- the asset is left out before any version is looked at
      have hempty : tasks = [] := by
        unfold filterAssetToTasks at h
        rw [hplanned, if_pos rfl] at h
        cases h
        rfl
      rw [hempty, List.map_nil]
      refine ⟨fun _ hskip => ?_, fun _ => List.nil_sublist _⟩
      rw [hskip.valid, hskip.named] at hplanned
      contradiction
  | false =>
      have hvalid : asset.hasValidId = true := by
        rw [Bool.or_eq_false_iff, Bool.not_eq_false'] at hplanned
        exact hplanned.1
      have hnamed : excludedByFallback host asset config = false :=
        (Bool.or_eq_false_iff.mp hplanned).2
      cases hprimary : derivePrimary host asset config (.build host asset config) with
      | none =>
          have htasks := filterAssetToTasks_entries hprimary hplanned h
          rw [htasks, deriveExpectedPaths_entries hvalid hprimary]
          refine ⟨fun _ hskip => ?_, fun _ => List.Sublist.refl _⟩
          obtain ⟨d, hd, -⟩ := hskip.twin
          rw [hprimary] at hd
          contradiction
      | some d =>
          have htasks := filterAssetToTasks_entries hprimary hplanned h
          rw [htasks, deriveExpectedPaths_entries hvalid hprimary, Option.filter_some]
          cases hskips : skipsPrimary host config claimedPaths cache d with
          | false =>
              refine ⟨fun _ hskip => ?_, fun _ => List.Sublist.refl _⟩
              obtain ⟨d', hd, hskips', -⟩ := hskip.twin
              rw [hprimary] at hd
              cases hd
              rw [hskips] at hskips'
              contradiction
          | true =>
              simp only [Bool.not_true, Bool.false_eq_true, if_false, Option.toList_none,
                List.map_nil, List.nil_append, Option.toList_some, List.map_cons]
              constructor
              · rintro hsub ⟨-, -, d', hd, -, c, hc, hurl⟩
                rw [hprimary] at hd
                cases hd
                obtain ⟨e, he, heurl⟩ := exists_mem_unseen (List.mem_map_of_mem hc)
                  (List.not_mem_nil (a := c.entry.url))
                have hsame : e.url = d.url := heurl.trans hurl
                rcases List.mem_append.mp (hsub.subset he) with he' | he'
                · -- no candidate is of a primary version
                  rw [List.mem_singleton] at he'
                  obtain ⟨c', hc', hentry⟩ := List.mem_map.mp (mem_unseen he).1
                  have hprimaryMedia := derivePrimary_isPrimaryMedia hprimary
                  have hversion : c'.versionSize = d.versionSize :=
                    congrArg Prod.fst (hentry.trans he')
                  rw [← hversion, candidates_not_primaryMedia hc'] at hprimaryMedia
                  contradiction
                · exact (mem_unseen he').2 (List.mem_singleton.mpr hsame)
              · intro hno
                have hsame : unseen [d.url] ((candidates host asset config).map
                    DerivedPath.entry) = unseen [] ((candidates host asset config).map
                      DerivedPath.entry) := by
                  refine unseen_congr (fun e he => ?_)
                  obtain ⟨c, hc, rfl⟩ := List.mem_map.mp he
                  rw [List.mem_singleton]
                  refine ⟨fun hurl => absurd ?_ hno, fun hin => absurd hin List.not_mem_nil⟩
                  exact ⟨hvalid, hnamed, d, hprimary, hskips, c, hc, hurl⟩
                rw [hsame]
                exact List.sublist_append_right _ _

/-- A disk that holds the photo under its name with the id. -/
def twinHost : Host :=
  { sampleHost with
    base64 := fun _ => "QQ"
    readDirEntries := fun dir =>
      if dir = ["/", "photos"] then [("IMG_0001_QQ.JPG", 10)] else [] }

def twinConfig : DownloadConfig :=
  { sampleConfig with edited := true, fileMatchPolicy := .nameId7 }

/-- A photo whose adjusted version has the URL `adjustedUrl`. -/
def twinPhoto (adjustedUrl : String) : PhotoAsset :=
  { samplePhoto "A" with
    versions := [(.original, ⟨10, "url", "public.jpeg", "sum"⟩),
      (.adjusted, ⟨10, adjustedUrl, "public.jpeg", "sum"⟩)] }

/-- The adjusted version of a photo that is on the disk, with a URL of its own. -/
theorem tasks_sublist_expected_edited :
    ∃ tasks claimed cache,
      filterAssetToTasks twinHost 0 (twinPhoto "url-2") twinConfig (fun _ => none) .new =
        some (tasks, claimed, cache) ∧
      tasks.map DownloadTask.entry = [(.adjusted, "url-2", "sum")] ∧
      ¬ SkippedWithTwin twinHost (twinPhoto "url-2") twinConfig (fun _ => none) .new := by
  have hrun : (filterAssetToTasks twinHost 0 (twinPhoto "url-2") twinConfig (fun _ => none)
      .new).map (fun r => r.1.map DownloadTask.entry) = some [(.adjusted, "url-2", "sum")] := by
    decide +kernel
  have hexpected : (deriveExpectedPaths twinHost (twinPhoto "url-2") twinConfig).map
      DerivedPath.entry = [(.original, "url", "sum"), (.adjusted, "url-2", "sum")] := by
    decide +kernel
  obtain ⟨⟨tasks, claimed, cache⟩, hresult, hentries⟩ := Option.map_eq_some_iff.mp hrun
  refine ⟨tasks, claimed, cache, hresult, hentries, ?_⟩
  have hiff := tasks_sublist_expected_iff _ _ _ _ _ _ _ _ _ hresult
  have hsublist : List.Sublist (tasks.map DownloadTask.entry)
      ((deriveExpectedPaths twinHost (twinPhoto "url-2") twinConfig).map DerivedPath.entry) := by
    rw [hexpected, (hentries : tasks.map DownloadTask.entry = _)]
    decide
  exact hiff.mp hsublist

/-- A skipped photo whose adjusted version has the same URL is planned as one that is not
expected. -/
theorem tasks_not_sublist_expected :
    ¬ ∀ (host : Host) (fuel : Nat) (asset : PhotoAsset) (config : DownloadConfig)
      (claimedPaths claimedPaths' : ClaimedPaths) (cache cache' : DirCache)
      (tasks : List DownloadTask),
      filterAssetToTasks host fuel asset config claimedPaths cache =
        some (tasks, claimedPaths', cache') →
      List.Sublist (tasks.map DownloadTask.entry)
        ((deriveExpectedPaths host asset config).map DerivedPath.entry) := by
  intro h
  have hrun : (filterAssetToTasks twinHost 0 (twinPhoto "url") twinConfig (fun _ => none)
      .new).map (fun r => r.1.map DownloadTask.entry) = some [(.adjusted, "url", "sum")] := by
    decide +kernel
  have hexpected : (deriveExpectedPaths twinHost (twinPhoto "url") twinConfig).map
      DerivedPath.entry = [(.original, "url", "sum")] := by
    decide +kernel
  obtain ⟨⟨tasks, claimed, cache⟩, hresult, hentries⟩ := Option.map_eq_some_iff.mp hrun
  have hsublist := h _ _ _ _ _ _ _ _ _ hresult
  rw [hexpected, (hentries : tasks.map DownloadTask.entry = _)] at hsublist
  exact absurd hsublist (by decide)

end Kei.Download
