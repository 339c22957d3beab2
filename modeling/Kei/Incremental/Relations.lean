import Kei.Incremental.Collect
import Kei.Incremental.Memberships

/-!
# Kei.Incremental.Relations

The additions to selected albums: in a run that returns a token, the asset of
each is planned for every pass of its album, unless the delta itself or a stored
mapping speaks for leaving it.
-/

namespace Kei.Incremental

open Accum Changes FullEnumeration StateDb

variable {inp : Input} {engine : Engine}

/-! ## the token -/

theorem tokenUnlessBlocked_quiet {enumerationErrors : Nat} {token : String}
    (h : inp.tokenUnlessBlocked enumerationErrors = some token) : inp.issues = [] := by
  unfold Input.tokenUnlessBlocked at h
  split at h
  · next hnone => exact tokenUnsafeReason_eq_none.mp hnone.2
  · cases h

/-- A token that a run returns was not blocked. -/
theorem tokenUnlessBlocked_of_token {out : Collected} {token : String}
    (hrun : downloadPhotosIncrementalCollecting inp engine = some out)
    (htoken : out.result.syncToken = some token) :
    ∃ enumerationErrors, inp.tokenUnlessBlocked enumerationErrors = some token := by
  have hwithout (planning : Planning) (plans : List PairPlan)
      (h : (withoutTasks inp engine planning plans).result.syncToken = some token) :
      ∃ enumerationErrors, inp.tokenUnlessBlocked enumerationErrors = some token := by
    simp only [withoutTasks] at h
    split at h
    · cases h
    · exact ⟨_, h⟩
  unfold downloadPhotosIncrementalCollecting at hrun
  split at hrun
  · contradiction
  · split at hrun
    · obtain rfl := Option.some.inj hrun
      exact hwithout _ _ htoken
    · obtain ⟨⟨planning, plans⟩, -, hrun⟩ := Option.bind_eq_some_iff.mp hrun
      dsimp only at hrun
      split at hrun
      · obtain rfl := Option.some.inj hrun
        exact hwithout _ _ htoken
      · split at hrun
        · obtain rfl := Option.some.inj hrun
          contradiction
        · obtain rfl := Option.some.inj hrun
          simp only [downloadedRun] at htoken
          split at htoken <;> exact ⟨_, htoken⟩

/-! ## hydration -/

/-- The additions of a run whose asset none of its events has. -/
def Input.missing (inp : Input) : List MissingRelation :=
  inp.identified.filterMap (missingRelation inp.routing inp.assetToMaster)

/-- What the hydration knows and has planned. -/
structure Gathered (inp : Input) (state : Hydration) : Prop where
  planned : ∀ name, (state.assetToMaster name).isSome → (inp.assetToMaster name).isSome ∨
    ∀ index ∈ passIndicesByAsset inp.missing name,
      ∃ asset, asset.assetRecordName = name ∧ (asset, index) ∈ state.downloadableAssets
  mapped : ∀ name, (inp.storedMaster state.store name).isSome →
    inp.Mapped name ∨ (state.assetToMaster name).isSome

variable {state : Hydration}

/-- An asset that is found is known from then on, and planned for its passes. -/
theorem hydrateAsset_quiet {hasContext : Bool} {missing : List MissingRelation}
    {found : HydratedAsset} (hquiet : (hydrateAsset inp hasContext missing state found).2 = []) :
    let name := found.asset.assetRecordName
    ∃ asset : PhotoAsset, asset.assetRecordName = name ∧
      (hydrateAsset inp hasContext missing state found).1 =
        { store := (persistAssetMappingForAsset inp.config found.asset found.mappingRecorded
            state.store).1,
          assetToMaster := Function.update state.assetToMaster name (some asset.id),
          completeDeltaAssets := state.completeDeltaAssets ++ [asset],
          downloadableAssets := state.downloadableAssets ++
            (inp.replies.passIndexOrder name (passIndicesByAsset missing name)).map
              (fun index => (asset, index)),
          hydratedAssetRecordNames := state.hydratedAssetRecordNames ++ [name] } := by
  revert hquiet
  unfold hydrateAsset
  cases hselected : (if hasContext then found.stateRecordName.map found.asset.withStateRecordName
      else some found.asset) with
  | none => simp
  | some asset =>
      refine fun _ => ⟨asset, ?_, rfl⟩
      split at hselected
      · obtain ⟨name, -, rfl⟩ := Option.map_eq_some_iff.mp hselected
        rfl
      · cases hselected
        rfl

theorem hydrateAsset_gathered {hasContext : Bool} {found : HydratedAsset}
    (hquiet : (hydrateAsset inp hasContext inp.missing state found).2 = [])
    (h : Gathered inp state) :
    Gathered inp (hydrateAsset inp hasContext inp.missing state found).1 := by
  obtain ⟨asset, hname, hnext⟩ := hydrateAsset_quiet hquiet
  rw [hnext]
  refine ⟨fun name hknown => ?_, fun name hstored => ?_⟩
  · by_cases heq : name = found.asset.assetRecordName
    · refine .inr (fun index hindex => ⟨asset, hname.trans heq.symm, ?_⟩)
      refine List.mem_append_right _ (List.mem_map.mpr ⟨index, ?_, rfl⟩)
      rw [(inp.replies.passIndexOrder_perm _ _).mem_iff, ← heq]
      exact hindex
    · simp only [Function.update_of_ne heq] at hknown
      refine (h.planned name hknown).imp_right (fun hplanned index hindex => ?_)
      obtain ⟨asset', hasset', hmem⟩ := hplanned index hindex
      exact ⟨asset', hasset', List.mem_append_left _ hmem⟩
  · by_cases heq : name = found.asset.assetRecordName
    · exact .inr (by simp [heq])
    · simp only [Function.update_of_ne heq]
      rcases persistForAsset_mapped hstored with hstored | hasset
      · exact h.mapped name hstored
      · exact absurd hasset.symm heq

theorem hydratePass_gathered {hasContext : Bool} {hydrator : Nat}
    (hquiet : (hydratePass inp hasContext inp.missing state hydrator).2 = [])
    (h : Gathered inp state) :
    Gathered inp (hydratePass inp hasContext inp.missing state hydrator).1 := by
  revert hquiet
  unfold hydratePass
  dsimp only
  split
  · exact fun _ => h
  · split
    · simp
    · exact fun hquiet => accum_invariant_quiet hquiet h
        (fun _ _ _ hstep ih => hydrateAsset_gathered hstep ih)

theorem hydrated_gathered (hidentities : inp.identityIssues = []) (hquiet : inp.hydrated.2 = []) :
    Gathered inp inp.hydrated.1 := by
  have hstart : Gathered inp
      ⟨inp.albums.1, inp.assetToMaster, inp.completeDeltaAssets, [], []⟩ := by
    refine ⟨fun name h => .inl h, fun name hstored => ?_⟩
    have hpaired : (inp.storedMaster inp.paired.1.1 name).isSome := by
      rwa [Input.storedMaster, Store.getMasterRecordNameForAsset, albums_mappings] at hstored
    refine (paired_mapped inp name hpaired).imp_right (fun ⟨event, hevent, hname⟩ => ?_)
    have hsilent := List.flatMap_eq_nil_iff.mp hidentities event hevent
    rw [assetToMaster_isSome hidentities]
    exact ⟨(selectAssetStateIdentity event).1, List.mem_map_of_mem hevent,
      (selectAssetStateIdentity_hasAsset hsilent name).mpr hname⟩
  exact accum_invariant_quiet hquiet hstart (fun _ _ _ hstep ih => hydratePass_gathered hstep ih)

/-! ## routing -/

variable {routing : IncrementalPassRouting}

theorem mem_route {config : DownloadConfig} {db : MembershipDb} {asset : PhotoAsset}
    {membershipsRead : Bool} {passIndices : List Nat} {index : Nat}
    (hroute : routeIncrementalAssetToPasses config routing db asset membershipsRead =
      some passIndices) (hselected : routing.hasSelectedAlbums = true) :
    index ∈ passIndices ↔
      (∃ containerId ∈ routing.selectedContainerIds,
        db.isLive config.library containerId asset.assetRecordName = true ∧
          index ∈ routing.albumPassesForContainer containerId) ∨
        (∀ containerId ∈ routing.selectedContainerIds,
          db.isLive config.library containerId asset.assetRecordName = false) ∧
          index ∈ routing.unfiledPasses := by
  unfold routeIncrementalAssetToPasses at hroute
  simp only [hselected, Bool.not_true, Bool.false_eq_true, if_false] at hroute
  split at hroute
  · cases hroute
    have hlive (containerId : String) := @exists_mem_getLiveSelected config.library
      asset.assetRecordName containerId routing.selectedContainerIds db
    rw [List.mem_mergeSort, List.mem_dedup, List.mem_append, List.mem_flatMap]
    refine or_congr ⟨?_, ?_⟩ ?_
    · rintro ⟨m, hm, hindex⟩
      obtain ⟨hcontainer, hlive⟩ := (hlive m.containerId).mp ⟨m, hm, rfl⟩
      exact ⟨m.containerId, hcontainer, hlive, hindex⟩
    · rintro ⟨containerId, hcontainer, hisLive, hindex⟩
      obtain ⟨m, hm, rfl⟩ := (hlive containerId).mpr ⟨hcontainer, hisLive⟩
      exact ⟨m, hm, hindex⟩
    · have hempty : (getLiveSelectedAlbumMembershipsForAsset config.library asset.assetRecordName
          routing.selectedContainerIds db).isEmpty = true ↔
          ∀ containerId ∈ routing.selectedContainerIds,
            db.isLive config.library containerId asset.assetRecordName = false := by
        rw [List.isEmpty_iff, List.eq_nil_iff_forall_not_mem]
        constructor
        · intro hnone containerId hcontainer
          refine Bool.eq_false_iff.mpr (fun hisLive => ?_)
          obtain ⟨m, hm, -⟩ := (hlive containerId).mpr ⟨hcontainer, hisLive⟩
          exact hnone m hm
        · intro hdead m hm
          obtain ⟨hcontainer, hisLive⟩ := (hlive m.containerId).mp ⟨m, hm, rfl⟩
          simp [hdead _ hcontainer] at hisLive
      rw [← hempty]
      split
      · next h => simp [h]
      · next h => simp [h]
  · cases hroute

variable {containerId : String}

theorem isSelected_iff :
    routing.isSelected containerId = true ↔
      ∃ index, index ∈ routing.albumPassesForContainer containerId := by
  simp [IncrementalPassRouting.isSelected, List.eq_nil_iff_forall_not_mem]

theorem hasSelectedAlbums_of_mem {index : Nat}
    (h : index ∈ routing.albumPassesForContainer containerId) :
    routing.hasSelectedAlbums = true := by
  cases hempty : routing.selectedAlbumPasses with
  | nil => simp [IncrementalPassRouting.albumPassesForContainer, hempty] at h
  | cons => simp [IncrementalPassRouting.hasSelectedAlbums, hempty]

theorem mem_albumPasses {passes : List AlbumPass} {index : Nat} :
    index ∈ (IncrementalPassRouting.fromPasses passes).albumPassesForContainer containerId ↔
      ∃ pass, passes[index]? = some pass ∧ pass.kind = .album ∧
        pass.containerId = some containerId := by
  simp only [IncrementalPassRouting.albumPassesForContainer, IncrementalPassRouting.fromPasses,
    List.mem_map, List.mem_filter, List.mem_filterMap, List.mem_zipIdx_iff_getElem?]
  constructor
  · rintro ⟨⟨id, i⟩, ⟨⟨⟨pass, j⟩, hpass, hentry⟩, hid⟩, rfl⟩
    simp only [Option.ite_none_right_eq_some, Option.map_eq_some_iff, Prod.mk.injEq] at hentry
    obtain ⟨hkind, id', hcontainer, rfl, rfl⟩ := hentry
    obtain rfl : id' = containerId := of_decide_eq_true hid
    exact ⟨pass, hpass, hkind, hcontainer⟩
  · rintro ⟨pass, hpass, hkind, hcontainer⟩
    exact ⟨(containerId, index), ⟨⟨(pass, index), hpass, by simp [hkind, hcontainer]⟩, by simp⟩,
      rfl⟩

theorem mem_selectedContainerIds {passes : List AlbumPass} :
    containerId ∈ (IncrementalPassRouting.fromPasses passes).selectedContainerIds ↔
      (IncrementalPassRouting.fromPasses passes).isSelected containerId = true := by
  simp [IncrementalPassRouting.isSelected, IncrementalPassRouting.albumPassesForContainer,
    IncrementalPassRouting.fromPasses]

variable {event : Delivered}

theorem routeEvent_plain {db : MembershipDb} {asset : PhotoAsset}
    (hplain : event.isPlainCreated = true) (hasset : event.asset = some asset)
    (hquiet : (routeEvent inp db event).2 = []) :
    ∃ passIndices, routeIncrementalAssetToPasses inp.config inp.routing db asset
        event.replies.membershipsRead = some passIndices ∧
      (routeEvent inp db event).1 = passIndices.map (fun index => (asset, index)) := by
  simp only [Delivered.isPlainCreated, Bool.and_eq_true, decide_eq_true_eq,
    Option.isNone_iff_eq_none] at hplain
  obtain ⟨⟨⟨hreason, halbum⟩, hrelation⟩, hsafe⟩ := hplain
  revert hquiet
  unfold routeEvent
  simp only [halbum, hrelation, hsafe, hreason, hasset, Option.isSome_none, Bool.or_self,
    Bool.false_eq_true, if_false]
  cases routeIncrementalAssetToPasses inp.config inp.routing db asset
      event.replies.membershipsRead with
  | none => simp
  | some passIndices => exact fun _ => ⟨passIndices, rfl, rfl⟩

/-! ## relations -/

theorem relations_mappings (events : List Delivered) :
    (accum (applyIncrementalRelationDelta inp inp.hydrated.1.assetToMaster)
      ⟨inp.hydrated.1.store, []⟩ events).1.store.assetMasterMappings =
    inp.hydrated.1.store.assetMasterMappings :=
  accum_invariant (I := fun state : Relations =>
    state.store.assetMasterMappings = inp.hydrated.1.store.assetMasterMappings) rfl
    (fun _ _ _ h => applyRelation_mappings.trans h)

variable {relation : AlbumRelationDelta}

/-- The asset of an addition to a selected album has a mapping, or the run has it. -/
theorem relation_known (hdb : inp.config.hasStateDb = true) (hidentities : inp.identityIssues = [])
    (hhydrated : inp.hydrated.2 = []) (hquiet : inp.relations.2 = [])
    (hevent : event ∈ inp.identified) (hrelation : event.relation = some relation)
    (hadded : relation.isDeleted = false)
    (hselected : inp.routing.isSelected relation.containerId = true) :
    inp.Mapped relation.assetRecordName ∨
      (inp.hydrated.1.assetToMaster relation.assetRecordName).isSome := by
  obtain ⟨before, after, hsplit⟩ := List.append_of_mem hevent
  have hstep := accum_quiet.mp hquiet before event after hsplit
  rcases (applyRelation_quiet hdb hrelation hstep).2 hadded hselected with hknown | hstored
  · exact .inr hknown
  · rw [Input.storedMaster, Store.getMasterRecordNameForAsset, relations_mappings] at hstored
    exact (hydrated_gathered hidentities hhydrated).mapped _ hstored

/-- The asset of the relation is planned for every pass of the album. -/
def Input.PlannedFor (inp : Input) (relation : AlbumRelationDelta) : Prop :=
  ∀ index ∈ inp.routing.albumPassesForContainer relation.containerId,
    ∃ asset, asset.assetRecordName = relation.assetRecordName ∧ (asset, index) ∈ inp.cappedAssets

/-- The cap of `--recent` does not bind. -/
def Input.Uncapped (inp : Input) : Prop :=
  ∀ limit, inp.config.recent = some limit → inp.downloadableAssets.length ≤ limit

theorem Input.Uncapped.cappedAssets (h : inp.Uncapped) :
    inp.cappedAssets = inp.downloadableAssets := by
  unfold Input.cappedAssets
  split
  · next limit hlimit => exact List.take_of_length_le (h limit hlimit)
  · rfl

theorem hydrated_planned (hidentities : inp.identityIssues = []) (hhydrated : inp.hydrated.2 = [])
    (huncapped : inp.Uncapped) (hevent : event ∈ inp.identified)
    (hrelation : event.relation = some relation) (hadded : relation.isDeleted = false)
    (hnew : inp.assetToMaster relation.assetRecordName = none)
    (hknown : (inp.hydrated.1.assetToMaster relation.assetRecordName).isSome) :
    inp.PlannedFor relation := by
  intro index hindex
  have hmissing : index ∈ passIndicesByAsset inp.missing relation.assetRecordName := by
    unfold passIndicesByAsset
    rw [List.mem_dedup, List.mem_flatMap]
    cases hpasses : inp.routing.albumPassesForContainer relation.containerId with
    | nil => simp [hpasses] at hindex
    | cons first rest =>
        refine ⟨⟨first, relation.assetRecordName, first :: rest⟩, ?_, hpasses ▸ hindex⟩
        refine List.mem_filter.mpr ⟨List.mem_filterMap.mpr ⟨event, hevent, ?_⟩, by simp⟩
        simp [missingRelation, hrelation, hadded, hpasses, hnew]
  rcases (hydrated_gathered hidentities hhydrated).planned _ hknown with h | hplanned
  · simp [hnew] at h
  · obtain ⟨asset, hasset, hmem⟩ := hplanned index hmissing
    refine ⟨asset, hasset, ?_⟩
    rw [huncapped.cappedAssets]
    exact List.mem_append_left _ hmem

/-- An addition whose asset a created event has: the routing plans it. -/
theorem routed_planned (hrouting : inp.routingIssues = []) (huncapped : inp.Uncapped)
    (hevent : event ∈ inp.identified) (hplain : event.isPlainCreated = true)
    (hname : event.hasAsset relation.assetRecordName)
    (hlive : inp.membershipDb.isLive inp.config.library relation.containerId
      relation.assetRecordName = true) : inp.PlannedFor relation := by
  intro index hindex
  obtain ⟨asset, hasset, hassetName⟩ := hname
  have hsilent := List.flatMap_eq_nil_iff.mp hrouting event hevent
  obtain ⟨passIndices, hroute, hpairs⟩ := routeEvent_plain hplain hasset hsilent
  have hcontainer : relation.containerId ∈ inp.routing.selectedContainerIds :=
    mem_selectedContainerIds.mpr (isSelected_iff.mpr ⟨index, hindex⟩)
  have hselected : inp.routing.hasSelectedAlbums = true := hasSelectedAlbums_of_mem hindex
  have hmem : index ∈ passIndices :=
    (mem_route hroute hselected).mpr
      (.inl ⟨relation.containerId, hcontainer, hassetName ▸ hlive, hindex⟩)
  refine ⟨asset, hassetName, ?_⟩
  rw [huncapped.cappedAssets]
  refine List.mem_append_right _ (List.mem_flatMap.mpr ⟨event, hevent, ?_⟩)
  rw [hpairs]
  exact List.mem_map.mpr ⟨index, hmem, rfl⟩

/-- **Additions to selected albums**: in a run that returns a token, the asset of each is planned
for every pass of the album, or its mapping is known from elsewhere, or the delta hides or deletes
the asset, or it removes the asset from the album again. -/
theorem relations_planned {out : Collected} {token : String} {event : Delivered}
    {relation : AlbumRelationDelta} (hdb : inp.config.hasStateDb = true)
    (huncapped : inp.Uncapped) (hrun : downloadPhotosIncrementalCollecting inp engine = some out)
    (htoken : out.result.syncToken = some token) (hevent : event ∈ inp.changeEvents)
    (hrelation : event.relation = some relation) (hadded : relation.isDeleted = false)
    (hselected : inp.routing.isSelected relation.containerId = true) :
    inp.PlannedFor relation ∨ inp.Mapped relation.assetRecordName ∨
      (∃ other ∈ inp.changeEvents, other.brings relation.assetRecordName ∧
        other.isPlainCreated = false) ∨
      lastWrite (relationWrites relation.containerId relation.assetRecordName) inp.changeEvents =
        some false := by
  obtain ⟨errors, hunblocked⟩ := tokenUnlessBlocked_of_token hrun htoken
  obtain ⟨-, -, -, hidentities, -, hhydrated, -, hrelations, hrouting⟩ :=
    issues_eq_nil.mp (tokenUnlessBlocked_quiet hunblocked)
  have hcompleted := identified_completed hidentities
  obtain ⟨event', hevent', hthis⟩ := hcompleted.exists_right hevent
  have hrelation' := hthis.relation.trans hrelation
  rcases relation_known hdb hidentities hhydrated hrelations hevent' hrelation' hadded hselected
    with hmapped | hknown
  · exact .inr (.inl hmapped)
  · cases hnew : inp.assetToMaster relation.assetRecordName with
    | none =>
        exact .inl (hydrated_planned hidentities hhydrated huncapped hevent' hrelation' hadded hnew
          hknown)
    | some master =>
        obtain ⟨source, hsource, hname⟩ :=
          (assetToMaster_isSome hidentities).mp (by simp [hnew] :
            (inp.assetToMaster relation.assetRecordName).isSome = true)
        obtain ⟨raw, hraw, hsame⟩ := hcompleted.exists_left hsource
        cases hplain : raw.isPlainCreated with
        | false =>
            exact .inr (.inr (.inl ⟨raw, hraw, hsame.brings _ hname, hplain⟩))
        | true =>
            have hisLive := membershipDb_isLive hdb hidentities
              (relationsRecorded_of_quiet hdb hrelations) relation.containerId
              relation.assetRecordName
            cases hlast : lastWrite (relationWrites relation.containerId relation.assetRecordName)
                inp.changeEvents with
            | none =>
                have hsilent := lastWrite_eq_none.mp hlast event hevent
                simp [relationWrites, hrelation] at hsilent
            | some live =>
                cases live with
                | false => exact .inr (.inr (.inr rfl))
                | true =>
                    rw [hlast] at hisLive
                    exact .inl (routed_planned hrouting huncapped hsource
                      (hsame.isPlainCreated.trans hplain) hname hisLive)

/-! ## a mapping from before -/

/-- Every call for an event goes well. -/
def wellReplied : EventReplies where
  mappingRecorded := true
  identityLookedUp := true
  stateRecordName := some "a"
  containerRecorded := true
  snapshotInvalidated := true
  relationLookedUp := true
  plannedContainerRecorded := true
  membershipRecorded := true
  membershipsRead := true
  sourceStateRecorded := true

/-- The provider ends the feed with a token and finds no record. -/
def plainReplies : Replies where
  token := some "next"
  resolveIdentities _ := []
  resolvePairs _ := ([], true)
  hydrateMatchingAssets _ _ := some []
  metadataRefreshed _ := true
  hydratorOrder := id
  hydratorOrder_perm := List.Perm.refl
  passIndexOrder _ := id
  passIndexOrder_perm _ := List.Perm.refl
  now := 1

def plainEngine : Engine where
  host := Download.sampleHost
  fuel := 1
  details asset :=
    { Download.samplePlanned asset.recordName with
      assetRecordName := asset.assetRecordName, stateRecordName := asset.stateRecordName,
      sourceZone := asset.sourceZone, filename := some "a.jpg",
      versions := [(.original, ⟨1, "u", "public.jpeg", "s"⟩)] }
  config :=
    { Download.samplePass with
      livePhotoMode := .imageOnly, liveResolution_isLive := Download.isLive_liveOriginal }
  folderStructureForPass _ := "none"
  dbHost := { computeHash := fun _ => "h", computeHash_ne := by simp }
  metadata _ := ⟨⟨⟨false, false, none, none, "d"⟩, none⟩, .inl rfl⟩
  downloaded _ := none
  assets := .empty
  currentPathExists _ _ := false
  seenAnswered _ _ := true
  albumRecorded _ := true
  refreshedTasks _ := []
  downloadPass tasks := ⟨tasks, [], 0, 0, 0, false⟩
  shutdownBeforeRetry := false
  retryTasks _ := []
  retryPass tasks := ⟨tasks, [], 0, 0, 0, false⟩
  rewriteFailures := 0
  interrupted := false

def albumPass : AlbumPass := ⟨.album, "Vacation", some "c", []⟩

/-- An asset `a` joins the album `c`; the delta does not have the asset. -/
def relationAdded : Delivered :=
  { ChangeEvent.new "a-IN-c" (some "CPLContainerRelation") .created with
    relation := some ⟨"c", "a", false⟩, replies := wellReplied }

/-- The asset `a` leaves the album `c`. -/
def relationRemoved : Delivered := { relationAdded with relation := some ⟨"c", "a", true⟩ }

def unfiledPass : AlbumPass := ⟨.unfiled, "", none, []⟩

/-- A run over `feed` with the album `c` selected, from a state that has the mappings. -/
def albumInput (passes : List AlbumPass) (mappings : String × String → Option String)
    (feed : List Delivered) : Input where
  passes := passes
  config := ⟨"PrimarySync", true, .download, none⟩
  store := ⟨.empty, mappings⟩
  feed := feed
  feedFails := false
  shutdownAt := none
  replies := plainReplies

/-- The mapping of `a` is stored. -/
def knownInput : Input :=
  albumInput [albumPass] (fun key => if key = ("PrimarySync", "a") then some "m" else none)
    [relationAdded]

theorem knownInput_token :
    (downloadPhotosIncrementalCollecting knownInput plainEngine).bind (·.result.syncToken) =
      some "next" := by decide +kernel

/-- The asset that joins the album is mapped already. -/
theorem relations_planned_known :
    ∃ out, downloadPhotosIncrementalCollecting knownInput plainEngine = some out ∧
      (knownInput.PlannedFor ⟨"c", "a", false⟩ ∨ knownInput.Mapped "a" ∨
        (∃ other ∈ knownInput.changeEvents, other.brings "a" ∧ other.isPlainCreated = false) ∨
        lastWrite (relationWrites "c" "a") knownInput.changeEvents = some false) := by
  obtain ⟨out, hrun, htoken⟩ := Option.bind_eq_some_iff.mp knownInput_token
  have huncapped : knownInput.Uncapped := fun limit hlimit => nomatch hlimit
  have hevent : relationAdded ∈ knownInput.changeEvents := List.mem_cons_self
  exact ⟨out, hrun, relations_planned rfl huncapped hrun htoken hevent rfl rfl (by decide)⟩

/-- Every addition of the delta to a selected album is planned when the token is returned. -/
def RelationsPlanned (inp : Input) (engine : Engine) : Prop :=
  ∀ out token event relation, downloadPhotosIncrementalCollecting inp engine = some out →
    out.result.syncToken = some token → event ∈ inp.feed → event.relation = some relation →
    relation.isDeleted = false → inp.routing.isSelected relation.containerId = true →
    inp.PlannedFor relation

/-- A stored mapping is enough: the addition returns the token and nothing is planned. -/
theorem relations_not_planned : ¬RelationsPlanned knownInput plainEngine := by
  intro h
  obtain ⟨out, hrun, htoken⟩ := Option.bind_eq_some_iff.mp knownInput_token
  have hplanned := h out "next" relationAdded ⟨"c", "a", false⟩ hrun htoken List.mem_cons_self rfl
    rfl (by decide)
  obtain ⟨asset, -, hmem⟩ := hplanned 0 (by decide)
  have hnone : knownInput.cappedAssets.length = 0 := by decide +kernel
  rw [List.length_eq_zero_iff.mp hnone] at hmem
  cases hmem

end Kei.Incremental
