import Kei.Incremental.Phases
import Kei.Lib.LastWriter

/-!
# Kei.Incremental.Memberships

The memberships that a run routes its assets with.

A relation of the delta writes one cell, whether its asset is a live member of
its container, and the last relation wins: `membershipDb_isLive`.
-/

namespace Kei.Incremental

open Accum Changes FullEnumeration StateDb

/-! ## one relation -/

/-- What an event says of the asset and the container. -/
def relationWrites (containerId asset : String) (event : Delivered) : Option Bool :=
  match event.relation with
  | none => none
  | some relation =>
      if relation.containerId = containerId ∧ relation.assetRecordName = asset then
        some (!relation.isDeleted)
      else none

theorem isLive_writeMembership (config : DownloadConfig) (now : Int)
    (relation : AlbumRelationDelta) (master : Option String) (db : MembershipDb)
    (containerId asset : String) :
    (writeMembership config now relation master db).2.isLive config.library containerId asset =
      if relation.containerId = containerId ∧ relation.assetRecordName = asset then
        !relation.isDeleted
      else db.isLive config.library containerId asset := by
  unfold writeMembership
  by_cases hkey : relation.containerId = containerId ∧ relation.assetRecordName = asset
  · cases hdeleted : relation.isDeleted <;>
      cases hget : db.assetAlbumMemberships.get? (config.library, asset, containerId) <;>
      simp [MembershipDb.isLive, get?_markDeleted, upsertAlbumMembershipDelta, Table.get?_upsert,
        hget, hkey]
  · have hkey' : ¬(relation.assetRecordName = asset ∧ relation.containerId = containerId) :=
      fun h => hkey h.symm
    cases hdeleted : relation.isDeleted <;>
      simp [MembershipDb.isLive, get?_markDeleted, upsertAlbumMembershipDelta, Table.get?_upsert,
        hkey, hkey']

variable {inp : Input}

theorem ensurePlannedContainer_isLive (state : Relations) (containerId : String) (recorded : Bool)
    (c a : String) :
    (ensurePlannedContainer inp state containerId recorded).1.store.memberships.isLive
        inp.config.library c a =
      state.store.memberships.isLive inp.config.library c a := by
  unfold ensurePlannedContainer
  split
  · rfl
  · split
    · rfl
    · split <;> rfl

theorem ensurePlannedContainer_mappings (state : Relations) (containerId : String)
    (recorded : Bool) :
    (ensurePlannedContainer inp state containerId recorded).1.store.assetMasterMappings =
      state.store.assetMasterMappings := by
  unfold ensurePlannedContainer
  split
  · rfl
  · split
    · rfl
    · split <;> rfl

variable {mapping : AssetToMaster} {state : Relations} {event : Delivered}

theorem applyRelation_isLive {relation : AlbumRelationDelta} (hdb : inp.config.hasStateDb = true)
    (hrelation : event.relation = some relation)
    (hrecorded : event.replies.membershipRecorded = true) (c a : String) :
    (applyIncrementalRelationDelta inp mapping state event).1.store.memberships.isLive
        inp.config.library c a =
      if relation.containerId = c ∧ relation.assetRecordName = a then !relation.isDeleted
      else state.store.memberships.isLive inp.config.library c a := by
  unfold applyIncrementalRelationDelta
  simp only [hrelation, hdb, hrecorded, if_true]
  rw [isLive_writeMembership, ensurePlannedContainer_isLive]

theorem applyRelation_mappings :
    (applyIncrementalRelationDelta inp mapping state event).1.store.assetMasterMappings =
      state.store.assetMasterMappings := by
  unfold applyIncrementalRelationDelta
  split
  · rfl
  · split
    · dsimp only
      split <;> exact ensurePlannedContainer_mappings ..
    · rfl

/-- A relation without an issue is written, and the asset of an addition to a selected album is
known. -/
theorem applyRelation_quiet {relation : AlbumRelationDelta} (hdb : inp.config.hasStateDb = true)
    (hrelation : event.relation = some relation)
    (hquiet : (applyIncrementalRelationDelta inp mapping state event).2 = []) :
    event.replies.membershipRecorded = true ∧
      (relation.isDeleted = false → inp.routing.isSelected relation.containerId = true →
        (mapping relation.assetRecordName).isSome ∨
          (inp.storedMaster state.store relation.assetRecordName).isSome) := by
  revert hquiet
  unfold applyIncrementalRelationDelta
  simp only [hrelation, hdb, if_true]
  cases hmaster : relationMaster inp.config mapping state.store relation
      event.replies.relationLookedUp with
  | error issue => simp
  | ok master =>
      cases hrecorded : event.replies.membershipRecorded with
      | false => simp
      | true =>
          refine fun hquiet => ⟨rfl, fun hadded hselected => ?_⟩
          have hsome : master.isSome = true := by
            cases master with
            | some => rfl
            | none => simp [hadded, hselected] at hquiet
          unfold relationMaster at hmaster
          split at hmaster
          · next hmapping => exact .inl (by simp [hmapping])
          · rw [if_neg (by simp [hadded])] at hmaster
            split at hmaster
            · cases hmaster
              exact .inr hsome
            · cases hmaster

theorem applyRelation_none (hrelation : event.relation = none) :
    applyIncrementalRelationDelta inp mapping state event = (state, []) := by
  unfold applyIncrementalRelationDelta
  rw [hrelation]

/-! ## all relations -/

/-- Every relation of the run is written. -/
def Input.RelationsRecorded (inp : Input) : Prop :=
  ∀ event ∈ inp.identified, event.relation.isSome = true →
    event.replies.membershipRecorded = true

theorem relationsRecorded_of_quiet (hdb : inp.config.hasStateDb = true)
    (hquiet : inp.relations.2 = []) : inp.RelationsRecorded := by
  intro event hevent hsome
  obtain ⟨relation, hrelation⟩ := Option.isSome_iff_exists.mp hsome
  obtain ⟨before, after, hsplit⟩ := List.append_of_mem hevent
  exact (applyRelation_quiet hdb hrelation (accum_quiet.mp hquiet before event after hsplit)).1

/-- **The last write of a relation tells whether it is live.** -/
theorem relations_isLive (hdb : inp.config.hasStateDb = true) (hrecorded : inp.RelationsRecorded)
    (containerId asset : String) :
    inp.membershipDb.isLive inp.config.library containerId asset =
      (lastWrite (relationWrites containerId asset) inp.identified).getD
        (inp.hydrated.1.store.memberships.isLive inp.config.library containerId asset) := by
  unfold Input.membershipDb Input.relations
  rw [accum_fst_eq_foldl]
  refine @foldl_lastWrite _ _ _ (relationWrites containerId asset) _
    (fun state : Relations => state.store.memberships.isLive inp.config.library containerId asset)
    (fun _ events => ∀ event ∈ events, event.relation.isSome = true →
      event.replies.membershipRecorded = true)
    (fun state event events hok => ?_) _ _ hrecorded
  refine ⟨fun event' hevent' => hok event' (List.mem_cons_of_mem _ hevent'), ?_⟩
  unfold relationWrites
  cases hrelation : event.relation with
  | none => simp [applyRelation_none hrelation]
  | some relation =>
      rw [applyRelation_isLive hdb hrelation (hok event List.mem_cons_self (by simp [hrelation]))]
      by_cases hkey : relation.containerId = containerId ∧ relation.assetRecordName = asset <;>
        simp [hkey]

/-! ## the phases before -/

theorem persistMapping_memberships (config : DownloadConfig) (asset master library : String)
    (recorded : Bool) (store : Store) :
    (persistAssetMasterMapping config asset master library recorded store).1.memberships =
      store.memberships := by
  unfold persistAssetMasterMapping
  split
  · dsimp only
    split <;> rfl
  · rfl

theorem persistForAsset_memberships (config : DownloadConfig) (asset : PhotoAsset)
    (recorded : Bool) (store : Store) :
    (persistAssetMappingForAsset config asset recorded store).1.memberships =
      store.memberships := persistMapping_memberships ..

theorem mapped_memberships (inp : Input) : inp.mapped.1.memberships = inp.store.memberships := by
  refine accum_invariant (I := fun store : Store => store.memberships = inp.store.memberships) rfl
    (fun store event _ h => ?_)
  unfold persistAssetMapping
  split
  · exact h
  · rw [persistForAsset_memberships, h]

theorem resolveIdentity_memberships (config : DownloadConfig) (state : Store × Unpaired)
    (resolved : Resolved) :
    (resolveIdentity config state resolved).1.1.memberships = state.1.memberships := by
  obtain ⟨store, unpaired⟩ := state
  unfold resolveIdentity
  dsimp only
  split
  · rfl
  · split
    · exact persistMapping_memberships ..
    · rfl
    · rfl

theorem resolvePair_memberships (config : DownloadConfig) (pending : List Pending)
    (state : Store × List Delivered) (resolved : Resolved) :
    (resolvePair config pending state resolved).1.1.memberships = state.1.memberships := by
  obtain ⟨store, events⟩ := state
  unfold resolvePair
  dsimp only
  split
  · rfl
  · split
    · rfl
    · split
      · split
        · exact persistForAsset_memberships ..
        · rfl
      · rfl
      · rfl

/-- Pairing leaves the memberships alone. -/
theorem paired_memberships (inp : Input) :
    inp.paired.1.1.memberships = inp.store.memberships := by
  have hunresolved (unpaired : Unpaired) :
      (resolveUnresolved inp.config inp.replies inp.mapped.1 unpaired).1.1.memberships =
        inp.store.memberships := by
    unfold resolveUnresolved
    split
    · exact mapped_memberships inp
    · exact accum_invariant
        (I := fun state : Store × Unpaired => state.1.memberships = inp.store.memberships)
        (mapped_memberships inp)
        (fun state resolved _ h => (resolveIdentity_memberships ..).trans h)
  have hpending (store : Store) (pending : List Pending)
      (h : store.memberships = inp.store.memberships) :
      (resolvePending inp.config inp.replies store inp.changeEvents pending).1.1.memberships =
        inp.store.memberships := by
    unfold resolvePending
    split
    · exact h
    · exact accum_invariant
        (I := fun state : Store × List Delivered => state.1.memberships = inp.store.memberships) h
        (fun state resolved _ h => (resolvePair_memberships ..).trans h)
  unfold Input.paired hydrateUnpairedCreatedAssetDeltas
  dsimp only
  split
  · exact mapped_memberships inp
  · split
    · exact hpending _ _ (hunresolved _)
    · exact mapped_memberships inp

theorem applyIncrementalAlbumDelta_isLive (config : DownloadConfig) (now : Int) (store : Store)
    (event : Delivered) (library containerId asset : String) :
    (applyIncrementalAlbumDelta config now store event).1.memberships.isLive library containerId
        asset =
      store.memberships.isLive library containerId asset := by
  unfold applyIncrementalAlbumDelta
  split
  · rfl
  · dsimp only
    repeat' split
    all_goals rfl

theorem albums_isLive (inp : Input) (library containerId asset : String) :
    inp.albums.1.memberships.isLive library containerId asset =
      inp.store.memberships.isLive library containerId asset := by
  refine accum_invariant
    (I := fun store : Store => store.memberships.isLive library containerId asset =
      inp.store.memberships.isLive library containerId asset)
    (by rw [paired_memberships]) (fun store event _ h => ?_)
  rw [applyIncrementalAlbumDelta_isLive, h]

theorem hydrateAsset_memberships (hasContext : Bool) (missing : List MissingRelation)
    (state : Hydration) (found : HydratedAsset) :
    (hydrateAsset inp hasContext missing state found).1.store.memberships =
      state.store.memberships := by
  unfold hydrateAsset
  dsimp only
  split <;> exact persistForAsset_memberships ..

theorem hydratePass_memberships (hasContext : Bool) (missing : List MissingRelation)
    (state : Hydration) (hydrator : Nat) :
    (hydratePass inp hasContext missing state hydrator).1.store.memberships =
      state.store.memberships := by
  unfold hydratePass
  dsimp only
  split
  · rfl
  · split
    · rfl
    · exact accum_invariant
        (I := fun state' : Hydration => state'.store.memberships = state.store.memberships) rfl
        (fun state' found _ h => (hydrateAsset_memberships ..).trans h)

theorem hydrated_isLive (inp : Input) (library containerId asset : String) :
    inp.hydrated.1.store.memberships.isLive library containerId asset =
      inp.store.memberships.isLive library containerId asset := by
  have hsame : inp.hydrated.1.store.memberships = inp.albums.1.memberships :=
    accum_invariant
      (I := fun state : Hydration => state.store.memberships = inp.albums.1.memberships) rfl
      (fun state hydrator _ h => (hydratePass_memberships ..).trans h)
  rw [hsame, albums_isLive]

/-- **The memberships of the routing**: the last relation of the delta, or else the database. -/
theorem membershipDb_isLive (hdb : inp.config.hasStateDb = true)
    (hidentities : inp.identityIssues = []) (hrecorded : inp.RelationsRecorded)
    (containerId asset : String) :
    inp.membershipDb.isLive inp.config.library containerId asset =
      (lastWrite (relationWrites containerId asset) inp.changeEvents).getD
        (inp.store.memberships.isLive inp.config.library containerId asset) := by
  have hwrites : inp.identified.map (relationWrites containerId asset) =
      inp.changeEvents.map (relationWrites containerId asset) :=
    map_eq_of_completed (fun _ => rfl) (identified_completed hidentities)
  rw [relations_isLive hdb hrecorded, hydrated_isLive, lastWrite_congr hwrites]

end Kei.Incremental
