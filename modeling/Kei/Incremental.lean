import Kei.Changes
import Kei.FullEnumeration
import Kei.Lib.Accum
import Kei.StateDb.Memberships
import Mathlib.Data.List.Dedup

/-!
# Kei.Incremental

One incremental run over the changes of a zone, up to the assets it has to
download: the state that each phase leaves, the issues it raises and the passes
it routes an asset to.

The calls to the provider and to the database reply as the run's `Replies` say.
An issue holds the token back; the first one gives the reason.
-/

namespace Kei

/-! ## assets -/

namespace Changes.PhotoAsset

def id (asset : PhotoAsset) : String := asset.recordName

def stateId (asset : PhotoAsset) : String := asset.stateRecordName.getD asset.recordName

def withStateRecordName (asset : PhotoAsset) (name : String) : PhotoAsset :=
  { asset with stateRecordName := some name }

@[simp] theorem withStateRecordName_assetRecordName (asset : PhotoAsset) (name : String) :
    (asset.withStateRecordName name).assetRecordName = asset.assetRecordName := rfl

end Changes.PhotoAsset

namespace Incremental

open Accum Changes FullEnumeration StateDb

/-! ## issues -/

/-- What holds the token back. -/
structure Issue where
  reason : String
  /-- It counts as a failed transition of the state. -/
  counted : Bool
  deriving DecidableEq

def albumRelationHydrationIncomplete : Issue := ⟨"album_relation_hydration_incomplete", false⟩

def unknownAlbumRelationContainer : Issue := ⟨"unknown_album_relation_container", false⟩

def unknownAlbumRelationAsset : Issue := ⟨"unknown_album_relation_asset", false⟩

def albumDeltaStateWriteFailed : Issue := ⟨"album_delta_state_write_failed", false⟩

def assetMasterMappingStateWriteFailed : Issue :=
  ⟨"asset_master_mapping_state_write_failed", true⟩

def assetDeltaHydrationIncomplete (counted : Bool) : Issue :=
  ⟨"asset_delta_hydration_incomplete", counted⟩

def providerMetadataStateWriteFailed : Issue := ⟨"provider_metadata_state_write_failed", true⟩

def incrementalDeleteStateWriteFailed : Issue := ⟨"incremental_delete_state_write_failed", true⟩

def incrementalHiddenStateWriteFailed : Issue := ⟨"incremental_hidden_state_write_failed", true⟩

/-- The issue, unless the call went well. -/
def issueUnless (ok : Bool) (issue : Issue) : List Issue := if ok then [] else [issue]

@[simp] theorem issueUnless_eq_nil {ok : Bool} {issue : Issue} :
    issueUnless ok issue = [] ↔ ok = true := by
  cases ok <;> simp [issueUnless]

/-! ## configuration and routing -/

inductive DownloadRunMode where
  | download
  | dryRun
  | printFilenames
  deriving DecidableEq

def DownloadRunMode.downloadsFiles (mode : DownloadRunMode) : Bool := mode = .download

def DownloadRunMode.onlyPrintFilenames (mode : DownloadRunMode) : Bool := mode = .printFilenames

structure IncrementalPassRouting where
  /-- The album passes by their container, in the order of the passes. -/
  selectedAlbumPasses : List (String × Nat)
  /-- Without duplicates; the order is not read. -/
  selectedContainerIds : List String
  unfiledPasses : List Nat

def IncrementalPassRouting.fromPasses (passes : List AlbumPass) : IncrementalPassRouting :=
  let selected := passes.zipIdx.filterMap (fun entry =>
    if entry.1.kind = .album then entry.1.containerId.map (fun id => (id, entry.2)) else none)
  { selectedAlbumPasses := selected,
    selectedContainerIds := (selected.map (·.1)).dedup,
    unfiledPasses := (passes.zipIdx.filter (fun entry => entry.1.kind = .unfiled)).map (·.2) }

namespace IncrementalPassRouting

def hasSelectedAlbums (routing : IncrementalPassRouting) : Bool :=
  !routing.selectedAlbumPasses.isEmpty

/-- The passes of a container; none when it is not selected. -/
def albumPassesForContainer (routing : IncrementalPassRouting) (containerId : String) : List Nat :=
  (routing.selectedAlbumPasses.filter (fun entry => entry.1 = containerId)).map (·.2)

def isSelected (routing : IncrementalPassRouting) (containerId : String) : Bool :=
  !(routing.albumPassesForContainer containerId).isEmpty

end IncrementalPassRouting

/-- The name under which an album container is planned. -/
def plannedAlbumName (passes : List AlbumPass) (containerId : String) : Option String :=
  let planned := passes.filter (fun pass =>
    pass.kind = .album && pass.containerId = some containerId)
  planned.getLast?.map (·.name)

/-! ## the state -/

/-- The tables that the run reads and writes before its downloads. -/
structure Store where
  memberships : MembershipDb
  /-- `asset_master_mappings`, by library and asset record name. -/
  assetMasterMappings : String × String → Option String

def Store.upsertAssetMasterMapping (store : Store) (library asset master : String) : Store :=
  { store with
    assetMasterMappings :=
      Function.update store.assetMasterMappings (library, asset) (some master) }

def Store.getMasterRecordNameForAsset (store : Store) (library asset : String) : Option String :=
  store.assetMasterMappings (library, asset)

/-! ## replies -/

/-- How the calls made for one event of the delta go. -/
structure EventReplies where
  mappingRecorded : Bool
  /-- The stored mapping of an asset-only record could be looked up. -/
  identityLookedUp : Bool
  /-- The name of the asset's state row; `none` when it could not be claimed. -/
  stateRecordName : Option String
  /-- The album container was written: upserted, or marked deleted. -/
  containerRecorded : Bool
  snapshotInvalidated : Bool
  /-- The stored mapping of a relation's asset could be looked up. -/
  relationLookedUp : Bool
  plannedContainerRecorded : Bool
  membershipRecorded : Bool
  /-- The memberships of the asset could be looked up for its routing. -/
  membershipsRead : Bool
  /-- The change of the source state was written. -/
  sourceStateRecorded : Bool
  deriving DecidableEq

/-- An event of the delta with the replies to its calls. -/
structure Delivered extends ChangeEvent where
  replies : EventReplies

inductive RecordResolution where
  | present (asset : PhotoAsset)
  | assetPresent (masterRecordName : String)
  | masterPresent
  | deleted (masterFamily : Bool)
  | unknown
  | transientFailure

/-- What the provider says of a record, and whether the write that follows goes well. -/
structure Resolved where
  stateId : String
  resolution : RecordResolution
  recorded : Bool

/-- An asset that a scan of the zone found, with the replies to its calls. -/
structure HydratedAsset where
  asset : PhotoAsset
  mappingRecorded : Bool
  stateRecordName : Option String

/-- The replies to the calls that are not made for a single event. -/
structure Replies where
  /-- What the sender of the feed's token sent. -/
  token : Option String
  resolveIdentities : List String → List Resolved
  /-- With whether every request was answered. -/
  resolvePairs : List (String × String) → List Resolved × Bool
  /-- The assets that the scan of a pass's zone finds among the given names. -/
  hydrateMatchingAssets : Nat → List String → Option (List HydratedAsset)
  /-- The metadata of the asset has not changed, or the rows took the change. -/
  metadataRefreshed : PhotoAsset → Bool
  /-- The orders in which the hash tables are iterated. -/
  hydratorOrder : List Nat → List Nat
  hydratorOrder_perm : ∀ l, (hydratorOrder l).Perm l
  passIndexOrder : String → List Nat → List Nat
  passIndexOrder_perm : ∀ asset l, (passIndexOrder asset l).Perm l
  now : Int

structure DownloadConfig where
  library : String
  hasStateDb : Bool
  runMode : DownloadRunMode
  recent : Option Nat
  deriving DecidableEq

/-- What a run starts from. -/
structure Input where
  passes : List AlbumPass
  config : DownloadConfig
  store : Store
  /-- The events of the feed, in order. -/
  feed : List Delivered
  /-- The feed ends with an error. -/
  feedFails : Bool
  /-- The place of the event at which the run sees that it shall shut down. -/
  shutdownAt : Option Nat
  replies : Replies

namespace Input

variable (inp : Input)

def routing : IncrementalPassRouting := .fromPasses inp.passes

/-- The events that are read; without a pass there is no feed. -/
def changeEvents : List Delivered :=
  if inp.passes.isEmpty then []
  else
    match inp.shutdownAt with
    | none => inp.feed
    | some n => inp.feed.take n

/-- Reading the feed stops at its error, unless the shutdown is seen before it. -/
def readFails : Bool :=
  !inp.passes.isEmpty && inp.feedFails && !inp.shutdownAt.any (fun n => n ≤ inp.feed.length)

def syncToken : Option String := if inp.passes.isEmpty then none else inp.replies.token

end Input

/-! ## asset and master mappings -/

/-- From asset record names to master record names. -/
abbrev AssetToMaster := String → Option String

def rememberAssetMapping (mapping : AssetToMaster) (event : Delivered) : AssetToMaster :=
  match event.asset with
  | none => mapping
  | some asset => Function.update mapping asset.assetRecordName (some asset.id)

def persistAssetMasterMapping (config : DownloadConfig) (asset master library : String)
    (recorded : Bool) (store : Store) : Store × List Issue :=
  if config.hasStateDb then
    (if recorded then store.upsertAssetMasterMapping library asset master else store,
      issueUnless recorded assetMasterMappingStateWriteFailed)
  else
    (store, [])

def persistAssetMappingForAsset (config : DownloadConfig) (asset : PhotoAsset) (recorded : Bool)
    (store : Store) : Store × List Issue :=
  persistAssetMasterMapping config asset.assetRecordName asset.id
    (asset.sourceZone.getD config.library) recorded store

def persistAssetMapping (config : DownloadConfig) (store : Store) (event : Delivered) :
    Store × List Issue :=
  match event.asset with
  | none => (store, [])
  | some asset => persistAssetMappingForAsset config asset event.replies.mappingRecorded store

/-! ## asset-only records

Their master is looked up, and the provider is asked for the two records. -/

structure Pending where
  index : Nat
  recordName : String
  masterRecordName : String

/-- What is known of the asset-only records. -/
structure Unpaired where
  pending : List Pending
  /-- The places of the records without a known master, by their names. -/
  unresolved : List (String × Nat)

def Delivered.isUnpairedCreated (event : Delivered) : Bool :=
  event.reason = .created && event.asset.isNone && event.recordType = some "CPLAsset"

/-- The master of an asset-only record; an error is a failed lookup. -/
def unpairedMaster (config : DownloadConfig) (store : Store) (event : Delivered) :
    Except Issue (Option String) :=
  match event.masterRecordName with
  | some master => .ok (some master)
  | none =>
      if config.hasStateDb then
        if event.replies.identityLookedUp then
          .ok (store.getMasterRecordNameForAsset config.library event.recordName)
        else
          .error (assetDeltaHydrationIncomplete true)
      else
        .ok none

def collectUnpaired (config : DownloadConfig) (store : Store) (unpaired : Unpaired)
    (entry : Delivered × Nat) : Unpaired × List Issue :=
  if entry.1.isUnpairedCreated then
    match unpairedMaster config store entry.1 with
    | .error issue => (unpaired, [issue])
    | .ok (some master) =>
        ({ unpaired with
          pending := unpaired.pending ++ [⟨entry.2, entry.1.recordName, master⟩] }, [])
    | .ok none =>
        ({ unpaired with
          unresolved := unpaired.unresolved ++ [(entry.1.recordName, entry.2)] }, [])
  else
    (unpaired, [])

/-- What the provider says of a record without a known master. -/
def resolveIdentity (config : DownloadConfig) (state : Store × Unpaired) (resolved : Resolved) :
    (Store × Unpaired) × List Issue :=
  let (store, unpaired) := state
  let indices := (unpaired.unresolved.filter (fun u => u.1 = resolved.stateId)).map (·.2)
  if indices.isEmpty then
    (state, [assetDeltaHydrationIncomplete false])
  else
    let unresolved := unpaired.unresolved.filter (fun u => u.1 ≠ resolved.stateId)
    match resolved.resolution with
    | .assetPresent master =>
        let (store, issues) := persistAssetMasterMapping config resolved.stateId master
          config.library resolved.recorded store
        ((store,
          { pending :=
              unpaired.pending ++ indices.map (fun index => ⟨index, resolved.stateId, master⟩),
            unresolved := unresolved }), issues)
    | .deleted false => ((store, { unpaired with unresolved := unresolved }), [])
    | _ => ((store, { unpaired with unresolved := unresolved }),
        [assetDeltaHydrationIncomplete false])

def setAsset (events : List Delivered) (index : Nat) (asset : PhotoAsset) : List Delivered :=
  events.modify index (fun event => { event with asset := some asset })

/-- What the provider says of a pair of records. -/
def resolvePair (config : DownloadConfig) (pending : List Pending)
    (state : Store × List Delivered) (resolved : Resolved) :
    (Store × List Delivered) × List Issue :=
  let (store, events) := state
  match (pending.filter (fun p => p.recordName = resolved.stateId)).getLast? with
  | none => (state, [assetDeltaHydrationIncomplete false])
  | some p =>
      match events[p.index]? with
      | none => (state, [assetDeltaHydrationIncomplete false])
      | some event =>
          match resolved.resolution with
          | .present asset =>
              if asset.assetRecordName = event.recordName then
                let (store, issues) :=
                  persistAssetMappingForAsset config asset resolved.recorded store
                ((store, setAsset events p.index asset), issues)
              else
                (state, [assetDeltaHydrationIncomplete false])
          | .deleted _ =>
              (state, if config.hasStateDb then
                issueUnless resolved.recorded incrementalDeleteStateWriteFailed else [])
          | _ => (state, [assetDeltaHydrationIncomplete false])

/-- The first half: every record gets its master. -/
def resolveUnresolved (config : DownloadConfig) (replies : Replies) (store : Store)
    (unpaired : Unpaired) : (Store × Unpaired) × List Issue :=
  if unpaired.unresolved.isEmpty then
    ((store, unpaired), [])
  else
    let names := (unpaired.unresolved.map (·.1)).dedup
    let (state, issues) := accum (resolveIdentity config) (store, unpaired)
      (replies.resolveIdentities names)
    (state, issues ++ issueUnless state.2.unresolved.isEmpty (assetDeltaHydrationIncomplete false))

/-- The second half: the records are asked for with their masters. -/
def resolvePending (config : DownloadConfig) (replies : Replies) (store : Store)
    (events : List Delivered) (pending : List Pending) : (Store × List Delivered) × List Issue :=
  if pending.isEmpty then
    ((store, events), [])
  else
    let (results, complete) :=
      replies.resolvePairs (pending.map (fun p => (p.recordName, p.masterRecordName)))
    let (state, issues) := accum (resolvePair config pending) (store, events) results
    (state, issues ++ issueUnless complete (assetDeltaHydrationIncomplete false))

def hydrateUnpairedCreatedAssetDeltas (config : DownloadConfig) (hasPass : Bool)
    (replies : Replies) (store : Store) (events : List Delivered) :
    (Store × List Delivered) × List Issue :=
  let (unpaired, issues) := accum (collectUnpaired config store) ⟨[], []⟩ events.zipIdx
  if unpaired.pending.isEmpty && unpaired.unresolved.isEmpty then
    ((store, events), issues)
  else if hasPass then
    let ((store, unpaired), issues') := resolveUnresolved config replies store unpaired
    let (state, issues'') := resolvePending config replies store events unpaired.pending
    (state, issues ++ issues' ++ issues'')
  else
    ((store, events), issues ++ [assetDeltaHydrationIncomplete false])

/-! ## state identities -/

/-- The asset of a created record gets the name of its state row, or is dropped. -/
def selectAssetStateIdentity (event : Delivered) : Delivered × List Issue :=
  match event.asset with
  | none => (event, [])
  | some asset =>
      if event.reason = .created then
        match event.replies.stateRecordName with
        | some name => ({ event with asset := some (asset.withStateRecordName name) }, [])
        | none => ({ event with asset := none }, [assetMasterMappingStateWriteFailed])
      else
        (event, [])

/-- A created record that is neither an album nor a relation and may be downloaded. -/
def Delivered.isPlainCreated (event : Delivered) : Bool :=
  event.reason = .created && event.album.isNone && event.relation.isNone &&
    event.tokenUnsafeReason.isNone

/-! ## albums -/

def applyIncrementalAlbumDelta (config : DownloadConfig) (now : Int) (store : Store)
    (event : Delivered) : Store × List Issue :=
  match event.album with
  | none => (store, [])
  | some album =>
      if !config.hasStateDb then
        (store, [])
      else if !event.replies.containerRecorded then
        (store, [albumDeltaStateWriteFailed])
      else if album.isDeleted then
        let store := { store with
          memberships :=
            markAlbumContainerDeleted config.library album.containerId now store.memberships }
        if event.replies.snapshotInvalidated then
          ({ store with
            memberships := invalidateAlbumMembershipSnapshot config.library album.containerId now
              store.memberships }, [])
        else
          (store, [albumDeltaStateWriteFailed])
      else
        ({ store with
          memberships := upsertAlbumContainer config.library album.containerId album.albumName
            "album" now store.memberships }, [])

/-! ## assets that only a relation brings -/

/-- An addition to a selected album whose asset the delta does not have. -/
structure MissingRelation where
  hydrator : Nat
  assetRecordName : String
  passIndices : List Nat

def missingRelation (routing : IncrementalPassRouting) (mapping : AssetToMaster)
    (event : Delivered) : Option MissingRelation :=
  match event.relation with
  | none => none
  | some relation =>
      if relation.isDeleted then
        none
      else
        match routing.albumPassesForContainer relation.containerId with
        | [] => none
        | first :: rest =>
            if (mapping relation.assetRecordName).isSome then none
            else some ⟨first, relation.assetRecordName, first :: rest⟩

/-- What the hydration has gathered. -/
structure Hydration where
  store : Store
  assetToMaster : AssetToMaster
  completeDeltaAssets : List PhotoAsset
  downloadableAssets : List (PhotoAsset × Nat)
  hydratedAssetRecordNames : List String

/-- The passes for which an asset is missing. -/
def passIndicesByAsset (missing : List MissingRelation) (asset : String) : List Nat :=
  ((missing.filter (fun m => m.assetRecordName = asset)).flatMap (·.passIndices)).dedup

/-- One asset that a scan found. -/
def hydrateAsset (inp : Input) (hasContext : Bool) (missing : List MissingRelation)
    (state : Hydration) (found : HydratedAsset) : Hydration × List Issue :=
  let (store, issues) :=
    persistAssetMappingForAsset inp.config found.asset found.mappingRecorded state.store
  let selected : Option PhotoAsset :=
    if hasContext then found.stateRecordName.map found.asset.withStateRecordName
    else some found.asset
  match selected with
  | none => ({ state with store := store }, issues ++ [assetMasterMappingStateWriteFailed])
  | some asset =>
      let name := found.asset.assetRecordName
      let passIndices := inp.replies.passIndexOrder name (passIndicesByAsset missing name)
      ({ store := store,
         assetToMaster := Function.update state.assetToMaster name (some asset.id),
         completeDeltaAssets := state.completeDeltaAssets ++ [asset],
         downloadableAssets :=
          state.downloadableAssets ++ passIndices.map (fun index => (asset, index)),
         hydratedAssetRecordNames := state.hydratedAssetRecordNames ++ [name] }, issues)

/-- One scan, for the names that are still missing. -/
def hydratePass (inp : Input) (hasContext : Bool) (missing : List MissingRelation)
    (state : Hydration) (hydrator : Nat) : Hydration × List Issue :=
  let names := ((missing.filter (fun m => m.hydrator = hydrator)).map (·.assetRecordName)).dedup
  let names := names.filter (fun name =>
    (state.assetToMaster name).isNone && !state.hydratedAssetRecordNames.contains name)
  if names.isEmpty || inp.passes.length ≤ hydrator then
    (state, [])
  else
    match inp.replies.hydrateMatchingAssets hydrator names with
    | none => (state, [albumRelationHydrationIncomplete])
    | some found => accum (hydrateAsset inp hasContext missing) state found

def hydrateMissingSelectedRelationAssets (inp : Input) (events : List Delivered)
    (state : Hydration) : Hydration × List Issue :=
  let missing := events.filterMap (missingRelation inp.routing state.assetToMaster)
  let hasContext := events.any (fun event => event.reason = .created)
  accum (hydratePass inp hasContext missing) state
    (inp.replies.hydratorOrder ((missing.map (·.hydrator)).dedup))

/-! ## provider metadata -/

/-- Each asset once, by its state row. -/
def applyChangedProviderMetadata (config : DownloadConfig) (replies : Replies)
    (refreshed : List String) (asset : PhotoAsset) : List String × List Issue :=
  if refreshed.contains asset.stateId then
    (refreshed, [])
  else
    (asset.stateId :: refreshed, if config.hasStateDb then
      issueUnless (replies.metadataRefreshed asset) providerMetadataStateWriteFailed else [])

/-! ## relations -/

/-- The state with the planned containers that were written for it. -/
structure Relations where
  store : Store
  ensuredPlannedContainers : List String

/-- The master of a relation's asset; an error is a failed lookup. -/
def relationMaster (config : DownloadConfig) (mapping : AssetToMaster) (store : Store)
    (relation : AlbumRelationDelta) (lookedUp : Bool) : Except Issue (Option String) :=
  match mapping relation.assetRecordName with
  | some master => .ok (some master)
  | none =>
      if relation.isDeleted then .ok none
      else if lookedUp then
        .ok (store.getMasterRecordNameForAsset config.library relation.assetRecordName)
      else .error albumRelationHydrationIncomplete

/-- A planned container is written once. -/
def ensurePlannedContainer (inp : Input) (state : Relations) (containerId : String)
    (recorded : Bool) : Relations × List Issue :=
  match plannedAlbumName inp.passes containerId with
  | none => (state, [])
  | some name =>
      if state.ensuredPlannedContainers.contains containerId then
        (state, [])
      else if recorded then
        ({ store := { state.store with
             memberships := upsertAlbumContainer inp.config.library containerId name "album"
               inp.replies.now state.store.memberships },
           ensuredPlannedContainers := containerId :: state.ensuredPlannedContainers }, [])
      else
        (state, [albumDeltaStateWriteFailed])

/-- The membership of a relation, with whether its container is known. -/
def writeMembership (config : DownloadConfig) (now : Int) (relation : AlbumRelationDelta)
    (master : Option String) (db : MembershipDb) : Bool × MembershipDb :=
  if relation.isDeleted then
    markAlbumMembershipDeleted config.library relation.containerId relation.assetRecordName now db
  else
    upsertAlbumMembershipDelta config.library relation.containerId relation.assetRecordName master
      "icloud" now db

def applyIncrementalRelationDelta (inp : Input) (mapping : AssetToMaster) (state : Relations)
    (event : Delivered) : Relations × List Issue :=
  match event.relation with
  | none => (state, [])
  | some relation =>
      if inp.config.hasStateDb then
        let selected := inp.routing.isSelected relation.containerId
        let (master, issues) :=
          match relationMaster inp.config mapping state.store relation
            event.replies.relationLookedUp with
          | .ok master => (master, [])
          | .error issue => (none, [issue])
        let (state, issues') := ensurePlannedContainer inp state relation.containerId
          event.replies.plannedContainerRecorded
        let (known, memberships) :=
          writeMembership inp.config inp.replies.now relation master state.store.memberships
        let (state, issues'') :=
          if event.replies.membershipRecorded then
            ({ state with store := { state.store with memberships := memberships } },
              if known || !selected then [] else [unknownAlbumRelationContainer])
          else
            (state, [albumDeltaStateWriteFailed])
        (state, issues ++ issues' ++ issues'' ++
          if !relation.isDeleted && selected && master.isNone then [unknownAlbumRelationAsset]
          else [])
      else
        (state, [])

/-! ## routing -/

/-- The passes of an asset; `none` when its memberships could not be read. -/
def routeIncrementalAssetToPasses (config : DownloadConfig) (routing : IncrementalPassRouting)
    (db : MembershipDb) (asset : PhotoAsset) (membershipsRead : Bool) : Option (List Nat) :=
  if !routing.hasSelectedAlbums then
    some routing.unfiledPasses
  else if config.hasStateDb && membershipsRead then
    let memberships := getLiveSelectedAlbumMembershipsForAsset config.library
      asset.assetRecordName routing.selectedContainerIds db
    let passIndices :=
      memberships.flatMap (fun m => routing.albumPassesForContainer m.containerId) ++
        if memberships.isEmpty then routing.unfiledPasses else []
    some (passIndices.dedup.mergeSort (· ≤ ·))
  else
    none

/-- The pairs of one event, and the issue of a change of state that was not written. -/
def routeEvent (inp : Input) (db : MembershipDb) (event : Delivered) :
    List (PhotoAsset × Nat) × List Issue :=
  if event.album.isSome || event.relation.isSome || event.tokenUnsafeReason.isSome then
    ([], [])
  else
    match event.reason with
    | .created =>
        match event.asset with
        | none => ([], [])
        | some asset =>
            match routeIncrementalAssetToPasses inp.config inp.routing db asset
              event.replies.membershipsRead with
            | some passIndices => (passIndices.map (fun index => (asset, index)), [])
            | none => ([], [albumRelationHydrationIncomplete])
    | .hidden =>
        ([], if inp.config.hasStateDb then
          issueUnless event.replies.sourceStateRecorded incrementalHiddenStateWriteFailed else [])
    | .softDeleted | .hardDeleted =>
        ([], if inp.config.hasStateDb then
          issueUnless event.replies.sourceStateRecorded incrementalDeleteStateWriteFailed else [])

/-! ## the phases of a run -/

namespace Input

variable (inp : Input)

/-- The marks of the provider. -/
def unsafeEvents : List Issue :=
  inp.changeEvents.filterMap (fun event => event.tokenUnsafeReason.map (fun r => ⟨r, false⟩))

/-- The mappings of the assets that came with the feed. -/
def mapped : Store × List Issue :=
  accum (persistAssetMapping inp.config) inp.store inp.changeEvents

/-- The asset-only records have their assets. -/
def paired : (Store × List Delivered) × List Issue :=
  hydrateUnpairedCreatedAssetDeltas inp.config (!inp.passes.isEmpty) inp.replies inp.mapped.1
    inp.changeEvents

/-- The assets have the names of their state rows. -/
def identified : List Delivered :=
  inp.paired.1.2.map (fun event => (selectAssetStateIdentity event).1)

def identityIssues : List Issue :=
  inp.paired.1.2.flatMap (fun event => (selectAssetStateIdentity event).2)

def completeDeltaAssets : List PhotoAsset :=
  (inp.identified.filter Delivered.isPlainCreated).filterMap (·.asset)

/-- The assets of the feed and of the records that were completed. -/
def assetToMaster : AssetToMaster :=
  inp.identified.foldl rememberAssetMapping
    (inp.changeEvents.foldl rememberAssetMapping (fun _ => none))

def albums : Store × List Issue :=
  accum (applyIncrementalAlbumDelta inp.config inp.replies.now) inp.paired.1.1 inp.identified

def hydrated : Hydration × List Issue :=
  hydrateMissingSelectedRelationAssets inp inp.identified
    ⟨inp.albums.1, inp.assetToMaster, inp.completeDeltaAssets, [], []⟩

def refreshIssues : List Issue :=
  if inp.config.runMode.downloadsFiles then
    (accum (applyChangedProviderMetadata inp.config inp.replies) []
      inp.hydrated.1.completeDeltaAssets).2
  else []

def relations : Relations × List Issue :=
  accum (applyIncrementalRelationDelta inp inp.hydrated.1.assetToMaster)
    ⟨inp.hydrated.1.store, []⟩ inp.identified

/-- The database that assets are routed with. -/
def membershipDb : MembershipDb := inp.relations.1.store.memberships

/-- The pairs of the created records. -/
def routed : List (PhotoAsset × Nat) :=
  inp.identified.flatMap (fun event => (routeEvent inp inp.membershipDb event).1)

def routingIssues : List Issue :=
  inp.identified.flatMap (fun event => (routeEvent inp inp.membershipDb event).2)

/-- Every asset to download with its pass. -/
def downloadableAssets : List (PhotoAsset × Nat) :=
  inp.hydrated.1.downloadableAssets ++ inp.routed

/-- What holds the token back before the downloads, in order. -/
def issues : List Issue :=
  inp.unsafeEvents ++ inp.mapped.2 ++ inp.paired.2 ++ inp.identityIssues ++ inp.albums.2 ++
    inp.hydrated.2 ++ inp.refreshIssues ++ inp.relations.2 ++ inp.routingIssues

def tokenUnsafeReason : Option String := inp.issues.head?.map (·.reason)

def stateTransitionFailures : Nat := inp.issues.countP (·.counted)

end Input

end Incremental
end Kei
