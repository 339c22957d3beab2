import Kei.Incremental

/-!
# Kei.Incremental.SourceState

The source state of the rows when the provider deletes or hides a record.

An event about an asset is written under the name that it resolves to: the
state id of its pair, its own name, or that of its master.  A row of that name
can be the one that a sibling has taken over from the master, and nothing looks
at its owner.
-/

namespace Kei.Incremental

open Changes StateDb

/-! ## statements -/

/-- The number of rows that a statement has changed, with the database after it. -/
abbrev Affected := Except StateError Nat × SqliteStateDb

/-- A statement that fails leaves the database. -/
def affectedBy (db : SqliteStateDb) (p : AssetRow → Bool) :
    Except StateError SqliteStateDb → Affected
  | .ok db' => (.ok (db.assets.count p), db')
  | .error error => (.error error, db)

def resolveSourceDeletedAffected (library assetId : String) (deletedAt : Option Int)
    (db : SqliteStateDb) : Affected :=
  affectedBy db (AssetRow.isAsset library assetId)
    (resolveSourceDeleted library assetId deletedAt db)

def resolveMasterFamilySourceDeletedAffected (library masterRecordName : String)
    (deletedAt : Option Int) (db : SqliteStateDb) : Affected :=
  affectedBy db (AssetRow.isFamily db.assetMasterMappings library masterRecordName)
    (resolveMasterFamilySourceDeleted library masterRecordName deletedAt db)

/-- The row is hidden at the source. -/
def hiddenAtSource (r : AssetRow) : AssetRow :=
  { r with metadata := { r.metadata with isHidden := true } }

def markHiddenAtSourceAffected (library assetId : String) (db : SqliteStateDb) : Affected :=
  affectedBy db (AssetRow.isAsset library assetId)
    (.ok { db with
      assets := db.assets.update (AssetRow.isAsset library assetId) hiddenAtSource
        (fun _ => rfl) })

def getMasterRecordNameForAsset (library asset : String) (db : SqliteStateDb) : Option String :=
  (db.assetMasterMappings.find? (fun m => m.1 = library && m.2.1 = asset)).map (·.2.2)

/-! ## keys -/

structure SourceStateTransitionKey where
  recordName : String
  recordType : Option String
  unresolvedIdentity : Bool

def sourceStateTransitionKey (event : ChangeEvent) : SourceStateTransitionKey :=
  match event.asset with
  | some asset =>
      ⟨asset.stateId, some (if asset.stateId = asset.id then "CPLMaster" else "CPLAsset"), false⟩
  | none =>
      if event.recordType = some "CPLAsset" then
        match event.masterRecordName with
        | some master => ⟨master, some "CPLMaster", false⟩
        | none => ⟨event.recordName, event.recordType, true⟩
      else ⟨event.recordName, event.recordType, event.recordType.isNone⟩

def unpairedCplassetStateKey (event : ChangeEvent) : Option SourceStateTransitionKey :=
  if event.asset.isNone && event.recordType = some "CPLAsset" then
    some ⟨event.recordName, some "CPLAsset", false⟩
  else none

def cplassetMasterFallbackStateKey (library : String) (db : SqliteStateDb) (event : ChangeEvent) :
    Option SourceStateTransitionKey :=
  if event.recordType ≠ some "CPLAsset" then none
  else
    match event.masterRecordName with
    | some master => some ⟨master, some "CPLMaster", false⟩
    | none => (getMasterRecordNameForAsset library event.recordName db).map
        (⟨·, some "CPLMaster", false⟩)

def hardDeleteStateTransitionKey (library : String) (db : SqliteStateDb) (event : ChangeEvent) :
    SourceStateTransitionKey :=
  let fallback := sourceStateTransitionKey event
  if !fallback.unresolvedIdentity then fallback
  else
    match getMasterRecordNameForAsset library event.recordName db with
    | some master => ⟨master, some "CPLMaster", false⟩
    | none => fallback

/-! ## events -/

inductive SourceStateUpdate where
  | softDeleted (deletedAt : Option Int)
  | hidden

def runSourceStateUpdate (library : String) (db : SqliteStateDb) (key : SourceStateTransitionKey) :
    SourceStateUpdate → Affected
  | .softDeleted deletedAt => resolveSourceDeletedAffected library key.recordName deletedAt db
  | .hidden => markHiddenAtSourceAffected library key.recordName db

def applySourceStateUpdate (library : String) (db : SqliteStateDb) (event : ChangeEvent)
    (update : SourceStateUpdate) : Affected :=
  match unpairedCplassetStateKey event with
  | none => runSourceStateUpdate library db (sourceStateTransitionKey event) update
  | some assetKey =>
      match runSourceStateUpdate library db assetKey update with
      | (.ok 0, db) =>
          match cplassetMasterFallbackStateKey library db event with
          | some fallbackKey => runSourceStateUpdate library db fallbackKey update
          | none => (.ok 0, db)
      | other => other

/-- A hard delete under its key, for the family of a master or for one name. -/
def writeHardDelete (library : String) (db : SqliteStateDb) (event : ChangeEvent) : Affected :=
  let stateKey := hardDeleteStateTransitionKey library db event
  if stateKey.recordType = some "CPLMaster" && event.recordType ≠ some "CPLAsset" &&
      event.recordType.isSome then
    resolveMasterFamilySourceDeletedAffected library stateKey.recordName none db
  else resolveSourceDeletedAffected library stateKey.recordName none db

/-- A hard delete.  A bare tombstone is tried as that of a master first. -/
def applyHardDelete (library : String) (db : SqliteStateDb) (event : ChangeEvent) : Affected :=
  if event.recordType.isNone && event.asset.isNone then
    match resolveMasterFamilySourceDeletedAffected library event.recordName none db with
    | (.ok 0, db) => writeHardDelete library db event
    | other => other
  else writeHardDelete library db event

/-- What a write that fails holds back. -/
def transitionIssues (issue : Issue) : Except StateError Nat → List Issue
  | .ok _ => []
  | .error _ => [issue]

/-- The database after an event, and the issue that it raises. -/
def applySourceStateEvent (deletedAt : PhotoAsset → Option Int) (library : String)
    (db : SqliteStateDb) (event : ChangeEvent) : SqliteStateDb × List Issue :=
  match event.reason with
  | .created => (db, [])
  | .softDeleted =>
      let (result, db) := applySourceStateUpdate library db event
        (.softDeleted (event.asset.bind deletedAt))
      (db, transitionIssues incrementalDeleteStateWriteFailed result)
  | .hidden =>
      let (result, db) := applySourceStateUpdate library db event .hidden
      (db, transitionIssues incrementalHiddenStateWriteFailed result)
  | .hardDeleted =>
      let (result, db) := applyHardDelete library db event
      (db, transitionIssues incrementalDeleteStateWriteFailed result)

/-! ## what an event is written to -/

section
variable (library : String) (db : SqliteStateDb) (event : ChangeEvent)

/-- The master that the event names, or else the one that its record is mapped to. -/
def tracedMaster : Option String :=
  event.masterRecordName.or (getMasterRecordNameForAsset library event.recordName db)

/-- The rows under the name that an event about an asset resolves to. -/
def target : AssetRow → Bool :=
  let family := AssetRow.isFamily db.assetMasterMappings library
  let named := AssetRow.isAsset library
  match event.asset with
  | some asset =>
      if event.reason = .hardDeleted ∧ asset.stateId = asset.id ∧
          event.recordType ≠ some "CPLAsset" ∧ event.recordType.isSome then
        family asset.stateId
      else named asset.stateId
  | none =>
      if event.reason = .hardDeleted then
        if event.recordType.isSome then
          named ((tracedMaster library db event).getD event.recordName)
        else if 0 < db.assets.count (family event.recordName) then family event.recordName
        else named ((getMasterRecordNameForAsset library event.recordName db).getD event.recordName)
      else if 0 < db.assets.count (named event.recordName) then named event.recordName
      else named ((tracedMaster library db event).getD event.recordName)

/-- One of the rows has a prepared receipt. -/
def anyPrepared (p : AssetRow → Bool) : Bool :=
  db.assets.rows.any (fun r => p r && r.captureRepair.isPrepared)

/-- A deletion does not hide a prepared receipt. -/
def refused : Bool := event.reason ≠ .hidden && anyPrepared db (target library db event)

/-- What an event writes to a row. -/
def mark (deletedAt : PhotoAsset → Option Int) : AssetRow → AssetRow :=
  match event.reason with
  | .created => id
  | .softDeleted => AssetRow.softDeleted (event.asset.bind deletedAt)
  | .hardDeleted => AssetRow.softDeleted none
  | .hidden => hiddenAtSource

end

/-! ## what the statements do -/

variable {library : String} {db : SqliteStateDb} {event : ChangeEvent}
variable {p : AssetRow → Bool} {f : AssetRow → AssetRow} {db' : SqliteStateDb}

theorem anyPrepared_congr (p : AssetRow → Bool) (h : db'.assets = db.assets) :
    anyPrepared db' p = anyPrepared db p := by
  rw [anyPrepared, anyPrepared, h]

/-- The statement writes `f` to the rows of `p`, unless it is blocked. -/
structure Writes (p : AssetRow → Bool) (f : AssetRow → AssetRow) (blocked : Bool)
    (db : SqliteStateDb) (out : Affected) : Prop where
  rows : out.2.assets.rows =
    db.assets.rows.map (fun r => if p r = true ∧ blocked = false then f r else r)
  affected : out.1.toOption = if blocked then none else some (db.assets.count p)
  mappings : out.2.assetMasterMappings = db.assetMasterMappings

theorem softDelete_writes {operation : String} {deletedAt : Option Int}
    {build : AssetTable → SqliteStateDb}
    (hassets : ∀ t, (build t).assets = t)
    (hmappings : ∀ t, (build t).assetMasterMappings = db.assetMasterMappings) :
    Writes p (AssetRow.softDeleted deletedAt) (anyPrepared db p) db
      (affectedBy db p ((softDelete operation p deletedAt db.assets).map build)) := by
  rw [softDelete]
  cases hblocked : anyPrepared db p with
  | true =>
      rw [anyPrepared] at hblocked
      constructor <;> simp [hblocked, affectedBy, Except.map, Except.toOption]
  | false =>
      rw [anyPrepared] at hblocked
      constructor
      · simp [hblocked, affectedBy, Except.map, hassets, Table.update]
      · simp [hblocked, affectedBy, Except.map, Except.toOption]
      · simp [hblocked, affectedBy, Except.map, hmappings]

theorem resolveSourceDeleted_writes (library assetId : String) (deletedAt : Option Int)
    (db : SqliteStateDb) :
    Writes (AssetRow.isAsset library assetId) (AssetRow.softDeleted deletedAt)
      (anyPrepared db (AssetRow.isAsset library assetId)) db
      (resolveSourceDeletedAffected library assetId deletedAt db) :=
  softDelete_writes (fun _ => rfl) (fun _ => rfl)

theorem resolveFamily_writes (library master : String) (deletedAt : Option Int)
    (db : SqliteStateDb) :
    Writes (AssetRow.isFamily db.assetMasterMappings library master)
      (AssetRow.softDeleted deletedAt)
      (anyPrepared db (AssetRow.isFamily db.assetMasterMappings library master)) db
      (resolveMasterFamilySourceDeletedAffected library master deletedAt db) :=
  softDelete_writes (fun _ => rfl) (fun _ => rfl)

theorem markHidden_writes (library assetId : String) (db : SqliteStateDb) :
    Writes (AssetRow.isAsset library assetId) hiddenAtSource false db
      (markHiddenAtSourceAffected library assetId db) := by
  constructor
  · simp [markHiddenAtSourceAffected, affectedBy, Table.update]
  · rfl
  · rfl

variable {blocked : Bool} {out : Affected}

theorem Writes.nothing (h : Writes p f blocked db out) (hzero : out.1 = .ok 0) :
    out.2.assets = db.assets ∧ blocked = false ∧ db.assets.count p = 0 := by
  have haffected := h.affected
  rw [hzero] at haffected
  cases blocked with
  | true => simp [Except.toOption] at haffected
  | false =>
      have hcount : db.assets.count p = 0 := by simpa [Except.toOption, eq_comm] using haffected
      refine ⟨Table.eq_of_rows ?_, rfl, hcount⟩
      have hnone : ∀ r ∈ db.assets.rows, ¬ p r = true := by
        simpa [Table.count] using hcount
      rw [h.rows, ← List.map_id db.assets.rows, List.map_map]
      refine List.map_congr_left (fun r hr => ?_)
      simp [hnone r hr]

/-- A statement that does not report nothing has rows to write to. -/
theorem Writes.something (h : Writes p f blocked db out)
    (hblocked : blocked = true → 0 < db.assets.count p) (hsome : out.1 ≠ .ok 0) :
    0 < db.assets.count p := by
  have haffected := h.affected
  cases blocked with
  | true => exact hblocked rfl
  | false =>
      cases hresult : out.1 with
      | error error => simp [hresult, Except.toOption] at haffected
      | ok affected =>
          have hcount : affected = db.assets.count p := by
            simpa [hresult, Except.toOption] using haffected
          have hne : affected ≠ 0 := by simpa [hresult] using hsome
          omega

theorem Writes.of_same (h : Writes p f blocked db' out) (hassets : db'.assets = db.assets)
    (hmappings : db'.assetMasterMappings = db.assetMasterMappings) : Writes p f blocked db out := by
  obtain ⟨hrows, haffected, hmapped⟩ := h
  rw [hassets] at hrows haffected
  exact ⟨hrows, haffected, hmapped.trans hmappings⟩

theorem count_of_prepared (h : anyPrepared db p = true) : 0 < db.assets.count p := by
  obtain ⟨r, hr, hprepared⟩ := List.any_eq_true.mp h
  have hp : p r = true := (Bool.and_eq_true_iff.mp hprepared).1
  rw [Table.count, List.countP_pos_iff]
  exact ⟨r, hr, hp⟩

/-! ## what an event does -/

/-- The event is about the asset record: with its master, by itself, or as a bare tombstone. -/
inductive ConcernsAsset (event : ChangeEvent) (a : String) : Prop where
  | paired (photo : PhotoAsset) (hasset : event.asset = some photo)
      (hname : photo.assetRecordName = a)
  | unpaired (hasset : event.asset = none) (htype : event.recordType = some "CPLAsset")
      (hname : event.recordName = a)
  | tombstone (hasset : event.asset = none) (htype : event.recordType = none)
      (hreason : event.reason = .hardDeleted) (hname : event.recordName = a)

def SourceStateUpdate.mark : SourceStateUpdate → AssetRow → AssetRow
  | .softDeleted deletedAt => AssetRow.softDeleted deletedAt
  | .hidden => hiddenAtSource

def SourceStateUpdate.blocks (db : SqliteStateDb) (p : AssetRow → Bool) :
    SourceStateUpdate → Bool
  | .softDeleted _ => anyPrepared db p
  | .hidden => false

theorem SourceStateUpdate.count_of_blocks (update : SourceStateUpdate)
    (h : update.blocks db p = true) : 0 < db.assets.count p := by
  cases update with
  | softDeleted deletedAt => exact count_of_prepared h
  | hidden => simp [SourceStateUpdate.blocks] at h

theorem runSourceStateUpdate_writes (library : String) (db : SqliteStateDb)
    (key : SourceStateTransitionKey) (update : SourceStateUpdate) :
    Writes (AssetRow.isAsset library key.recordName) update.mark
      (update.blocks db (AssetRow.isAsset library key.recordName)) db
      (runSourceStateUpdate library db key update) := by
  cases update with
  | softDeleted deletedAt => exact resolveSourceDeleted_writes library _ deletedAt db
  | hidden => exact markHidden_writes library _ db

theorem getMaster_congr (library asset : String)
    (h : db'.assetMasterMappings = db.assetMasterMappings) :
    getMasterRecordNameForAsset library asset db' =
      getMasterRecordNameForAsset library asset db := by
  rw [getMasterRecordNameForAsset, getMasterRecordNameForAsset, h]

theorem fallbackKey_eq (library : String) (db : SqliteStateDb)
    (htype : event.recordType = some "CPLAsset") :
    cplassetMasterFallbackStateKey library db event =
      (tracedMaster library db event).map (⟨·, some "CPLMaster", false⟩) := by
  cases hmaster : event.masterRecordName <;>
    simp [cplassetMasterFallbackStateKey, tracedMaster, htype, hmaster]

/-- A write under the asset's own name goes before one under that of its master. -/
theorem applySourceStateUpdate_writes {a : String} (h : ConcernsAsset event a)
    (hreason : event.reason ≠ .hardDeleted) (update : SourceStateUpdate) :
    Writes (target library db event) update.mark (update.blocks db (target library db event)) db
      (applySourceStateUpdate library db event update) := by
  cases h with
  | paired photo hasset hname =>
      have htarget : target library db event = AssetRow.isAsset library photo.stateId := by
        simp [target, hasset, hreason]
      have hkey : (sourceStateTransitionKey event).recordName = photo.stateId := by
        simp [sourceStateTransitionKey, hasset]
      have hrun := runSourceStateUpdate_writes library db (sourceStateTransitionKey event) update
      rw [hkey] at hrun
      rw [htarget]
      simpa [applySourceStateUpdate, unpairedCplassetStateKey, hasset] using hrun
  | tombstone hasset htype hdeleted hname => exact absurd hdeleted hreason
  | unpaired hasset htype hname =>
      have hown := runSourceStateUpdate_writes library db
        ⟨event.recordName, some "CPLAsset", false⟩ update
      simp only [applySourceStateUpdate, unpairedCplassetStateKey, hasset, htype,
        Option.isNone_none, Bool.true_and, decide_true, if_true]
      cases hrun : runSourceStateUpdate library db ⟨event.recordName, some "CPLAsset", false⟩
        update with
      | mk result db' =>
          rw [hrun] at hown
          by_cases hzero : result = .ok 0
          · obtain ⟨hassets, -, hcount⟩ := hown.nothing hzero
            have htarget : target library db event =
                AssetRow.isAsset library
                  ((tracedMaster library db event).getD event.recordName) := by
              simp [target, hasset, hreason, hcount]
            have hmaster : tracedMaster library db' event = tracedMaster library db event := by
              rw [tracedMaster, tracedMaster, getMaster_congr library _ hown.mappings]
            rw [htarget]
            subst hzero
            simp only [fallbackKey_eq library db' htype, hmaster]
            cases htraced : tracedMaster library db event with
            | none => exact hown
            | some master =>
                have hfallback := runSourceStateUpdate_writes library db'
                  ⟨master, some "CPLMaster", false⟩ update
                have hblocks (q : AssetRow → Bool) : update.blocks db' q = update.blocks db q := by
                  cases update with
                  | softDeleted deletedAt => exact anyPrepared_congr q hassets
                  | hidden => rfl
                rw [hblocks] at hfallback
                exact hfallback.of_same hassets hown.mappings
          · have hcount : 0 < db.assets.count (AssetRow.isAsset library event.recordName) :=
              hown.something update.count_of_blocks hzero
            have htarget : target library db event =
                AssetRow.isAsset library event.recordName := by
              simp [target, hasset, hreason, hcount]
            rw [htarget]
            cases result with
            | error error => exact hown
            | ok affected =>
                cases affected with
                | zero => exact absurd rfl hzero
                | succ n => exact hown

theorem applyHardDelete_writes {a : String} (h : ConcernsAsset event a)
    (hreason : event.reason = .hardDeleted) :
    Writes (target library db event) (AssetRow.softDeleted none)
      (anyPrepared db (target library db event)) db (applyHardDelete library db event) := by
  cases h with
  | paired photo hasset hname =>
      by_cases hfamily : photo.stateId = photo.id ∧ event.recordType ≠ some "CPLAsset" ∧
          event.recordType.isSome = true
      · have htarget : target library db event =
            AssetRow.isFamily db.assetMasterMappings library photo.stateId := by
          simp [target, hasset, hreason, hfamily]
        rw [htarget]
        simpa [applyHardDelete, writeHardDelete, hardDeleteStateTransitionKey,
          sourceStateTransitionKey, hasset, hfamily] using
            resolveFamily_writes library photo.stateId none db
      · have htarget : target library db event = AssetRow.isAsset library photo.stateId := by
          simp only [target, hasset, hreason, true_and, if_neg hfamily]
        have hwrite : writeHardDelete library db event =
            resolveSourceDeletedAffected library photo.stateId none db := by
          by_cases hid : photo.stateId = photo.id <;>
            grind [writeHardDelete, hardDeleteStateTransitionKey, sourceStateTransitionKey]
        rw [htarget]
        simpa [applyHardDelete, hasset, hwrite] using
          resolveSourceDeleted_writes library photo.stateId none db
  | unpaired hasset htype hname =>
      have htarget : target library db event =
          AssetRow.isAsset library ((tracedMaster library db event).getD event.recordName) := by
        simp [target, hasset, hreason, htype]
      have hwrite : applyHardDelete library db event = resolveSourceDeletedAffected library
          ((tracedMaster library db event).getD event.recordName) none db := by
        cases hmaster : event.masterRecordName <;>
          cases hmapped : getMasterRecordNameForAsset library event.recordName db <;>
          simp [applyHardDelete, writeHardDelete, hardDeleteStateTransitionKey,
            sourceStateTransitionKey, tracedMaster, hasset, htype, hmaster, hmapped]
      rw [htarget, hwrite]
      exact resolveSourceDeleted_writes library _ none db
  | tombstone hasset htype _ hname =>
      have hwrite (db' : SqliteStateDb) : writeHardDelete library db' event =
          resolveSourceDeletedAffected library
            ((getMasterRecordNameForAsset library event.recordName db').getD event.recordName)
            none db' := by
        cases hmapped : getMasterRecordNameForAsset library event.recordName db' <;>
          simp [writeHardDelete, hardDeleteStateTransitionKey, sourceStateTransitionKey, hasset,
            htype, hmapped]
      have hfamily := resolveFamily_writes library event.recordName none db
      simp only [applyHardDelete, hasset, htype, Option.isNone_none, Bool.true_and, if_true, hwrite]
      cases hrun : resolveMasterFamilySourceDeletedAffected library event.recordName none db with
      | mk result db' =>
          rw [hrun] at hfamily
          by_cases hzero : result = .ok 0
          · obtain ⟨hassets, -, hcount⟩ := hfamily.nothing hzero
            have hmaster := getMaster_congr library event.recordName hfamily.mappings
            have htarget : target library db event = AssetRow.isAsset library
                ((getMasterRecordNameForAsset library event.recordName db).getD
                  event.recordName) := by
              simp [target, hasset, hreason, htype, hcount]
            have hown := resolveSourceDeleted_writes library
              ((getMasterRecordNameForAsset library event.recordName db).getD event.recordName)
              none db'
            rw [anyPrepared_congr _ hassets] at hown
            subst hzero
            rw [htarget]
            simp only [hmaster]
            exact hown.of_same hassets hfamily.mappings
          · have hcount := hfamily.something count_of_prepared hzero
            have htarget : target library db event =
                AssetRow.isFamily db.assetMasterMappings library event.recordName := by
              simp [target, hasset, hreason, htype, hcount]
            rw [htarget]
            cases result with
            | error error => exact hfamily
            | ok affected =>
                cases affected with
                | zero => exact absurd rfl hzero
                | succ n => exact hfamily

variable {a : String} {deletedAt : PhotoAsset → Option Int}

/-- **What an event does**: it marks the rows under the name that it resolves to, unless one of
them refuses a deletion. -/
theorem applySourceStateEvent_rows (h : ConcernsAsset event a) :
    (applySourceStateEvent deletedAt library db event).1.assets.rows =
      db.assets.rows.map (fun r =>
        if target library db event r = true ∧ refused library db event = false then
          mark event deletedAt r
        else r) := by
  have hrefused (hreason : event.reason ≠ .hidden) :
      refused library db event = anyPrepared db (target library db event) := by
    simp [refused, hreason]
  cases hreason : event.reason with
  | created =>
      have hmark : mark event deletedAt = id := by simp [mark, hreason]
      simp [applySourceStateEvent, hreason, hmark]
  | softDeleted =>
      have hwrites := @applySourceStateUpdate_writes library db event a h (by simp [hreason])
        (.softDeleted (event.asset.bind deletedAt))
      have hmark : mark event deletedAt = AssetRow.softDeleted (event.asset.bind deletedAt) := by
        simp [mark, hreason]
      simp only [hrefused (by simp [hreason]), hmark, applySourceStateEvent, hreason]
      exact hwrites.rows
  | hidden =>
      have hwrites := @applySourceStateUpdate_writes library db event a h (by simp [hreason])
        .hidden
      have hmark : mark event deletedAt = hiddenAtSource := by simp [mark, hreason]
      have hnot : refused library db event = false := by simp [refused, hreason]
      simpa [hnot, hmark, applySourceStateEvent, hreason, SourceStateUpdate.blocks,
        SourceStateUpdate.mark] using hwrites.rows
  | hardDeleted =>
      have hwrites := @applyHardDelete_writes library db event a h hreason
      have hmark : mark event deletedAt = AssetRow.softDeleted none := by simp [mark, hreason]
      simp only [hrefused (by simp [hreason]), hmark, applySourceStateEvent, hreason]
      exact hwrites.rows

/-! ## siblings -/

/-- `is_deleted`, `deleted_at` and `is_hidden`. -/
def sourceFlags (r : AssetRow) : Bool × Option Int × Bool :=
  (r.metadata.isDeleted, r.metadata.deletedAt, r.metadata.isHidden)

section
variable (owners : String → String → Option String) (library : String) (db : SqliteStateDb)
variable (event : ChangeEvent) (a : String)

/-- The record has the master: the event says so, its mapping, or `legacy_master_state_owners`. -/
def HasMaster (master : String) : Prop :=
  (∃ photo, event.asset = some photo ∧ photo.id = master) ∨
    event.masterRecordName = some master ∨ (library, a, master) ∈ db.assetMasterMappings ∨
    owners library master = some a

/-- The row is that of another child of the same master: under its own name, or under that of
the master with the child as its persisted owner. -/
def IsSiblings (r : AssetRow) : Prop :=
  r.library = library ∧ ∃ master, HasMaster owners library db event a master ∧
    ((r.id ≠ a ∧ (library, r.id, master) ∈ db.assetMasterMappings) ∨
      (r.id = master ∧ ∃ owner, owners library master = some owner ∧ owner ≠ a))

/-- The source state of the siblings' rows is as before. -/
def SparesSiblings (db' : SqliteStateDb) : Prop :=
  ∀ r ∈ db.assets.rows, IsSiblings owners library db event a r →
    ∀ r' ∈ db'.assets.rows, r'.key = r.key → sourceFlags r' = sourceFlags r

end

theorem mark_key (r : AssetRow) : (mark event deletedAt r).key = r.key := by
  rw [mark]
  cases event.reason <;> rfl

/--
**An event about an asset spares its siblings** if and only if it is refused,
or every sibling's row under the name that it resolves to is marked already.
-/
theorem spares_siblings_iff (deletedAt : PhotoAsset → Option Int)
    (owners : String → String → Option String) (library : String) (db : SqliteStateDb)
    (event : ChangeEvent) (a : String) (h : ConcernsAsset event a) :
    SparesSiblings owners library db event a
        (applySourceStateEvent deletedAt library db event).1 ↔
      refused library db event = true ∨
        ∀ r ∈ db.assets.rows, target library db event r = true →
          IsSiblings owners library db event a r →
            sourceFlags (mark event deletedAt r) = sourceFlags r := by
  have hrows := @applySourceStateEvent_rows library db event a deletedAt h
  constructor
  · intro hspares
    by_cases hrefused : refused library db event = true
    · exact .inl hrefused
    · refine .inr (fun r hr htarget hsibling => ?_)
      have hmem : mark event deletedAt r ∈
          (applySourceStateEvent deletedAt library db event).1.assets.rows := by
        rw [hrows, List.mem_map]
        exact ⟨r, hr, by simp [htarget, hrefused]⟩
      exact hspares r hr hsibling _ hmem (mark_key r)
  · intro hcondition r hr hsibling r' hr' hkey
    rw [hrows, List.mem_map] at hr'
    obtain ⟨q, hq, rfl⟩ := hr'
    have hqr : q = r := by
      apply db.assets.eq_of_key hq hr
      split at hkey
      · rwa [mark_key] at hkey
      · exact hkey
    subst hqr
    split
    · next htarget =>
        have hmarked := hcondition.resolve_left (by simp [htarget.2])
        exact hmarked q hq htarget.1 hsibling
    · rfl

/-! ## two children of one master -/

def downloadedRow (id : String) : AssetRow where
  library := "PrimarySync"
  id := id
  versionSize := "original"
  checksum := "c"
  createdAt := 0
  status := .downloaded
  localPath := some ("/photos/" ++ id)
  lastSeenAt := 0
  downloadAttempts := 0
  lastError := none
  localChecksum := none
  metadata := ⟨⟨false, false, none, none, ""⟩, none⟩
  downloadChecksum := none
  metadataWriteFailedAt := none
  captureRepair := .null

/-- The first child has a row of its own; the second one has taken over that of the master. -/
def familyDb : SqliteStateDb where
  assets := ⟨[downloadedRow "a", downloadedRow "m"], by decide⟩
  assetMasterMappings := [("PrimarySync", "a", "m"), ("PrimarySync", "b", "m")]
  assetVerifications := []

def secondOwns : String → String → Option String := fun _ master =>
  if master = "m" then some "b" else none

/-- The first child comes with its master, and is in the trash. -/
def trashedChild : ChangeEvent :=
  { ChangeEvent.new "m" (some "CPLMaster") .softDeleted with
    asset := some ⟨"m", "a", none, none, .null, .null⟩ }

/-- **The sibling is marked as deleted.** -/
theorem trashed_child_deletes_sibling :
    ¬ SparesSiblings secondOwns "PrimarySync" familyDb trashedChild "a"
      (applySourceStateEvent (fun _ => none) "PrimarySync" familyDb trashedChild).1 := by
  intro hspares
  have hsibling : IsSiblings secondOwns "PrimarySync" familyDb trashedChild "a"
      (downloadedRow "m") :=
    ⟨rfl, "m", .inl ⟨_, rfl, rfl⟩, .inr ⟨rfl, "b", rfl, by decide⟩⟩
  have hflags := hspares (downloadedRow "m") (by simp [familyDb]) hsibling
    ((downloadedRow "m").softDeleted none) (by decide) rfl
  revert hflags
  decide

/-- A bare tombstone of a child that has a row of its own. -/
theorem spares_siblings_iff_own :
    SparesSiblings secondOwns "PrimarySync" familyDb (ChangeEvent.new "a" none .hardDeleted) "a"
      (applySourceStateEvent (fun _ => none) "PrimarySync" familyDb
        (ChangeEvent.new "a" none .hardDeleted)).1 := by
  refine (spares_siblings_iff _ _ _ _ _ _ (.tombstone rfl rfl rfl rfl)).mpr (.inr ?_)
  intro r hr htarget hsibling
  simp only [familyDb, List.mem_cons, List.not_mem_nil, or_false] at hr
  rcases hr with rfl | rfl
  · obtain ⟨-, master, -, ⟨hne, -⟩ | ⟨hid, owner, howner, hne⟩⟩ := hsibling
    · exact absurd rfl hne
    · obtain rfl : "a" = master := hid
      simp [secondOwns] at howner
  · revert htarget
    decide

end Kei.Incremental
