import Kei.Lib.Sql
import Kei.StateDb.Memberships

/-!
# Kei.StateDb.Statements

Operations of the store statement by statement.

Some of them run in a transaction, some one statement after the other on the
connection.  `StoreOp.run_none` says that an operation none of whose statements
fails does what the operations of `Kei.StateDb` do as a whole.
-/

namespace Kei.StateDb

open Sql

/-! ## tables -/

/-- A row of `asset_metadata_capture_revisions`. -/
structure CaptureRevision where
  library : String
  assetId : String
  revision : Int
  updatedAt : Int
  deriving DecidableEq

/-- A row of `metadata_capture_state`. -/
structure MetadataCaptureState where
  library : String
  activeRevision : Int
  pendingRevision : Option Int
  processedAssets : Int
  failedAssets : Int
  lastError : Option String
  updatedAt : Int
  deriving DecidableEq

abbrev CaptureRevision.key (c : CaptureRevision) : String × String := (c.library, c.assetId)

abbrev MetadataCaptureState.key (m : MetadataCaptureState) : String := m.library

structure StateTables where
  db : SqliteStateDb
  /-- The column `downloaded_at` of the rows. -/
  downloadedAt : Key → Option Int
  captureRevisions : Table CaptureRevision (String × String) CaptureRevision.key
  captureState : Table MetadataCaptureState String MetadataCaptureState.key
  memberships : MembershipDb

/-- Statements on the tables of the store. -/
abbrev StateSql (α : Type) := Sql StateTables StateError α

def StateTables.modifyAssets (s : StateTables) (f : AssetTable → AssetTable) : StateTables :=
  { s with db := { s.db with assets := f s.db.assets } }

def StateTables.modifyMemberships (s : StateTables) (f : MembershipDb → MembershipDb) :
    StateTables :=
  { s with memberships := f s.memberships }

/-! ## capture revisions -/

def metadataCaptureRevision : Int := 1

/-- The recorded revision of the asset, if there is one. -/
def StateTables.recorded (s : StateTables) (library assetId : String) : Option Int :=
  (s.captureRevisions.get? (library, assetId)).map (·.revision)

/-- The asset has no record of the revision or of a later one. -/
def StateTables.recordsLess (s : StateTables) (library assetId : String) (revision : Int) : Bool :=
  (s.recorded library assetId).all (fun r => r < revision)

def StateTables.insertRevision (s : StateTables) (library assetId : String)
    (revision updatedAt : Int) : StateTables :=
  { s with
    captureRevisions := s.captureRevisions.upsert ⟨library, assetId, revision, updatedAt⟩
      (fun c =>
        if c.revision < revision then { c with revision := revision, updatedAt := updatedAt }
        else c)
      (fun c => by split <;> rfl) }

def StateTables.countProcessed (s : StateTables) (library : String) (revision updatedAt : Int) :
    StateTables :=
  { s with
    captureState := s.captureState.update
      (fun m => m.library = library && m.pendingRevision = some revision)
      (fun m => { m with processedAssets := m.processedAssets + 1, updatedAt := updatedAt })
      (fun _ => rfl) }

def recordMetadataCaptureRevision (library assetId : String) (revision updatedAt : Int) :
    StateSql Unit := do
  let changed ← execute "record_metadata_capture_revision"
    (fun s => s.insertRevision library assetId revision updatedAt)
    (fun s => s.recordsLess library assetId revision)
  if changed then
    execute "record_metadata_capture_revision::progress"
      (fun s => s.countProcessed library revision updatedAt) (fun _ => ())

/-! ## downloads and metadata -/

/-- The `UPDATE` of a completed download. -/
def StateTables.download (s : StateTables) (library id versionSize localPath localChecksum : String)
    (downloadChecksum : Option String) (markCaptureRepair : Bool) (downloadedAt : Int) :
    StateTables :=
  { s.modifyAssets (updateStatusToDownloaded library id versionSize localPath localChecksum
      downloadChecksum markCaptureRepair) with
    downloadedAt := fun key =>
      if key = ⟨library, id, versionSize⟩ ∧ 0 < s.db.assets.count (fun r => r.key = key) then
        some downloadedAt
      else s.downloadedAt key }

def markDownloaded (library id versionSize localPath localChecksum : String)
    (downloadChecksum : Option String) (markCaptureRepair : Bool) (downloadedAt : Int) :
    StateSql Unit := do
  let rows ← execute "mark_downloaded"
    (fun s => s.download library id versionSize localPath localChecksum downloadChecksum
      markCaptureRepair downloadedAt)
    (fun s => s.db.assets.count (AssetRow.isVersion library id versionSize))
  if rows = 0 then
    .refuse (.assetRowMissing id versionSize)
  else
    recordMetadataCaptureRevision library id metadataCaptureRevision downloadedAt

/-- The rows that a refresh reaches. -/
def refreshReaches (library assetId : String) (metadataHash : Option String) (t : AssetTable)
    (r : AssetRow) : Bool :=
  r.isAsset library assetId && r.isLiveDownload && !refreshBlocked library assetId metadataHash t

/-- The rows that have the metadata already, unless the refresh is blocked. -/
def durableRows (library assetId : String) (metadataHash : Option String) (t : AssetTable) : Nat :=
  t.count (fun r => r.isAsset library assetId && !r.metadata.isDeleted &&
    metadataHash.isSome && r.metadata.metadataHash = metadataHash &&
    !refreshBlocked library assetId metadataHash t)

def refreshMetadata (host : Host) (library assetId : String) (metadata : AssetMetadata)
    (markForRewrite markCaptureRepair : Bool) (captureRevision rewriteAt : Int) : StateSql Nat := do
  let metadataHash := (metadata.withHash host).metadataHash
  let updated ← execute "refresh_downloaded_asset_metadata"
    (fun s => s.modifyAssets (refreshDownloadedAssetMetadata host library assetId metadata
      markForRewrite markCaptureRepair rewriteAt))
    (fun s => s.db.assets.count (refreshReaches library assetId metadataHash s.db.assets))
  if 0 < updated then
    recordMetadataCaptureRevision library assetId captureRevision rewriteAt
    return updated
  else
    let durable ← query "refresh_downloaded_asset_metadata"
      (fun s : StateTables => durableRows library assetId metadataHash s.db.assets)
    if 0 < durable then
      recordMetadataCaptureRevision library assetId captureRevision rewriteAt
    return durable

/-! ## retries -/

/-- The rows that `prepare_for_retry` is about. -/
def inRetryScope (library : Option String) (r : AssetRow) : Bool :=
  !r.metadata.isDeleted && library.all (fun l => r.library = l)

def isFailedRetry (library : Option String) (r : AssetRow) : Bool :=
  r.status = .failed && inRetryScope library r

def isPendingRetry (library : Option String) (r : AssetRow) : Bool :=
  r.status = .pending && inRetryScope library r && 0 < r.downloadAttempts

/-- The row is pending anew. -/
def AssetRow.retried (retention : RetryErrorRetention) (r : AssetRow) : AssetRow :=
  { r with
    status := .pending, downloadAttempts := 0, lastError := retention.retained r.lastError }

/-- The row keeps its status, without its attempts. -/
def AssetRow.restarted (retention : RetryErrorRetention) (r : AssetRow) : AssetRow :=
  { r with downloadAttempts := 0, lastError := retention.retained r.lastError }

def retryFailed (library : Option String) (retention : RetryErrorRetention) (t : AssetTable) :
    AssetTable :=
  t.update (isFailedRetry library) (AssetRow.retried retention) (fun _ => rfl)

def retryPending (library : Option String) (retention : RetryErrorRetention) (t : AssetTable) :
    AssetTable :=
  t.update (isPendingRetry library) (AssetRow.restarted retention) (fun _ => rfl)

def prepareForRetryStatements (library : Option String) (retention : RetryErrorRetention) :
    StateSql (Nat × Nat × Nat) := do
  let failed ← execute "prepare_for_retry"
    (fun s : StateTables => s.modifyAssets (retryFailed library retention))
    (fun s => s.db.assets.count (isFailedRetry library))
  let pending ← execute "prepare_for_retry"
    (fun s : StateTables => s.modifyAssets (retryPending library retention))
    (fun s => s.db.assets.count (isPendingRetry library))
  let totalPending ← query "prepare_for_retry" (fun s : StateTables =>
    s.db.assets.count (fun r => r.status = .pending && inRetryScope library r))
  return (failed, pending, totalPending)

/-! ## source deletions -/

/-- No row of the asset, or of the family, may have a prepared receipt. -/
def ensureNoPreparedCaptureRepair (operation : String) (p : StateTables → AssetRow → Bool) :
    StateSql Unit := do
  let prepared ← query operation (fun s : StateTables =>
    s.db.assets.rows.any (fun r => p s r && r.captureRepair.isPrepared))
  if prepared then
    .refuse (deletionHidesReceipt operation)

def StateTables.softDelete (s : StateTables) (p : StateTables → AssetRow → Bool)
    (deletedAt : Option Int) : StateTables :=
  s.modifyAssets (fun t => t.update (p s) (AssetRow.softDeleted deletedAt)
    (AssetRow.key_softDeleted deletedAt))

def StateTables.clearVerifications (s : StateTables) (p : StateTables → Key → Bool) : StateTables :=
  { s with db := { s.db with
      assetVerifications := s.db.assetVerifications.filter (fun k => !p s k) } }

/-- `mark_soft_deleted` and `mark_master_family_soft_deleted`. -/
def markDeletedStatements (operation : String) (p : StateTables → AssetRow → Bool)
    (deletedAt : Option Int) : StateSql Nat := do
  ensureNoPreparedCaptureRepair operation p
  execute operation (fun s => s.softDelete p deletedAt) (fun s => s.db.assets.count (p s))

/-- `resolve_source_deleted` and `resolve_master_family_source_deleted`. -/
def resolveDeletedStatements (operation : String) (p : StateTables → AssetRow → Bool)
    (q : StateTables → Key → Bool) (deletedAt : Option Int) : StateSql Nat := do
  ensureNoPreparedCaptureRepair operation p
  let marked ← execute (operation ++ "::mark") (fun s => s.softDelete p deletedAt)
    (fun s => s.db.assets.count (p s))
  execute (operation ++ "::clear_verification") (fun s : StateTables => s.clearVerifications q)
    (fun _ => ())
  return marked

def ofAsset (library id : String) (_ : StateTables) (r : AssetRow) : Bool := r.isAsset library id

def ofFamily (library masterRecordName : String) (s : StateTables) (r : AssetRow) : Bool :=
  r.isFamily s.db.assetMasterMappings library masterRecordName

def keyOfAsset (library id : String) (_ : StateTables) (k : Key) : Bool :=
  k.library = library && k.id = id

def keyOfFamily (library masterRecordName : String) (s : StateTables) (k : Key) : Bool :=
  k.library = library && (k.id = masterRecordName ||
    s.db.assetMasterMappings.contains (library, k.id, masterRecordName))

/-! ## snapshots -/

def MembershipDb.insertSnapshot (db : MembershipDb) (library containerId : String)
    (generation : Nat) (enumConfigHash : Option String) (now : Int) : MembershipDb :=
  { db with
    albumMembershipSnapshots := db.albumMembershipSnapshots.upsert
      { library := library, containerId := containerId, generation := generation,
        status := .running, enumConfigHash := enumConfigHash, startedAt := now,
        completedAt := none }
      id (fun _ => rfl) }

def startSnapshotStatements (library containerId : String) (enumConfigHash : Option String)
    (now : Int) : StateSql Nat := do
  let generation ← query "start_album_membership_snapshot::generation"
    (fun s : StateTables => maxGeneration library containerId s.memberships + 1)
  execute "start_album_membership_snapshot::insert"
    (fun s => s.modifyMemberships
      (fun db => db.insertSnapshot library containerId generation enumConfigHash now))
    (fun _ => ())
  return generation

def MembershipDb.recordMember (db : MembershipDb) (library containerId : String) (generation : Nat)
    (assetRecordName : String) (masterRecordName : Option String) (source : String) (now : Int) :
    MembershipDb :=
  { db with
    assetAlbumMemberships := db.assetAlbumMemberships.upsert
      { library := library, assetRecordName := assetRecordName,
        masterRecordName := masterRecordName, containerId := containerId,
        generation := generation, isDeleted := false, source := source, updatedAt := now }
      (fun m => { m with
        masterRecordName := masterRecordName.or m.masterRecordName, generation := generation,
        isDeleted := false, source := source, updatedAt := now })
      (AlbumMembership.key_recorded masterRecordName generation source now) }

def addMembershipStatements (library containerId : String) (generation : Nat)
    (assetRecordName : String) (masterRecordName : Option String) (source : String) (now : Int) :
    StateSql Unit := do
  let snapshotExists ← query "add_album_membership_to_snapshot::snapshot"
    (fun s : StateTables => s.memberships.isRunning library containerId generation)
  if snapshotExists then
    execute "add_album_membership_to_snapshot::upsert"
      (fun s => s.modifyMemberships (fun db => db.recordMember library containerId generation
        assetRecordName masterRecordName source now))
      (fun _ => ())
  else
    .refuse (noRunningSnapshot "add_album_membership_to_snapshot" library containerId generation)

def isRunningSnapshot (library containerId : String) (generation : Nat)
    (s : AlbumSnapshot) : Bool :=
  s.ofContainer library containerId && s.generation = generation && s.status = .running

def MembershipDb.completeSnapshot (db : MembershipDb) (library containerId : String)
    (generation : Nat) (now : Int) : MembershipDb :=
  { db with
    albumMembershipSnapshots := db.albumMembershipSnapshots.update
      (isRunningSnapshot library containerId generation)
      (fun s => { s with status := .complete, completedAt := some now })
      (AlbumSnapshot.key_completed now) }

def MembershipDb.pruneMembers (db : MembershipDb) (library containerId : String)
    (generation : Nat) (now : Int) : MembershipDb :=
  { db with
    assetAlbumMemberships := db.assetAlbumMemberships.update
      (fun m => m.ofContainer library containerId && m.generation ≠ generation && !m.isDeleted)
      (fun m => { m with isDeleted := true, updatedAt := now }) (AlbumMembership.key_deleted now) }

def completeSnapshotStatements (library containerId : String) (generation : Nat) (now : Int) :
    StateSql Unit := do
  let updated ← execute "complete_album_membership_snapshot::snapshot"
    (fun s : StateTables => s.modifyMemberships
      (fun db => db.completeSnapshot library containerId generation now))
    (fun s => s.memberships.albumMembershipSnapshots.count
      (isRunningSnapshot library containerId generation))
  if updated = 0 then
    .refuse (noRunningSnapshot "complete_album_membership_snapshot" library containerId generation)
  else
    execute "complete_album_membership_snapshot::prune"
      (fun s => s.modifyMemberships
        (fun db => db.pruneMembers library containerId generation now))
      (fun _ => ())

/-- The statements of a relation delta: whether the container is known, and the write. -/
def relationDeltaStatements (operation statement library containerId : String)
    (write : MembershipDb → MembershipDb) : StateSql Bool := do
  let containerKnown ← query (operation ++ "::container")
    (fun s : StateTables => albumContainerKnown library containerId s.memberships)
  execute (operation ++ statement) (fun s => s.modifyMemberships write) (fun _ => ())
  return containerKnown

/-! ## operations -/

/-- The operations on downloads, metadata, retries, snapshots and source deletions. -/
inductive StoreOp (host : Host) where
  | markDownloaded (library id versionSize localPath localChecksum : String)
      (downloadChecksum : Option String) (markCaptureRepair : Bool) (downloadedAt : Int)
  | refreshDownloadedAssetMetadata (library assetId : String) (metadata : SeenMetadata host)
      (markForRewrite markCaptureRepair : Bool) (captureRevision now : Int)
  | prepareForRetry (library : Option String) (retention : RetryErrorRetention)
  | startAlbumMembershipSnapshot (library containerId : String) (enumConfigHash : Option String)
      (now : Int)
  | addAlbumMembershipToSnapshot (library containerId : String) (generation : Nat)
      (assetRecordName : String) (masterRecordName : Option String) (source : String) (now : Int)
  | upsertAlbumMembershipDelta (library containerId assetRecordName : String)
      (masterRecordName : Option String) (source : String) (now : Int)
  | markAlbumMembershipDeleted (library containerId assetRecordName : String) (now : Int)
  | completeAlbumMembershipSnapshot (library containerId : String) (generation : Nat) (now : Int)
  | invalidateAlbumMembershipSnapshot (library containerId : String) (now : Int)
  | markSoftDeleted (library assetId : String) (deletedAt : Option Int)
  | resolveSourceDeleted (library assetId : String) (deletedAt : Option Int)
  | markMasterFamilySoftDeleted (library masterRecordName : String) (deletedAt : Option Int)
  | resolveMasterFamilySourceDeleted (library masterRecordName : String) (deletedAt : Option Int)

/-- A run of the operation, without its result. -/
def StoreOp.run {host : Host} (op : StoreOp host) (fuse : Option Nat) (s : StateTables) :
    Except (SqlError StateError) Unit × StateTables :=
  let unit {α : Type} (result : Except (SqlError StateError) α × StateTables) :=
    (result.1.map (fun _ => ()), result.2)
  match op with
  | .markDownloaded library id versionSize localPath localChecksum downloadChecksum
      markCaptureRepair downloadedAt =>
      unit (inConnection (StateDb.markDownloaded library id versionSize localPath localChecksum
        downloadChecksum markCaptureRepair downloadedAt) fuse s)
  | .refreshDownloadedAssetMetadata library assetId metadata markForRewrite markCaptureRepair
      captureRevision now =>
      unit (inConnection (refreshMetadata host library assetId metadata.1 markForRewrite
        markCaptureRepair captureRevision now) fuse s)
  | .prepareForRetry library retention =>
      unit (inConnection (prepareForRetryStatements library retention) fuse s)
  | .startAlbumMembershipSnapshot library containerId enumConfigHash now =>
      unit (inTransaction "start_album_membership_snapshot"
        (startSnapshotStatements library containerId enumConfigHash now) fuse s)
  | .addAlbumMembershipToSnapshot library containerId generation assetRecordName masterRecordName
      source now =>
      unit (inTransaction "add_album_membership_to_snapshot"
        (addMembershipStatements library containerId generation assetRecordName masterRecordName
          source now) fuse s)
  | .upsertAlbumMembershipDelta library containerId assetRecordName masterRecordName source now =>
      unit (inTransaction "upsert_album_membership_delta"
        (relationDeltaStatements "upsert_album_membership_delta" "::upsert" library containerId
          (fun db => (StateDb.upsertAlbumMembershipDelta library containerId assetRecordName
            masterRecordName source now db).2)) fuse s)
  | .markAlbumMembershipDeleted library containerId assetRecordName now =>
      unit (inTransaction "mark_album_membership_deleted"
        (relationDeltaStatements "mark_album_membership_deleted" "::update" library containerId
          (fun db => (StateDb.markAlbumMembershipDeleted library containerId assetRecordName now
            db).2)) fuse s)
  | .completeAlbumMembershipSnapshot library containerId generation now =>
      unit (inTransaction "complete_album_membership_snapshot"
        (completeSnapshotStatements library containerId generation now) fuse s)
  | .invalidateAlbumMembershipSnapshot library containerId now =>
      unit (inConnection (execute "invalidate_album_membership_snapshot"
        (fun s => s.modifyMemberships
          (StateDb.invalidateAlbumMembershipSnapshot library containerId now))
        (fun _ => ())) fuse s)
  | .markSoftDeleted library assetId deletedAt =>
      unit (inConnection (markDeletedStatements "mark_soft_deleted" (ofAsset library assetId)
        deletedAt) fuse s)
  | .resolveSourceDeleted library assetId deletedAt =>
      unit (inTransaction "resolve_source_deleted"
        (resolveDeletedStatements "resolve_source_deleted" (ofAsset library assetId)
          (keyOfAsset library assetId) deletedAt) fuse s)
  | .markMasterFamilySoftDeleted library masterRecordName deletedAt =>
      unit (inConnection (markDeletedStatements "mark_master_family_soft_deleted"
        (ofFamily library masterRecordName) deletedAt) fuse s)
  | .resolveMasterFamilySourceDeleted library masterRecordName deletedAt =>
      unit (inTransaction "resolve_master_family_source_deleted"
        (resolveDeletedStatements "resolve_master_family_source_deleted"
          (ofFamily library masterRecordName) (keyOfFamily library masterRecordName)
          deletedAt) fuse s)

/-! ## what an operation does as a whole -/

/-- The operation on the asset rows. -/
def StoreOp.toOp {host : Host} : StoreOp host → Option (Op host)
  | .markDownloaded library id versionSize localPath localChecksum downloadChecksum
      markCaptureRepair _ =>
      some (.markDownloaded library id versionSize localPath localChecksum downloadChecksum
        markCaptureRepair)
  | .refreshDownloadedAssetMetadata library assetId metadata markForRewrite markCaptureRepair _
      now =>
      some (.refreshDownloadedAssetMetadata library assetId metadata markForRewrite
        markCaptureRepair now)
  | .prepareForRetry library retention => some (.prepareForRetry library retention)
  | .markSoftDeleted library assetId deletedAt => some (.markSoftDeleted library assetId deletedAt)
  | .resolveSourceDeleted library assetId deletedAt =>
      some (.resolveSourceDeleted library assetId deletedAt)
  | .markMasterFamilySoftDeleted library masterRecordName deletedAt =>
      some (.markMasterFamilySoftDeleted library masterRecordName deletedAt)
  | .resolveMasterFamilySourceDeleted library masterRecordName deletedAt =>
      some (.resolveMasterFamilySourceDeleted library masterRecordName deletedAt)
  | _ => none

/-- The operation on the memberships. -/
def StoreOp.toMembershipOp {host : Host} : StoreOp host → Option MembershipOp
  | .startAlbumMembershipSnapshot library containerId enumConfigHash now =>
      some (.startAlbumMembershipSnapshot library containerId enumConfigHash now)
  | .addAlbumMembershipToSnapshot library containerId generation assetRecordName masterRecordName
      source now =>
      some (.addAlbumMembershipToSnapshot library containerId generation assetRecordName
        masterRecordName source now)
  | .upsertAlbumMembershipDelta library containerId assetRecordName masterRecordName source now =>
      some (.upsertAlbumMembershipDelta library containerId assetRecordName masterRecordName source
        now)
  | .markAlbumMembershipDeleted library containerId assetRecordName now =>
      some (.markAlbumMembershipDeleted library containerId assetRecordName now)
  | .completeAlbumMembershipSnapshot library containerId generation now =>
      some (.completeAlbumMembershipSnapshot library containerId generation now)
  | .invalidateAlbumMembershipSnapshot library containerId now =>
      some (.invalidateAlbumMembershipSnapshot library containerId now)
  | _ => none

theorem recordRevision_keeps (library assetId : String) (revision updatedAt : Int)
    (s : StateTables) :
    ((recordMetadataCaptureRevision library assetId revision updatedAt).run none s).2.2.db = s.db ∧
      ((recordMetadataCaptureRevision library assetId revision updatedAt).run none
        s).2.2.memberships = s.memberships := by
  simp only [recordMetadataCaptureRevision, run_execute_none]
  split
  · exact ⟨rfl, rfl⟩
  · exact ⟨rfl, rfl⟩

/-- The database of a result, or the one before. -/
def orElse (db : SqliteStateDb) (result : Except StateError SqliteStateDb) : SqliteStateDb :=
  match result with
  | .ok db => db
  | .error _ => db

theorem markDeleted_db (operation : String) (p : StateTables → AssetRow → Bool)
    (deletedAt : Option Int) (s : StateTables) :
    (inConnection (markDeletedStatements operation p deletedAt) none s).2.db =
        orElse s.db (do
          let assets ← StateDb.softDelete operation (p s) deletedAt s.db.assets
          return { s.db with assets := assets }) ∧
      (inConnection (markDeletedStatements operation p deletedAt) none s).2.memberships =
        s.memberships := by
  simp only [inConnection, markDeletedStatements, ensureNoPreparedCaptureRepair]
  rw [bind_assoc, run_query_none]
  unfold StateDb.softDelete
  cases hprepared : s.db.assets.rows.any (fun r => p s r && r.captureRepair.isPrepared) <;>
    simp [orElse, StateTables.softDelete, StateTables.modifyAssets]

theorem resolveDeleted_db (operation : String) (p : StateTables → AssetRow → Bool)
    (q : StateTables → Key → Bool) (deletedAt : Option Int) (s : StateTables)
    (hq : ∀ s', s'.db.assetMasterMappings = s.db.assetMasterMappings → q s' = q s) :
    (inTransaction operation (resolveDeletedStatements operation p q deletedAt) none s).2.db =
        orElse s.db (do
          let assets ← StateDb.softDelete operation (p s) deletedAt s.db.assets
          return { s.db with
            assets := assets,
            assetVerifications := s.db.assetVerifications.filter (fun k => !q s k) }) ∧
      (inTransaction operation (resolveDeletedStatements operation p q deletedAt) none
        s).2.memberships = s.memberships := by
  have hrun : (resolveDeletedStatements operation p q deletedAt).run none s =
      if s.db.assets.rows.any (fun r => p s r && r.captureRepair.isPrepared) then
        (.error (.refused (deletionHidesReceipt operation)), none, s)
      else (.ok (s.db.assets.count (p s)), none,
        (s.softDelete p deletedAt).clearVerifications q) := by
    simp only [resolveDeletedStatements, ensureNoPreparedCaptureRepair]
    rw [bind_assoc, run_query_none]
    split <;> simp
  rw [inTransaction_none, hrun]
  unfold StateDb.softDelete
  have hkeys : q (s.softDelete p deletedAt) = q s := hq _ rfl
  cases hprepared : s.db.assets.rows.any (fun r => p s r && r.captureRepair.isPrepared) <;>
    simp [orElse, StateTables.clearVerifications, hkeys, Except.isOk, Except.toBool]
  simp [StateTables.softDelete, StateTables.modifyAssets]

variable {generation : Nat}

theorem addMembership_db {operation library containerId : String} {assetRecordName : String}
    {masterRecordName : Option String} {source : String} {now : Int} {s : StateTables} :
    (inTransaction operation (addMembershipStatements library containerId generation
      assetRecordName masterRecordName source now) none s).2 =
      if s.memberships.isRunning library containerId generation then
        s.modifyMemberships (fun db => db.recordMember library containerId generation
          assetRecordName masterRecordName source now)
      else s := by
  rw [inTransaction_none, addMembershipStatements, run_query_none]
  split <;> simp [Except.isOk, Except.toBool]

theorem completeSnapshot_db {operation library containerId : String} {now : Int} {s : StateTables} :
    (inTransaction operation (completeSnapshotStatements library containerId generation now) none
      s).2 =
      if s.memberships.albumMembershipSnapshots.count
          (isRunningSnapshot library containerId generation) = 0 then s
      else (s.modifyMemberships (fun db => db.completeSnapshot library containerId generation
        now)).modifyMemberships (fun db => db.pruneMembers library containerId generation now) := by
  rw [inTransaction_none, completeSnapshotStatements, run_execute_none]
  split <;> simp [Except.isOk, Except.toBool]

theorem startSnapshot_memberships (library containerId : String) (enumConfigHash : Option String)
    (now : Int) (db : MembershipDb) :
    db.insertSnapshot library containerId (maxGeneration library containerId db + 1) enumConfigHash
        now =
      (startAlbumMembershipSnapshot library containerId enumConfigHash now db).2 := by
  unfold MembershipDb.insertSnapshot startAlbumMembershipSnapshot
  rw [Table.upsert, dif_neg (nextGeneration_fresh library containerId db _ rfl)]

/-- The container has a running snapshot of the generation exactly if the update reaches a row. -/
theorem count_isRunningSnapshot {library containerId : String} {db : MembershipDb} :
    db.albumMembershipSnapshots.count (isRunningSnapshot library containerId generation) = 0 ↔
      db.isRunning library containerId generation = false := by
  rw [Table.count, List.countP_eq_zero, MembershipDb.isRunning]
  cases hget : db.albumMembershipSnapshots.get? (library, containerId, generation) with
  | none =>
      refine iff_of_true (fun snapshot hsnapshot hrunning => ?_) rfl
      simp only [isRunningSnapshot, AlbumSnapshot.ofContainer, Bool.and_eq_true,
        decide_eq_true_eq] at hrunning
      obtain ⟨⟨⟨rfl, rfl⟩, rfl⟩, -⟩ := hrunning
      exact Table.get?_eq_none.mp hget (List.mem_map_of_mem hsnapshot)
  | some snapshot =>
      obtain ⟨hmem, hkey⟩ := Table.get?_eq_some.mp hget
      obtain ⟨rfl, rfl, rfl⟩ := hkey
      constructor
      · intro h
        simpa [isRunningSnapshot, AlbumSnapshot.ofContainer] using h snapshot hmem
      · intro h other hother hrunning
        simp only [isRunningSnapshot, AlbumSnapshot.ofContainer, Bool.and_eq_true,
          decide_eq_true_eq] at hrunning
        obtain ⟨⟨⟨hlibrary, hcontainer⟩, hgeneration⟩, hstatus⟩ := hrunning
        have hkey : other.key = snapshot.key := by
          rw [AlbumSnapshot.key, AlbumSnapshot.key, hlibrary, hcontainer, hgeneration]
        rw [Table.eq_of_key hother hmem hkey] at hstatus
        simp [hstatus] at h

/-- **Statements and operations**: without a failing statement the tables change as the operation
on the asset rows, or on the memberships, changes them. -/
theorem StoreOp.run_none {host : Host} (op : StoreOp host) (s : StateTables) :
    (op.run none s).2.db = op.toOp.elim s.db (Op.apply s.db) ∧
      (op.run none s).2.memberships =
        op.toMembershipOp.elim s.memberships (MembershipOp.apply s.memberships) := by
  cases op with
  | markDownloaded library id versionSize localPath localChecksum downloadChecksum
      markCaptureRepair downloadedAt =>
      have hkeeps := recordRevision_keeps library id metadataCaptureRevision downloadedAt
        (s.download library id versionSize localPath localChecksum downloadChecksum
          markCaptureRepair downloadedAt)
      by_cases hrows : s.db.assets.count (AssetRow.isVersion library id versionSize) = 0
      · have hnone : ∀ r ∈ s.db.assets.rows, r.isVersion library id versionSize = false := by
          simpa [Table.count, List.countP_eq_zero] using hrows
        have hsame : updateStatusToDownloaded library id versionSize localPath localChecksum
            downloadChecksum markCaptureRepair s.db.assets = s.db.assets :=
          Table.update_of_none hnone
        simp [StoreOp.run, inConnection, StateDb.markDownloaded, hrows, StoreOp.toOp,
          StoreOp.toMembershipOp, Op.apply, Op.run, StateTables.download,
          StateTables.modifyAssets, hsame]
      · simp only [StoreOp.run, inConnection, StateDb.markDownloaded, run_execute_none,
          hrows, if_false, hkeeps]
        simp [StoreOp.toOp, StoreOp.toMembershipOp, Op.apply, Op.run, hrows, StateTables.download,
          StateTables.modifyAssets]
  | refreshDownloadedAssetMetadata library assetId metadata markForRewrite markCaptureRepair
      captureRevision now =>
      simp only [StoreOp.run, inConnection, refreshMetadata, run_execute_none]
      split
      · rw [run_bind_pure]
        exact recordRevision_keeps ..
      · rw [run_query_none]
        split
        · rw [run_bind_pure]
          exact recordRevision_keeps ..
        · exact ⟨rfl, rfl⟩
  | prepareForRetry library retention => exact ⟨rfl, rfl⟩
  | startAlbumMembershipSnapshot library containerId enumConfigHash now =>
      exact ⟨rfl, startSnapshot_memberships library containerId enumConfigHash now s.memberships⟩
  | addAlbumMembershipToSnapshot library containerId generation assetRecordName masterRecordName
      source now =>
      rw [StoreOp.run]
      rw [addMembership_db]
      cases hrunning : s.memberships.isRunning library containerId generation <;>
        simp [StoreOp.toOp, StoreOp.toMembershipOp, MembershipOp.apply, MembershipOp.run,
          StateDb.addAlbumMembershipToSnapshot, hrunning, StateTables.modifyMemberships,
          MembershipDb.recordMember]
  | upsertAlbumMembershipDelta library containerId assetRecordName masterRecordName source now =>
      exact ⟨rfl, rfl⟩
  | markAlbumMembershipDeleted library containerId assetRecordName now => exact ⟨rfl, rfl⟩
  | completeAlbumMembershipSnapshot library containerId generation now =>
      rw [StoreOp.run]
      rw [completeSnapshot_db]
      cases hrunning : s.memberships.isRunning library containerId generation with
      | false =>
          rw [if_pos (count_isRunningSnapshot.mpr hrunning)]
          simp [StoreOp.toOp, StoreOp.toMembershipOp, MembershipOp.apply, MembershipOp.run,
            StateDb.completeAlbumMembershipSnapshot, hrunning]
      | true =>
          have hcount : s.memberships.albumMembershipSnapshots.count
              (isRunningSnapshot library containerId generation) ≠ 0 := fun h => by
            rw [count_isRunningSnapshot.mp h] at hrunning
            cases hrunning
          rw [if_neg hcount]
          simp only [StoreOp.toMembershipOp, Option.elim_some, MembershipOp.apply,
            MembershipOp.run, StateDb.completeAlbumMembershipSnapshot, hrunning, if_true]
          exact ⟨rfl, rfl⟩
  | invalidateAlbumMembershipSnapshot library containerId now => exact ⟨rfl, rfl⟩
  | markSoftDeleted library assetId deletedAt =>
      exact markDeleted_db "mark_soft_deleted" (ofAsset library assetId) deletedAt s
  | resolveSourceDeleted library assetId deletedAt =>
      exact resolveDeleted_db "resolve_source_deleted" (ofAsset library assetId)
        (keyOfAsset library assetId) deletedAt s (fun _ _ => rfl)
  | markMasterFamilySoftDeleted library masterRecordName deletedAt =>
      exact markDeleted_db "mark_master_family_soft_deleted" (ofFamily library masterRecordName)
        deletedAt s
  | resolveMasterFamilySourceDeleted library masterRecordName deletedAt =>
      refine resolveDeleted_db "resolve_master_family_source_deleted"
        (ofFamily library masterRecordName) (keyOfFamily library masterRecordName) deletedAt s
        (fun s' h => ?_)
      funext k
      simp [keyOfFamily, h]

end Kei.StateDb
