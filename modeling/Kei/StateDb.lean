import Kei.Lib.Table

/-!
# Kei.StateDb

The asset rows of the state database: one row for each version of an asset,
and the operations of the store on them.

An operation is one statement or one transaction, so it changes the rows as a
whole or fails and leaves them.  The times of the rows are inputs of the
operations.
-/

namespace Kei.StateDb

/-! ## rows -/

inductive AssetStatus where
  | pending
  | downloaded
  | policyExcluded
  | failed
  deriving DecidableEq

/-- What the metadata hash covers. -/
structure MetadataFields where
  isHidden : Bool
  isDeleted : Bool
  deletedAt : Option Int
  timezoneOffset : Option Int
  /-- The other hashed fields, as one text. -/
  details : String
  deriving DecidableEq

structure AssetMetadata extends MetadataFields where
  metadataHash : Option String
  deriving DecidableEq

/-- The hash function of the metadata. -/
structure Host where
  computeHash : MetadataFields → String
  computeHash_ne : ∀ fields, computeHash fields ≠ ""

/-- A hash that is there is the one of the fields. -/
def AssetMetadata.Hashed (host : Host) (m : AssetMetadata) : Prop :=
  m.metadataHash = none ∨ m.metadataHash = some (host.computeHash m.toMetadataFields)

/-- The columns of a row that make a record. -/
structure AssetRecord where
  library : String
  id : String
  versionSize : String
  checksum : String
  createdAt : Int
  status : AssetStatus
  localPath : Option String
  lastSeenAt : Int
  downloadAttempts : Nat
  lastError : Option String
  localChecksum : Option String
  metadata : AssetMetadata
  deriving DecidableEq

/-- A record as the provider gives it. -/
abbrev SeenRecord (host : Host) := { record : AssetRecord // record.metadata.Hashed host }

/-- Metadata as the provider gives it. -/
abbrev SeenMetadata (host : Host) := { metadata : AssetMetadata // metadata.Hashed host }

/-- The `capture_repair_*` columns. -/
structure CaptureRepair where
  metadataHash : Option String
  outputChecksum : Option String
  outputSize : Option Int
  deriving DecidableEq

def CaptureRepair.null : CaptureRepair := ⟨none, none, none⟩

structure AssetRow extends AssetRecord where
  downloadChecksum : Option String
  metadataWriteFailedAt : Option Int
  captureRepair : CaptureRepair
  deriving DecidableEq

structure Key where
  library : String
  id : String
  versionSize : String
  deriving DecidableEq

def AssetRecord.key (r : AssetRecord) : Key := ⟨r.library, r.id, r.versionSize⟩

abbrev AssetRow.key (r : AssetRow) : Key := r.toAssetRecord.key

abbrev AssetTable := Table AssetRow Key AssetRow.key

structure SqliteStateDb where
  assets : AssetTable
  /-- `asset_master_mappings`: library, asset record name, master record name. -/
  assetMasterMappings : List (String × String × String)
  assetVerifications : List Key

inductive StateError where
  | invariant (operation detail : String)
  | assetRowMissing (assetId versionSize : String)
  deriving DecidableEq

/-! ## SQL comparisons

A comparison with `NULL` does not hold. -/

/-- `x <> ''`. -/
def notEmpty (x : Option String) : Bool := x.any (fun s => s ≠ "")

/-- `x >= 0`. -/
def nonNegative (x : Option Int) : Bool := x.any (fun n => 0 ≤ n)

def CaptureRepair.isNull (c : CaptureRepair) : Bool :=
  c.metadataHash.isNone && c.outputChecksum.isNone && c.outputSize.isNone

/-- Hash only. -/
def CaptureRepair.isPending (c : CaptureRepair) : Bool :=
  notEmpty c.metadataHash && c.outputChecksum.isNone && c.outputSize.isNone

/-- All three, and well formed. -/
def CaptureRepair.isPrepared (c : CaptureRepair) : Bool :=
  notEmpty c.metadataHash && notEmpty c.outputChecksum && nonNegative c.outputSize

def AssetRow.isLiveDownload (r : AssetRow) : Bool :=
  r.status = .downloaded && !r.metadata.isDeleted

def AssetRow.isAsset (library id : String) (r : AssetRow) : Bool := r.library = library && r.id = id

def AssetRow.isVersion (library id versionSize : String) (r : AssetRow) : Bool :=
  r.key = ⟨library, id, versionSize⟩

/-! ## seeing an asset -/

def publicationPending : StateError :=
  .invariant "upsert_seen"
    "provider metadata changed while capture-repair publication awaits finalization"

/-- The repair columns after an upsert with the given metadata hash. -/
def CaptureRepair.upserted (c : CaptureRepair) (sameMedia : Bool) (metadataHash : Option String) :
    CaptureRepair where
  metadataHash :=
    if !sameMedia then none
    else if c.isNull then none
    else if c.isPending then metadataHash
    else if c.isPrepared then metadataHash
    else c.metadataHash
  outputChecksum :=
    if !sameMedia then none
    else if c.isNull then none
    else if c.isPending then none
    else if c.isPrepared then
      if c.metadataHash = metadataHash then c.outputChecksum else none
    else c.outputChecksum
  outputSize :=
    if !sameMedia then none
    else if c.isNull then none
    else if c.isPending then none
    else if c.isPrepared then
      if c.metadataHash = metadataHash then c.outputSize else none
    else c.outputSize

/-- The hash of the caller, or the computed one. -/
def AssetMetadata.withHash (host : Host) (m : AssetMetadata) : AssetMetadata :=
  { m with
    metadataHash := some (m.metadataHash.getD (host.computeHash m.toMetadataFields)) }

/-- The row that an upsert inserts. -/
def seenRow (record : AssetRecord) (metadata : AssetMetadata) (lastSeenAt : Int) : AssetRow :=
  { library := record.library, id := record.id, versionSize := record.versionSize,
    checksum := record.checksum, createdAt := record.createdAt, status := .pending,
    localPath := none, lastSeenAt := lastSeenAt, downloadAttempts := 0, lastError := none,
    localChecksum := none, metadata := metadata, downloadChecksum := none,
    metadataWriteFailedAt := none, captureRepair := .null }

/-- What an upsert does to a row that is there. -/
def AssetRow.seen (record : AssetRecord) (metadata : AssetMetadata) (lastSeenAt : Int)
    (r : AssetRow) : AssetRow :=
  { r with
    status :=
      if r.status = .policyExcluded ∨ r.checksum ≠ record.checksum then .pending else r.status,
    checksum := record.checksum,
    createdAt := record.createdAt,
    lastSeenAt := lastSeenAt,
    metadata := metadata,
    captureRepair :=
      r.captureRepair.upserted (r.checksum = record.checksum) metadata.metadataHash }

/-- The query before the statement: a receipt of the asset awaits its publication. -/
def blockedCaptureRepair (record : AssetRecord) (metadataHash : Option String)
    (t : AssetTable) : Bool :=
  t.rows.any (fun r =>
    r.isAsset record.library record.id && r.isLiveDownload && r.captureRepair.isPrepared &&
      r.captureRepair.metadataHash ≠ metadataHash &&
      (r.versionSize ≠ record.versionSize || r.checksum = record.checksum))

/-- The `WHERE NOT` of the statement, which then changes nothing. -/
def upsertUnchanged (record : AssetRecord) (metadataHash : Option String) (t : AssetTable) :
    Bool :=
  t.rows.any (fun r =>
    r.key = record.key && r.checksum = record.checksum && r.captureRepair.isPrepared &&
      r.captureRepair.metadataHash ≠ metadataHash)

/-- One of the two guards. -/
def upsertBlocked (host : Host) (record : AssetRecord) (t : AssetTable) : Bool :=
  let metadataHash := (record.metadata.withHash host).metadataHash
  blockedCaptureRepair record metadataHash t || upsertUnchanged record metadataHash t

def upsertAssetRow (host : Host) (record : AssetRecord) (lastSeenAt : Int) (t : AssetTable) :
    Except StateError AssetTable :=
  let metadata := record.metadata.withHash host
  if upsertBlocked host record t then
    .error publicationPending
  else
    .ok (t.upsert (seenRow record metadata lastSeenAt) (AssetRow.seen record metadata lastSeenAt)
      (fun _ => rfl))

/-! ## downloads -/

/-- What `mark_downloaded` does to the row. -/
def AssetRow.downloadedAs (localPath localChecksum : String) (downloadChecksum : Option String)
    (markCaptureRepair : Bool) (r : AssetRow) : AssetRow :=
  let sameBytes := r.localChecksum = some localChecksum
  { r with
    status := .downloaded,
    localPath := some localPath,
    localChecksum := some localChecksum,
    downloadChecksum := downloadChecksum <|> r.downloadChecksum,
    lastError := none,
    captureRepair :=
      { metadataHash :=
          if markCaptureRepair then r.metadata.metadataHash
          else if sameBytes then r.captureRepair.metadataHash
          else none,
        outputChecksum :=
          if markCaptureRepair then none
          else if sameBytes then r.captureRepair.outputChecksum
          else none,
        outputSize :=
          if markCaptureRepair then none
          else if sameBytes then r.captureRepair.outputSize
          else none } }

def updateStatusToDownloaded (library id versionSize localPath localChecksum : String)
    (downloadChecksum : Option String) (markCaptureRepair : Bool) (t : AssetTable) : AssetTable :=
  t.update (AssetRow.isVersion library id versionSize)
    (AssetRow.downloadedAs localPath localChecksum downloadChecksum markCaptureRepair)
    (fun _ => rfl)

/-! ## receipts -/

inductive CaptureRepairReceipt where
  | pending (metadataHash : String)
  | prepared (metadataHash outputChecksum : String) (outputSize : Nat)
  deriving DecidableEq

def CaptureRepairReceipt.metadataHash : CaptureRepairReceipt → String
  | .pending h => h
  | .prepared h _ _ => h

structure PendingMetadataRewrite where
  asset : AssetRecord
  captureRepairReceipt : Option CaptureRepairReceipt
  deriving DecidableEq

/-- The receipt of a row; the error is a malformed one. -/
def receiptOf (c : CaptureRepair) : Except CaptureRepair (Option CaptureRepairReceipt) :=
  match c with
  | ⟨none, none, none⟩ => .ok none
  | ⟨some h, none, none⟩ => if h ≠ "" then .ok (some (.pending h)) else .error c
  | ⟨some h, some o, some n⟩ =>
      if h ≠ "" ∧ o ≠ "" ∧ 0 ≤ n then .ok (some (.prepared h o n.toNat)) else .error c
  | _ => .error c

def rowToPendingMetadataRewrite (r : AssetRow) : Except CaptureRepair PendingMetadataRewrite :=
  match receiptOf r.captureRepair with
  | .ok receipt => .ok ⟨r.toAssetRecord, receipt⟩
  | .error c => .error c

inductive MetadataRewriteQueue where
  | ordinary
  | captureRepair
  deriving DecidableEq

inductive MetadataRewriteCompletion where
  | none
  | ordinary
  | captureRepair
  | both
  deriving DecidableEq

def MetadataRewriteCompletion.clears :
    MetadataRewriteCompletion → MetadataRewriteQueue → Bool
  | .ordinary, .ordinary => true
  | .both, .ordinary => true
  | .captureRepair, .captureRepair => true
  | .both, .captureRepair => true
  | _, _ => false

/-- The largest integer of the database. -/
def sqliteMax : Nat := 2 ^ 63 - 1

/-- The columns that a row with the receipt has. -/
def receiptColumns : Option CaptureRepairReceipt → CaptureRepair
  | none => .null
  | some (.pending h) => ⟨some h, none, none⟩
  | some (.prepared h o n) => ⟨some h, some o, some n⟩

def receiptTooLarge : Option CaptureRepairReceipt → Bool
  | some (.prepared _ _ n) => sqliteMax < n
  | _ => false

/-- Record the output of a repair before it is published; the new receipt, unless the row
changed. -/
def recordCaptureRepairPrepared (pending : PendingMetadataRewrite) (outputChecksum : String)
    (outputSize : Nat) (t : AssetTable) :
    Except StateError (AssetTable × Option CaptureRepairReceipt) :=
  let fail (detail : String) := Except.error (.invariant "record_capture_repair_prepared" detail)
  if outputChecksum = "" then
    fail "capture-repair output checksum is empty"
  else
    match pending.captureRepairReceipt with
    | none => fail "the selected row has no capture-repair receipt"
    | some receipt =>
        if receiptTooLarge (some receipt) then
          fail "selected capture-repair output size exceeds SQLite INTEGER"
        else
          match pending.asset.localChecksum with
          | none => .ok (t, none)
          | some inputChecksum =>
              if sqliteMax < outputSize then
                fail "capture-repair output size exceeds SQLite INTEGER"
              else
                let selected (r : AssetRow) : Bool :=
                  r.key = pending.asset.key &&
                    r.isLiveDownload &&
                    r.metadata.metadataHash = some receipt.metadataHash &&
                    r.localChecksum = some inputChecksum &&
                    r.captureRepair = receiptColumns (some receipt)
                let set (r : AssetRow) : AssetRow :=
                  { r with
                    captureRepair :=
                      { r.captureRepair with
                        outputChecksum := some outputChecksum, outputSize := some outputSize } }
                .ok (t.update selected set (fun _ => rfl),
                  if 0 < t.count selected then
                    some (.prepared receipt.metadataHash outputChecksum outputSize)
                  else none)

/-! ## metadata -/

/-- The repair columns after a refresh with the given metadata hash. -/
def CaptureRepair.refreshed (c : CaptureRepair) (metadataHash : Option String)
    (markCaptureRepair : Bool) : CaptureRepair where
  outputChecksum :=
    if c.isPrepared then c.outputChecksum
    else if c.isNull then none
    else if c.isPending then none
    else c.outputChecksum
  outputSize :=
    if c.isPrepared then c.outputSize
    else if c.isNull then none
    else if c.isPending then none
    else c.outputSize
  metadataHash :=
    if c.isPrepared then c.metadataHash
    else if c.isPending then metadataHash
    else if c.isNull then if markCaptureRepair then metadataHash else none
    else c.metadataHash

def AssetRow.refreshed (metadata : AssetMetadata) (markForRewrite markCaptureRepair : Bool)
    (rewriteAt : Int) (r : AssetRow) : AssetRow :=
  { r with
    metadata := metadata,
    captureRepair := r.captureRepair.refreshed metadata.metadataHash markCaptureRepair,
    metadataWriteFailedAt := if markForRewrite then some rewriteAt else r.metadataWriteFailedAt }

/-- A receipt of the asset for other metadata awaits its publication. -/
def refreshBlocked (library assetId : String) (metadataHash : Option String) (t : AssetTable) :
    Bool :=
  t.rows.any (fun r =>
    r.isAsset library assetId && r.isLiveDownload && r.captureRepair.isPrepared &&
      r.captureRepair.metadataHash ≠ metadataHash)

/-- New metadata for the downloaded versions of an asset. -/
def refreshDownloadedAssetMetadata (host : Host) (library assetId : String)
    (metadata : AssetMetadata) (markForRewrite markCaptureRepair : Bool) (rewriteAt : Int)
    (t : AssetTable) : AssetTable :=
  let metadata := metadata.withHash host
  t.update (fun r => r.isAsset library assetId && r.isLiveDownload &&
      !refreshBlocked library assetId metadata.metadataHash t)
    (AssetRow.refreshed metadata markForRewrite markCaptureRepair rewriteAt) (fun _ => rfl)

/-- The reason why a rewrite cannot be finished. -/
def finishRefused (pending : PendingMetadataRewrite) (selectedQueue : MetadataRewriteQueue)
    (localChecksum preRewriteChecksum : Option String) (completion : MetadataRewriteCompletion) :
    Option String :=
  if pending.asset.metadata.metadataHash = none then
    some "the selected row has no metadata hash"
  else if preRewriteChecksum.isSome && preRewriteChecksum ≠ pending.asset.localChecksum then
    some "pre-rewrite checksum does not match the selected input"
  else if (selectedQueue = .captureRepair || completion.clears .captureRepair) &&
      pending.captureRepairReceipt.isNone then
    some "capture-repair completion requires a typed receipt"
  else
    match pending.captureRepairReceipt with
    | some (.pending _) =>
        if completion.clears .captureRepair && localChecksum ≠ pending.asset.localChecksum then
          some "capture-repair bytes changed without a prepared receipt"
        else none
    | some (.prepared _ outputChecksum outputSize) =>
        if completion.clears .captureRepair && localChecksum ≠ some outputChecksum &&
            localChecksum ≠ pending.asset.localChecksum then
          some "capture-repair output does not match its prepared receipt"
        else if sqliteMax < outputSize then
          some "capture-repair output size exceeds SQLite INTEGER"
        else none
    | none => none

def AssetRow.finished (localChecksum preRewriteChecksum : Option String)
    (completion : MetadataRewriteCompletion) (r : AssetRow) : AssetRow :=
  let clearCapture := completion.clears .captureRepair
  { r with
    localChecksum := localChecksum,
    downloadChecksum := r.downloadChecksum <|> preRewriteChecksum,
    metadataWriteFailedAt :=
      if completion.clears .ordinary then none else r.metadataWriteFailedAt,
    captureRepair :=
      { metadataHash := if clearCapture then none else r.captureRepair.metadataHash,
        outputChecksum :=
          if clearCapture || r.localChecksum ≠ localChecksum then none
          else r.captureRepair.outputChecksum,
        outputSize :=
          if clearCapture || r.localChecksum ≠ localChecksum then none
          else r.captureRepair.outputSize } }

/-- The row is the one that was selected, and still in its queue. -/
def AssetRow.isSelected (pending : PendingMetadataRewrite) (selectedQueue : MetadataRewriteQueue)
    (completion : MetadataRewriteCompletion) (r : AssetRow) : Bool :=
  let sameReceipt := r.captureRepair = receiptColumns pending.captureRepairReceipt
  r.key = pending.asset.key &&
    r.isLiveDownload &&
    r.metadata.metadataHash = pending.asset.metadata.metadataHash &&
    r.localChecksum = pending.asset.localChecksum &&
    (match selectedQueue with
      | .ordinary => r.metadataWriteFailedAt.isSome
      | .captureRepair => sameReceipt) &&
    (!completion.clears .captureRepair || sameReceipt)

/-- Finish a rewrite; whether the row left its queue. -/
def finishMetadataRewrite (pending : PendingMetadataRewrite)
    (selectedQueue : MetadataRewriteQueue) (localChecksum preRewriteChecksum : Option String)
    (completion : MetadataRewriteCompletion) (t : AssetTable) :
    Except StateError (AssetTable × Bool) :=
  match finishRefused pending selectedQueue localChecksum preRewriteChecksum completion with
  | some detail => .error (.invariant "finish_metadata_rewrite" detail)
  | none =>
      let selected := AssetRow.isSelected pending selectedQueue completion
      .ok (t.update selected (AssetRow.finished localChecksum preRewriteChecksum completion)
          (fun _ => rfl),
        0 < t.count selected && completion.clears selectedQueue)

/-! ## source deletion -/

def deletionHidesReceipt (operation : String) : StateError :=
  .invariant operation "source deletion cannot hide a prepared capture-repair receipt"

/-- The row is deleted at the source. -/
def AssetRow.softDeleted (deletedAt : Option Int) (r : AssetRow) : AssetRow :=
  { r with metadata := { r.metadata with
      isDeleted := true, deletedAt := deletedAt <|> r.metadata.deletedAt } }

theorem AssetRow.key_softDeleted (deletedAt : Option Int) (r : AssetRow) :
    (r.softDeleted deletedAt).key = r.key := rfl

/-- Mark the rows that satisfy `p`, unless one of them has a prepared receipt. -/
def softDelete (operation : String) (p : AssetRow → Bool) (deletedAt : Option Int)
    (t : AssetTable) : Except StateError AssetTable :=
  if t.rows.any (fun r => p r && r.captureRepair.isPrepared) then
    .error (deletionHidesReceipt operation)
  else
    .ok (t.update p (AssetRow.softDeleted deletedAt) (AssetRow.key_softDeleted deletedAt))

/-- The rows of a master: its own, and those of the assets that are mapped to it. -/
def AssetRow.isFamily (mappings : List (String × String × String))
    (library masterRecordName : String) (r : AssetRow) : Bool :=
  r.library = library &&
    (r.id = masterRecordName || mappings.contains (library, r.id, masterRecordName))

def markSoftDeleted (library assetId : String) (deletedAt : Option Int) (db : SqliteStateDb) :
    Except StateError SqliteStateDb := do
  let assets ← softDelete "mark_soft_deleted" (AssetRow.isAsset library assetId) deletedAt
    db.assets
  return { db with assets := assets }

def resolveSourceDeleted (library assetId : String) (deletedAt : Option Int)
    (db : SqliteStateDb) : Except StateError SqliteStateDb := do
  let assets ← softDelete "resolve_source_deleted" (AssetRow.isAsset library assetId) deletedAt
    db.assets
  return { db with
    assets := assets,
    assetVerifications := db.assetVerifications.filter (fun k =>
      !(k.library = library && k.id = assetId)) }

def markMasterFamilySoftDeleted (library masterRecordName : String) (deletedAt : Option Int)
    (db : SqliteStateDb) : Except StateError SqliteStateDb := do
  let assets ← softDelete "mark_master_family_soft_deleted"
    (AssetRow.isFamily db.assetMasterMappings library masterRecordName) deletedAt db.assets
  return { db with assets := assets }

def resolveMasterFamilySourceDeleted (library masterRecordName : String)
    (deletedAt : Option Int) (db : SqliteStateDb) : Except StateError SqliteStateDb := do
  let assets ← softDelete "resolve_master_family_source_deleted"
    (AssetRow.isFamily db.assetMasterMappings library masterRecordName) deletedAt db.assets
  return { db with
    assets := assets,
    assetVerifications := db.assetVerifications.filter (fun k =>
      !(k.library = library && (k.id = masterRecordName ||
        db.assetMasterMappings.contains (library, k.id, masterRecordName)))) }

/-- The assets with a downloaded row that is deleted at the source. -/
def getSoftDeletedDownloadedIds (db : SqliteStateDb) : List (String × String) :=
  (db.assets.rows.filter (fun r => r.status = .downloaded && r.metadata.isDeleted)).map
    (fun r => (r.library, r.id))

/-! ## failures, retries and pruning -/

def AssetRow.failedWith (error : String) (r : AssetRow) : AssetRow :=
  { r with
    status := .failed, downloadAttempts := r.downloadAttempts + 1, lastError := some error }

theorem AssetRow.key_metadataWriteFailed (now : Int) (r : AssetRow) :
    { r with metadataWriteFailedAt := some now : AssetRow }.key = r.key := rfl

theorem AssetRow.key_failedWith (error : String) (r : AssetRow) :
    (r.failedWith error).key = r.key := rfl

def markFailed (library id versionSize error : String) (t : AssetTable) :
    Except StateError AssetTable :=
  let p := AssetRow.isVersion library id versionSize
  if t.count p = 0 then
    .error (.invariant "mark_failed" ("library=" ++ library ++ " id=" ++ id ++ " version_size=" ++
      versionSize ++ " not present; upsert_seen must run before mark_failed"))
  else
    .ok (t.update p (AssetRow.failedWith error) (AssetRow.key_failedWith error))

inductive RetryErrorRetention where
  | clear
  | preserve (reason : String)

def RetryErrorRetention.retained (retention : RetryErrorRetention) (lastError : Option String) :
    Option String :=
  match retention with
  | .clear => none
  | .preserve reason => if lastError = some reason then lastError else none

/-- The failed rows are pending again, and pending rows start anew. -/
def prepareForRetry (library : Option String) (retention : RetryErrorRetention)
    (t : AssetTable) : AssetTable :=
  let inScope (r : AssetRow) : Bool :=
    !r.metadata.isDeleted && library.all (fun l => r.library = l)
  let failed := t.update (fun r => r.status = .failed && inScope r)
    (fun r => { r with
      status := .pending, downloadAttempts := 0, lastError := retention.retained r.lastError })
    (fun _ => rfl)
  failed.update (fun r => r.status = .pending && inScope r && 0 < r.downloadAttempts)
    (fun r => { r with downloadAttempts := 0, lastError := retention.retained r.lastError })
    (fun _ => rfl)

def promotePendingToFailed (seenSince : Int) (db : SqliteStateDb) : SqliteStateDb :=
  { db with
    assets := db.assets.update
      (fun r => r.status = .pending && seenSince ≤ r.lastSeenAt &&
        !db.assetVerifications.contains r.key)
      (fun r => { r with status := .failed, lastError := some "Not resolved during sync" })
      (fun _ => rfl) }

def pruneStalePendingNotSeenSince (library : String) (seenSince : Int) (t : AssetTable) :
    AssetTable :=
  t.delete (fun r => r.library = library && r.status = .pending && r.lastSeenAt < seenSince)

def prunePendingAssetVersions (library : String) (assetVersions : List (String × String))
    (t : AssetTable) : AssetTable :=
  t.delete (fun r => r.library = library && assetVersions.contains (r.id, r.versionSize) &&
    r.status = .pending)

def markPolicyExcluded (library id versionSize : String) (db : SqliteStateDb) : SqliteStateDb :=
  let p (r : AssetRow) : Bool :=
    r.isVersion library id versionSize && r.status = .pending && !r.metadata.isDeleted
  { db with
    assets := db.assets.update p (fun r => { r with status := .policyExcluded, lastError := none })
      (fun _ => rfl),
    assetVerifications :=
      if 0 < db.assets.count p then db.assetVerifications.filter (· ≠ ⟨library, id, versionSize⟩)
      else db.assetVerifications }

/-! ## operations -/

/-- The operations of the store that write asset rows, or what their statements read. -/
inductive Op (host : Host) where
  | upsertSeen (record : SeenRecord host) (now : Int)
  | markDownloaded (library id versionSize localPath localChecksum : String)
      (downloadChecksum : Option String) (markCaptureRepair : Bool)
  | importAdopt (record : SeenRecord host) (localPath localChecksum : String) (now : Int)
  | markFailed (library id versionSize error : String)
  | prepareForRetry (library : Option String) (retention : RetryErrorRetention)
  | promotePendingToFailed (seenSince : Int)
  | pruneStalePendingNotSeenSince (library : String) (seenSince : Int)
  | prunePendingAssetVersions (library : String) (assetVersions : List (String × String))
  | markPolicyExcluded (library id versionSize : String)
  | touchLastSeenMany (library : String) (assetIds : List String) (now : Int)
  | markSoftDeleted (library assetId : String) (deletedAt : Option Int)
  | resolveSourceDeleted (library assetId : String) (deletedAt : Option Int)
  | markMasterFamilySoftDeleted (library masterRecordName : String) (deletedAt : Option Int)
  | resolveMasterFamilySourceDeleted (library masterRecordName : String) (deletedAt : Option Int)
  | markHiddenAtSource (library assetId : String)
  | recordMetadataWriteFailure (library assetId versionSize : String) (now : Int)
  | recordCaptureRepairPrepared (pending : PendingMetadataRewrite) (outputChecksum : String)
      (outputSize : Nat)
  | refreshDownloadedAssetMetadata (library assetId : String) (metadata : SeenMetadata host)
      (markForRewrite markCaptureRepair : Bool) (now : Int)
  | finishMetadataRewrite (pending : PendingMetadataRewrite)
      (selectedQueue : MetadataRewriteQueue) (localChecksum preRewriteChecksum : Option String)
      (completion : MetadataRewriteCompletion)
  | upsertAssetMasterMapping (library assetRecordName masterRecordName : String)
  | setAssetVerification (library id versionSize : String)
  | clearAssetVerification (library id versionSize : String)

/-- The database after an operation that succeeds. -/
def Op.run {host : Host} (db : SqliteStateDb) : Op host → Except StateError SqliteStateDb
  | .upsertSeen record now => do
      let assets ← upsertAssetRow host record.1 now db.assets
      return { db with assets := assets }
  | .markDownloaded library id versionSize localPath localChecksum downloadChecksum
      markCaptureRepair =>
      if db.assets.count (AssetRow.isVersion library id versionSize) = 0 then
        .error (.assetRowMissing id versionSize)
      else
        .ok { db with
          assets := updateStatusToDownloaded library id versionSize localPath localChecksum
            downloadChecksum markCaptureRepair db.assets }
  | .importAdopt record localPath localChecksum now => do
      let assets ← upsertAssetRow host record.1 now db.assets
      return { db with
        assets := updateStatusToDownloaded record.1.library record.1.id record.1.versionSize
          localPath localChecksum none false assets }
  | .markFailed library id versionSize error => do
      let assets ← StateDb.markFailed library id versionSize error db.assets
      return { db with assets := assets }
  | .prepareForRetry library retention =>
      .ok { db with assets := StateDb.prepareForRetry library retention db.assets }
  | .promotePendingToFailed seenSince => .ok (StateDb.promotePendingToFailed seenSince db)
  | .pruneStalePendingNotSeenSince library seenSince =>
      .ok { db with assets := StateDb.pruneStalePendingNotSeenSince library seenSince db.assets }
  | .prunePendingAssetVersions library assetVersions =>
      .ok { db with assets := StateDb.prunePendingAssetVersions library assetVersions db.assets }
  | .markPolicyExcluded library id versionSize =>
      .ok (StateDb.markPolicyExcluded library id versionSize db)
  | .touchLastSeenMany library assetIds now =>
      .ok { db with
        assets := db.assets.update (fun r => r.library = library && assetIds.contains r.id)
          (fun r => { r with lastSeenAt := now }) (fun _ => rfl) }
  | .markSoftDeleted library assetId deletedAt =>
      StateDb.markSoftDeleted library assetId deletedAt db
  | .resolveSourceDeleted library assetId deletedAt =>
      StateDb.resolveSourceDeleted library assetId deletedAt db
  | .markMasterFamilySoftDeleted library masterRecordName deletedAt =>
      StateDb.markMasterFamilySoftDeleted library masterRecordName deletedAt db
  | .resolveMasterFamilySourceDeleted library masterRecordName deletedAt =>
      StateDb.resolveMasterFamilySourceDeleted library masterRecordName deletedAt db
  | .markHiddenAtSource library assetId =>
      .ok { db with
        assets := db.assets.update (AssetRow.isAsset library assetId)
          (fun r => { r with metadata := { r.metadata with isHidden := true } }) (fun _ => rfl) }
  | .recordMetadataWriteFailure library assetId versionSize now =>
      .ok { db with
        assets := db.assets.update (AssetRow.isVersion library assetId versionSize)
          (fun r => { r with metadataWriteFailedAt := some now })
          (AssetRow.key_metadataWriteFailed now) }
  | .recordCaptureRepairPrepared pending outputChecksum outputSize => do
      let (assets, _) ← StateDb.recordCaptureRepairPrepared pending outputChecksum outputSize
        db.assets
      return { db with assets := assets }
  | .refreshDownloadedAssetMetadata library assetId metadata markForRewrite markCaptureRepair
      now =>
      .ok { db with
        assets := StateDb.refreshDownloadedAssetMetadata host library assetId metadata.1
          markForRewrite markCaptureRepair now db.assets }
  | .finishMetadataRewrite pending selectedQueue localChecksum preRewriteChecksum completion => do
      let (assets, _) ← StateDb.finishMetadataRewrite pending selectedQueue localChecksum
        preRewriteChecksum completion db.assets
      return { db with assets := assets }
  | .upsertAssetMasterMapping library assetRecordName masterRecordName =>
      .ok { db with
        assetMasterMappings := (library, assetRecordName, masterRecordName) ::
          db.assetMasterMappings.filter (fun m => !(m.1 = library && m.2.1 = assetRecordName)) }
  | .setAssetVerification library id versionSize =>
      .ok { db with
        assetVerifications := ⟨library, id, versionSize⟩ ::
          db.assetVerifications.filter (· ≠ ⟨library, id, versionSize⟩) }
  | .clearAssetVerification library id versionSize =>
      .ok { db with
        assetVerifications := db.assetVerifications.filter (· ≠ ⟨library, id, versionSize⟩) }

/-- An operation that fails leaves the database. -/
def Op.apply {host : Host} (db : SqliteStateDb) (op : Op host) : SqliteStateDb :=
  match op.run db with
  | .ok db => db
  | .error _ => db

def runOps {host : Host} (db : SqliteStateDb) (ops : List (Op host)) : SqliteStateDb :=
  ops.foldl Op.apply db

/-- Before any asset was seen. -/
def SqliteStateDb.empty : SqliteStateDb := ⟨.empty, [], []⟩

end Kei.StateDb
