import Kei.StateDb.Receipts
import Kei.StateDb.Statements

/-!
# Kei.StateDb.Atomic

What an operation of the store leaves when one of its statements fails.

The operations that run in a transaction, or write with one statement, take
effect as a whole or not at all.  Completed downloads, metadata refreshes and
retries write with several statements on the connection: `StoreOp.Splits` says
which failures leave a part of their effect, and `storeOp_atomic_iff` that no
other does.
-/

namespace Kei.StateDb

open Sql

variable {host : Host} {s : StateTables}

/-! ## capture revisions -/

/-- The library's progress towards the revision is counted. -/
def StateTables.CountsTowards (s : StateTables) (library : String) (revision : Int) : Prop :=
  ∃ m ∈ s.captureState.rows, m.library = library ∧ m.pendingRevision = some revision

section revision

variable {library assetId : String} {revision updatedAt : Int}

theorem recorded_insertRevision :
    (s.insertRevision library assetId revision updatedAt).recorded library assetId =
      if s.recordsLess library assetId revision then some revision
      else s.recorded library assetId := by
  unfold StateTables.insertRevision StateTables.recordsLess StateTables.recorded
  rw [Table.get?_upsert]
  cases hget : s.captureRevisions.get? (library, assetId) with
  | none => simp
  | some c =>
      by_cases hless : c.revision < revision <;> simp [hless]

theorem insertRevision_of_recorded (h : s.recordsLess library assetId revision = false) :
    s.insertRevision library assetId revision updatedAt = s := by
  unfold StateTables.recordsLess StateTables.recorded at h
  cases hget : s.captureRevisions.get? (library, assetId) with
  | none => simp [hget] at h
  | some c =>
      have hless : ¬c.revision < revision := by simpa [hget] using h
      unfold StateTables.insertRevision
      rw [Table.upsert_eq_self hget (by rw [if_neg hless])]

theorem insertRevision_ne (h : s.recordsLess library assetId revision = true) :
    (s.insertRevision library assetId revision updatedAt).captureRevisions ≠
      s.captureRevisions := by
  intro heq
  have hrecorded := @recorded_insertRevision s library assetId revision updatedAt
  rw [if_pos h] at hrecorded
  have hsame : s.recorded library assetId = some revision := by
    rw [← hrecorded, StateTables.recorded, StateTables.recorded, heq]
  simp [StateTables.recordsLess, hsame] at h

theorem countProcessed_eq_iff :
    s.countProcessed library revision updatedAt = s ↔ ¬s.CountsTowards library revision := by
  have hself : s.countProcessed library revision updatedAt = s ↔
      (s.countProcessed library revision updatedAt).captureState = s.captureState := by
    constructor
    · exact fun h => congrArg StateTables.captureState h
    · intro h
      unfold StateTables.countProcessed at h ⊢
      dsimp only at h
      rw [h]
  rw [hself, StateTables.countProcessed, Table.update_eq_self_iff]
  simp only [Bool.and_eq_true, decide_eq_true_eq, StateTables.CountsTowards]
  constructor
  · rintro h ⟨m, hm, hlibrary, hpending⟩
    have hsame := congrArg MetadataCaptureState.processedAssets (h m hm ⟨hlibrary, hpending⟩)
    simp only at hsame
    omega
  · intro h m hm hp
    exact absurd ⟨m, hm, hp.1, hp.2⟩ h

theorem run_recordRevision :
    ((recordMetadataCaptureRevision library assetId revision updatedAt).run none s).2.2 =
      if s.recordsLess library assetId revision then
        (s.insertRevision library assetId revision updatedAt).countProcessed library revision
          updatedAt
      else s := by
  simp only [recordMetadataCaptureRevision, run_execute_none]
  cases h : s.recordsLess library assetId revision with
  | true => simp
  | false => simp [insertRevision_of_recorded h]

/-- The statement after `n` others fails while a revision is recorded. -/
theorem run_recordRevision_burnt (n : Nat) :
    ((recordMetadataCaptureRevision library assetId revision updatedAt).run (some n) s).2.2 =
      match n with
      | 0 => s
      | 1 => s.insertRevision library assetId revision updatedAt
      | _ =>
          ((recordMetadataCaptureRevision library assetId revision updatedAt).run none
            s).2.2 := by
  rw [run_recordRevision]
  cases h : s.recordsLess library assetId revision with
  | true =>
      rcases n with - | - | n <;> simp [recordMetadataCaptureRevision, h]
  | false =>
      rcases n with - | - | n <;>
        simp [recordMetadataCaptureRevision, h, insertRevision_of_recorded h]

/-- The run that fails after `n` statements of recording a revision leaves neither what was there
nor what it is to leave. -/
theorem recordRevision_splits (n : Nat) :
    ((recordMetadataCaptureRevision library assetId revision updatedAt).run (some n) s).2.2 =
        ((recordMetadataCaptureRevision library assetId revision updatedAt).run none s).2.2 ↔
      ¬(s.recordsLess library assetId revision = true ∧
        (n = 0 ∨ n = 1 ∧ s.CountsTowards library revision)) := by
  rw [run_recordRevision_burnt, run_recordRevision]
  have hcounts : (s.insertRevision library assetId revision updatedAt).CountsTowards library
      revision ↔ s.CountsTowards library revision := Iff.rfl
  cases h : s.recordsLess library assetId revision with
  | false => rcases n with - | - | n <;> simp [insertRevision_of_recorded h]
  | true =>
      rcases n with - | - | n
      · have hne : s ≠ (s.insertRevision library assetId revision updatedAt).countProcessed library
            revision updatedAt := by
          intro heq
          have hrevisions : (s.insertRevision library assetId revision updatedAt).captureRevisions =
              s.captureRevisions := (congrArg StateTables.captureRevisions heq).symm
          exact insertRevision_ne h hrevisions
        simpa using hne
      · rw [eq_comm]
        simp [countProcessed_eq_iff, hcounts]
      · simp

end revision

/-! ## what a failure can split -/

/-- The row does not hold this download yet. -/
def DownloadChanges (s : StateTables) (library id versionSize localPath localChecksum : String)
    (downloadChecksum : Option String) (markCaptureRepair : Bool) (downloadedAt : Int) : Prop :=
  ∃ r ∈ s.db.assets.rows, r.isVersion library id versionSize = true ∧
    (r.downloadedAs localPath localChecksum downloadChecksum markCaptureRepair ≠ r ∨
      s.downloadedAt r.key ≠ some downloadedAt)

/-- A failure after `n` statements of a refresh leaves a part of its effect: new metadata without
the revision, or the revision without the progress. -/
def RefreshSplits (host : Host) (s : StateTables) (n : Nat) (library assetId : String)
    (metadata : AssetMetadata) (markForRewrite markCaptureRepair : Bool)
    (captureRevision rewriteAt : Int) : Prop :=
  let metadata := metadata.withHash host
  let reaches := refreshReaches library assetId metadata.metadataHash s.db.assets
  s.recordsLess library assetId captureRevision = true ∧
    (n = 1 ∧ (∃ r ∈ s.db.assets.rows, reaches r = true ∧
        r.refreshed metadata markForRewrite markCaptureRepair rewriteAt ≠ r) ∨
      n = 2 ∧ (∃ r ∈ s.db.assets.rows, reaches r = true) ∧
        s.CountsTowards library captureRevision ∨
      n = 3 ∧ (∀ r ∈ s.db.assets.rows, reaches r = false) ∧
        0 < durableRows library assetId metadata.metadataHash s.db.assets ∧
        s.CountsTowards library captureRevision)

/-- With the failure after `n` statements, a part of the effect stays. -/
def StoreOp.Splits (s : StateTables) (n : Nat) : StoreOp host → Prop
  | .markDownloaded library id versionSize localPath localChecksum downloadChecksum
      markCaptureRepair downloadedAt =>
      s.recordsLess library id metadataCaptureRevision = true ∧
        (n = 1 ∧ DownloadChanges s library id versionSize localPath localChecksum downloadChecksum
            markCaptureRepair downloadedAt ∨
          n = 2 ∧ (∃ r ∈ s.db.assets.rows, r.isVersion library id versionSize = true) ∧
            s.CountsTowards library metadataCaptureRevision)
  | .refreshDownloadedAssetMetadata library assetId metadata markForRewrite markCaptureRepair
      captureRevision now =>
      RefreshSplits host s n library assetId metadata.1 markForRewrite markCaptureRepair
        captureRevision now
  | .prepareForRetry library _ =>
      n = 1 ∧ (∃ r ∈ s.db.assets.rows, isFailedRetry library r = true) ∧
        ∃ r ∈ s.db.assets.rows, isPendingRetry library r = true
  | _ => False

/-! ## downloads and metadata -/

/-- A statement on the asset rows, then the revision: what a failure among them leaves. -/
theorem atomic_of_recorded {library assetId : String} {revision updatedAt : Int}
    {s' : StateTables} {n : Nat} (hrevisions : s'.captureRevisions = s.captureRevisions)
    (hstate : s'.captureState = s.captureState) :
    (((recordMetadataCaptureRevision library assetId revision updatedAt).run (some n) s').2.2 = s ∨
      ((recordMetadataCaptureRevision library assetId revision updatedAt).run (some n) s').2.2 =
        ((recordMetadataCaptureRevision library assetId revision updatedAt).run none s').2.2) ↔
      ¬(s.recordsLess library assetId revision = true ∧
        (n = 0 ∧ s' ≠ s ∨ n = 1 ∧ s.CountsTowards library revision)) := by
  have hless : s'.recordsLess library assetId revision =
      s.recordsLess library assetId revision := by
    simp [StateTables.recordsLess, StateTables.recorded, hrevisions]
  have hcounts : s'.CountsTowards library revision ↔ s.CountsTowards library revision := by
    simp [StateTables.CountsTowards, hstate]
  rw [recordRevision_splits, hless, hcounts]
  cases h : s.recordsLess library assetId revision with
  | false => simp
  | true =>
      rcases n with - | - | n
      · simp [run_recordRevision_burnt]
      · have hne : s'.insertRevision library assetId revision updatedAt ≠ s := by
          intro heq
          have hsame : (s'.insertRevision library assetId revision updatedAt).captureRevisions =
              s'.captureRevisions := by rw [heq, hrevisions]
          exact insertRevision_ne (hless.trans h) hsame
        simp [run_recordRevision_burnt, hne]
      · simp

theorem modifyAssets_eq_iff {f : AssetTable → AssetTable} :
    s.modifyAssets f = s ↔ f s.db.assets = s.db.assets := by
  constructor
  · exact fun h => congrArg (fun s => s.db.assets) h
  · intro h
    unfold StateTables.modifyAssets
    rw [h]

section download

variable {library id versionSize localPath localChecksum : String}
  {downloadChecksum : Option String} {markCaptureRepair : Bool} {downloadedAt : Int}

theorem updateStatus_eq_iff {t : AssetTable} :
    updateStatusToDownloaded library id versionSize localPath localChecksum downloadChecksum
        markCaptureRepair t = t ↔
      ∀ r ∈ t.rows, r.isVersion library id versionSize = true →
        r.downloadedAs localPath localChecksum downloadChecksum markCaptureRepair = r :=
  Table.update_eq_self_iff

theorem download_eq_iff :
    s.download library id versionSize localPath localChecksum downloadChecksum markCaptureRepair
        downloadedAt = s ↔
      ¬DownloadChanges s library id versionSize localPath localChecksum downloadChecksum
        markCaptureRepair downloadedAt := by
  have hparts : s.download library id versionSize localPath localChecksum downloadChecksum
      markCaptureRepair downloadedAt = s ↔
      updateStatusToDownloaded library id versionSize localPath localChecksum downloadChecksum
          markCaptureRepair s.db.assets = s.db.assets ∧
        ∀ r ∈ s.db.assets.rows, r.key = ⟨library, id, versionSize⟩ →
          s.downloadedAt r.key = some downloadedAt := by
    constructor
    · intro h
      refine ⟨congrArg (fun s => s.db.assets) h, fun r hr hkey => ?_⟩
      have hcolumn := congrFun (congrArg StateTables.downloadedAt h) r.key
      have hcount : 0 < s.db.assets.count (fun r' => r'.key = r.key) :=
        List.countP_pos_iff.mpr ⟨r, hr, by simp⟩
      rw [← hcolumn]
      show (if r.key = _ ∧ 0 < s.db.assets.count (fun r' => r'.key = r.key) then _ else _) = _
      rw [if_pos ⟨hkey, hcount⟩]
    · rintro ⟨hassets, hcolumn⟩
      have hsame : (fun key => if key = ⟨library, id, versionSize⟩ ∧
          0 < s.db.assets.count (fun r => r.key = key) then some downloadedAt
          else s.downloadedAt key) = s.downloadedAt := by
        funext key
        split
        · next hkey =>
            obtain ⟨r, hr, hrkey⟩ := List.countP_pos_iff.mp hkey.2
            have hrkey : r.key = key := of_decide_eq_true hrkey
            rw [← hcolumn r hr (hrkey.trans hkey.1), hrkey]
        · rfl
      unfold StateTables.download StateTables.modifyAssets
      rw [hassets, hsame]
  rw [hparts, updateStatus_eq_iff]
  simp only [DownloadChanges, AssetRow.isVersion, decide_eq_true_eq, not_exists, not_and, not_or,
    not_not]
  exact ⟨fun h r hr hkey => ⟨h.1 r hr hkey, h.2 r hr hkey⟩,
    fun h => ⟨fun r hr hkey => (h r hr hkey).1, fun r hr hkey => (h r hr hkey).2⟩⟩

theorem count_eq_zero {t : AssetTable} {p : AssetRow → Bool} :
    t.count p = 0 ↔ ¬∃ r ∈ t.rows, p r = true := by
  simp [Table.count, List.countP_eq_zero]

theorem markDownloaded_atomic_iff (n : Nat) :
    Atomic (inConnection (markDownloaded library id versionSize localPath localChecksum
      downloadChecksum markCaptureRepair downloadedAt)) n s ↔
      ¬(StoreOp.markDownloaded library id versionSize localPath localChecksum downloadChecksum
        markCaptureRepair downloadedAt : StoreOp host).Splits s n := by
  rcases n with - | n
  · simp [Atomic, inConnection, markDownloaded, StoreOp.Splits]
  · simp only [Atomic, inConnection, markDownloaded, run_execute_succ, run_execute_none]
    by_cases hrows : s.db.assets.count (AssetRow.isVersion library id versionSize) = 0
    · have hnone := count_eq_zero.mp hrows
      have hchanges : ¬DownloadChanges s library id versionSize localPath localChecksum
          downloadChecksum markCaptureRepair downloadedAt := by
        rintro ⟨r, hr, hversion, -⟩
        exact hnone ⟨r, hr, hversion⟩
      simp [hrows, StoreOp.Splits, hchanges, hnone]
    · have hsome : ∃ r ∈ s.db.assets.rows, r.isVersion library id versionSize = true := by
        by_contra hnone
        exact hrows (count_eq_zero.mpr hnone)
      have hrecorded := @atomic_of_recorded s library id metadataCaptureRevision downloadedAt
        (s.download library id versionSize localPath localChecksum downloadChecksum
          markCaptureRepair downloadedAt) n rfl rfl
      rw [if_neg hrows, hrecorded, ne_eq, download_eq_iff, not_not]
      simp [StoreOp.Splits, hsome]

end download

/-! ## new metadata -/

section refresh

variable {library assetId : String} {metadata : AssetMetadata}
  {markForRewrite markCaptureRepair : Bool} {captureRevision rewriteAt : Int}

theorem refresh_eq_iff {t : AssetTable} :
    refreshDownloadedAssetMetadata host library assetId metadata markForRewrite markCaptureRepair
        rewriteAt t = t ↔
      ∀ r ∈ t.rows,
        refreshReaches library assetId (metadata.withHash host).metadataHash t r = true →
        r.refreshed (metadata.withHash host) markForRewrite markCaptureRepair rewriteAt = r :=
  @Table.update_eq_self_iff _ _ _ t _
    (AssetRow.refreshed (metadata.withHash host) markForRewrite markCaptureRepair rewriteAt)
    (fun _ => rfl)

theorem refreshMetadata_atomic_iff (n : Nat) :
    Atomic (inConnection (refreshMetadata host library assetId metadata markForRewrite
      markCaptureRepair captureRevision rewriteAt)) n s ↔
      ¬RefreshSplits host s n library assetId metadata markForRewrite markCaptureRepair
        captureRevision rewriteAt := by
  rcases n with - | n
  · simp [Atomic, inConnection, refreshMetadata, RefreshSplits]
  · simp only [Atomic, inConnection, refreshMetadata, run_execute_succ, run_execute_none]
    by_cases hreached : ∃ r ∈ s.db.assets.rows, refreshReaches library assetId
        (metadata.withHash host).metadataHash s.db.assets r = true
    · have hcount : 0 < s.db.assets.count (refreshReaches library assetId
          (metadata.withHash host).metadataHash s.db.assets) :=
        Nat.pos_of_ne_zero (fun h => count_eq_zero.mp h hreached)
      have hrecorded := @atomic_of_recorded s library assetId captureRevision rewriteAt
        (s.modifyAssets (refreshDownloadedAssetMetadata host library assetId metadata
          markForRewrite markCaptureRepair rewriteAt)) n rfl rfl
      rw [if_pos hcount, run_bind_pure, run_bind_pure, hrecorded, ne_eq, modifyAssets_eq_iff,
        refresh_eq_iff]
      have hsome : ¬∀ r ∈ s.db.assets.rows, refreshReaches library assetId
          (metadata.withHash host).metadataHash s.db.assets r = false := by
        simpa using hreached
      simp [RefreshSplits, hreached, hsome]
    · have hnone : ∀ r ∈ s.db.assets.rows, refreshReaches library assetId
          (metadata.withHash host).metadataHash s.db.assets r = false := by
        simpa using hreached
      have hsame : s.modifyAssets (refreshDownloadedAssetMetadata host library assetId metadata
          markForRewrite markCaptureRepair rewriteAt) = s :=
        modifyAssets_eq_iff.mpr (refresh_eq_iff.mpr
          (fun r hr hr' => absurd ⟨r, hr, hr'⟩ hreached))
      have hcount : ¬0 < s.db.assets.count (refreshReaches library assetId
          (metadata.withHash host).metadataHash s.db.assets) := by
        rw [count_eq_zero.mpr hreached]
        exact Nat.lt_irrefl 0
      rw [if_neg hcount, hsame]
      have hchanged : ¬∃ r ∈ s.db.assets.rows, refreshReaches library assetId
          (metadata.withHash host).metadataHash s.db.assets r = true ∧
          r.refreshed (metadata.withHash host) markForRewrite markCaptureRepair rewriteAt ≠ r := by
        rintro ⟨r, hr, hr', -⟩
        exact hreached ⟨r, hr, hr'⟩
      rcases n with - | n
      · simp only [RefreshSplits, hreached, hchanged]
        simp
      · simp only [run_query_succ, run_query_none]
        by_cases hdurable : 0 < durableRows library assetId (metadata.withHash host).metadataHash
            s.db.assets
        · have hrecorded := @atomic_of_recorded s library assetId captureRevision rewriteAt s n
            rfl rfl
          rw [if_pos hdurable, run_bind_pure, run_bind_pure, hrecorded]
          simp only [RefreshSplits, hreached, hchanged, eq_true hnone]
          simp [hdurable]
        · rw [if_neg hdurable]
          simp [RefreshSplits, hreached, hdurable]

end refresh

/-! ## retries -/

theorem isPendingRetry_retryFailed {library : Option String} {retention : RetryErrorRetention}
    {t : AssetTable} :
    (∃ r ∈ (retryFailed library retention t).rows, isPendingRetry library r = true) ↔
      ∃ r ∈ t.rows, isPendingRetry library r = true := by
  unfold retryFailed
  constructor
  · rintro ⟨r', hr', hpending⟩
    obtain ⟨r, hr, rfl⟩ := Table.mem_update.mp hr'
    split at hpending
    · simp [isPendingRetry, AssetRow.retried] at hpending
    · exact ⟨r, hr, hpending⟩
  · rintro ⟨r, hr, hpending⟩
    refine ⟨r, Table.mem_update.mpr ⟨r, hr, ?_⟩, hpending⟩
    have hfailed : isFailedRetry library r = false := by
      simp only [isPendingRetry, Bool.and_eq_true, decide_eq_true_eq] at hpending
      simp [isFailedRetry, hpending.1.1]
    rw [hfailed, if_neg Bool.false_ne_true]

theorem retryFailed_eq_iff {library : Option String} {retention : RetryErrorRetention}
    {t : AssetTable} :
    retryFailed library retention t = t ↔ ¬∃ r ∈ t.rows, isFailedRetry library r = true := by
  refine Table.update_eq_self_iff_of_ne (fun r hfailed h => ?_)
  have hstatus := congrArg (fun r => r.status) h
  simp only [isFailedRetry, Bool.and_eq_true, decide_eq_true_eq] at hfailed
  simp [AssetRow.retried, hfailed.1] at hstatus

theorem retryPending_eq_iff {library : Option String} {retention : RetryErrorRetention}
    {t : AssetTable} :
    retryPending library retention t = t ↔ ¬∃ r ∈ t.rows, isPendingRetry library r = true := by
  refine Table.update_eq_self_iff_of_ne (fun r hpending h => ?_)
  have hattempts := congrArg (fun r => r.downloadAttempts) h
  simp only [isPendingRetry, Bool.and_eq_true, decide_eq_true_eq] at hpending
  simp only [AssetRow.restarted] at hattempts
  omega

theorem prepareForRetry_atomic_iff (library : Option String) (retention : RetryErrorRetention)
    (n : Nat) :
    Atomic (inConnection (prepareForRetryStatements library retention)) n s ↔
      ¬(StoreOp.prepareForRetry library retention : StoreOp host).Splits s n := by
  rcases n with - | - | n
  · simp [Atomic, inConnection, prepareForRetryStatements, StoreOp.Splits]
  · simp only [Atomic, inConnection, prepareForRetryStatements, run_execute_succ,
      run_execute_burnt, run_execute_none, run_query_none, run_pure, StoreOp.Splits]
    rw [modifyAssets_eq_iff, retryFailed_eq_iff, eq_comm (b := StateTables.modifyAssets _ _),
      modifyAssets_eq_iff, retryPending_eq_iff]
    have hsame := @isPendingRetry_retryFailed library retention s.db.assets
    simp only [StateTables.modifyAssets, hsame, true_and, not_and_or]
  · rcases n with - | n <;>
      simp [Atomic, inConnection, prepareForRetryStatements, StoreOp.Splits]

/-! ## source deletions -/

theorem markDeleted_atomic (operation : String) (p : StateTables → AssetRow → Bool)
    (deletedAt : Option Int) (n : Nat) :
    Atomic (inConnection (markDeletedStatements operation p deletedAt)) n s := by
  simp only [Atomic, inConnection, markDeletedStatements, ensureNoPreparedCaptureRepair]
  rcases n with - | n
  · simp
  · rw [bind_assoc, run_query_succ, run_query_none]
    split
    · simp
    · rcases n with - | n <;> simp

/-! ## all operations -/

/-- **When an operation is atomic**: with one statement failing, the tables are as before or as
after the whole operation, exactly if the failure does not split it. -/
theorem storeOp_atomic_iff (op : StoreOp host) (n : Nat) (s : StateTables) :
    Atomic op.run n s ↔ ¬op.Splits s n := by
  cases op with
  | markDownloaded library id versionSize localPath localChecksum downloadChecksum
      markCaptureRepair downloadedAt => exact markDownloaded_atomic_iff n
  | refreshDownloadedAssetMetadata library assetId metadata markForRewrite markCaptureRepair
      captureRevision now => exact refreshMetadata_atomic_iff n
  | prepareForRetry library retention => exact prepareForRetry_atomic_iff library retention n
  | startAlbumMembershipSnapshot library containerId enumConfigHash now =>
      exact iff_of_true (inTransaction_atomic _
        (startSnapshotStatements library containerId enumConfigHash now) n s) not_false
  | addAlbumMembershipToSnapshot library containerId generation assetRecordName masterRecordName
      source now =>
      exact iff_of_true (inTransaction_atomic _
        (addMembershipStatements library containerId generation assetRecordName masterRecordName
          source now) n s) not_false
  | upsertAlbumMembershipDelta library containerId assetRecordName masterRecordName source now =>
      exact iff_of_true (inTransaction_atomic _
        (relationDeltaStatements _ _ library containerId (fun db =>
          (upsertAlbumMembershipDelta library containerId assetRecordName masterRecordName source
            now db).2)) n s) not_false
  | markAlbumMembershipDeleted library containerId assetRecordName now =>
      exact iff_of_true (inTransaction_atomic _
        (relationDeltaStatements _ _ library containerId (fun db =>
          (markAlbumMembershipDeleted library containerId assetRecordName now db).2)) n s) not_false
  | completeAlbumMembershipSnapshot library containerId generation now =>
      exact iff_of_true (inTransaction_atomic _
        (completeSnapshotStatements library containerId generation now) n s) not_false
  | invalidateAlbumMembershipSnapshot library containerId now =>
      exact iff_of_true (execute_atomic _ (fun s : StateTables => s.modifyMemberships
        (invalidateAlbumMembershipSnapshot library containerId now)) (fun _ => ()) n s) not_false
  | markSoftDeleted library assetId deletedAt =>
      exact iff_of_true (markDeleted_atomic _ (ofAsset library assetId) deletedAt n) not_false
  | resolveSourceDeleted library assetId deletedAt =>
      exact iff_of_true (inTransaction_atomic _
        (resolveDeletedStatements _ (ofAsset library assetId) (keyOfAsset library assetId)
          deletedAt) n s) not_false
  | markMasterFamilySoftDeleted library masterRecordName deletedAt =>
      exact iff_of_true (markDeleted_atomic _ (ofFamily library masterRecordName) deletedAt n)
        not_false
  | resolveMasterFamilySourceDeleted library masterRecordName deletedAt =>
      exact iff_of_true (inTransaction_atomic _
        (resolveDeletedStatements _ (ofFamily library masterRecordName)
          (keyOfFamily library masterRecordName) deletedAt) n s) not_false

/-! ## a download without its revision -/

/-- The store of a database, with nothing captured. -/
def StateTables.ofDb (db : SqliteStateDb) : StateTables :=
  ⟨db, fun _ => none, .empty, .empty, .empty⟩

/-- The asset was seen and waits for its download. -/
def seenTables : StateTables :=
  .ofDb (runOps .empty [
    (.upsertSeen ⟨plainRecord "original" plainMetadata, plainRecord_hashed "original"⟩ 1 :
      Op plainHost)])

def downloadSeen : StoreOp plainHost :=
  .markDownloaded "PrimarySync" "a" "original" "/a" "s" none false 2

/-- The statement after the first one fails: the row is downloaded, the revision is not recorded. -/
theorem download_not_atomic : ¬Atomic downloadSeen.run 1 seenTables := by
  have hchanges :
      DownloadChanges seenTables "PrimarySync" "a" "original" "/a" "s" none false 2 := by
    unfold DownloadChanges
    decide +kernel
  have hsplits : downloadSeen.Splits seenTables 1 :=
    ⟨by decide +kernel, .inl ⟨rfl, hchanges⟩⟩
  exact fun h => (markDownloaded_atomic_iff 1).mp h hsplits

end Kei.StateDb
