import Kei.StateDb.Atomic
import Kei.StateDb.Deleted
import Mathlib.Data.List.Dedup

/-!
# Kei.StateDb.Capture

The revisions that the metadata of downloaded assets was captured at.

The store records one revision for an asset, and the metadata is in its
version rows.  `CaptureStore.capturedAt` says what the store does not: the
revision of the capture that wrote a row's metadata.  The record is sound when
every downloaded row of the asset is at least that new.
-/

namespace Kei.StateDb

open Sql

/-! ## progress of a library -/

structure MetadataCaptureStatus where
  activeRevision : Int
  pendingRevision : Option Int
  processedAssets : Nat
  failedAssets : Nat
  remainingAssets : Nat
  lastError : Option String
  deriving DecidableEq

/-- The row needs a capture at the revision. -/
def StateTables.isStale (s : StateTables) (library : String) (targetRevision : Int)
    (r : AssetRow) : Bool :=
  r.library = library && r.isLiveDownload && s.recordsLess library r.id targetRevision

/-- The number of assets with such a row. -/
def metadataCaptureRemaining (library : String) (targetRevision : Int) (s : StateTables) : Nat :=
  ((s.db.assets.rows.filter (s.isStale library targetRevision)).map (·.id)).dedup.length

def metadataCaptureStatus (library : String) (targetRevision : Int) (remainingAssets : Nat)
    (s : StateTables) : MetadataCaptureStatus :=
  match s.captureState.get? library with
  | some m =>
      ⟨m.activeRevision, m.pendingRevision, m.processedAssets.toNat, m.failedAssets.toNat,
        remainingAssets, m.lastError⟩
  | none =>
      if 0 < remainingAssets then ⟨0, some targetRevision, 0, 0, remainingAssets, none⟩
      else ⟨targetRevision, none, 0, 0, remainingAssets, none⟩

/-- The row that `begin_metadata_capture_revision` writes. -/
def begunState (existing : Option MetadataCaptureState) (library : String)
    (targetRevision : Int) (remaining : Nat) (now : Int) : MetadataCaptureState :=
  let old := existing.getD ⟨library, 0, none, 0, 0, none, now⟩
  if remaining = 0 then
    { old with
      library := library, activeRevision := max old.activeRevision targetRevision,
      pendingRevision := none, updatedAt := now }
  else if old.pendingRevision ≠ some targetRevision then
    { old with
      library := library, pendingRevision := some targetRevision, processedAssets := 0,
      failedAssets := 0, lastError := none, updatedAt := now }
  else
    { old with library := library, updatedAt := now }

def beginMetadataCaptureRevision (library : String) (targetRevision now : Int) :
    StateSql MetadataCaptureStatus := do
  let remaining ← query "metadata_capture_remaining"
    (metadataCaptureRemaining library targetRevision)
  let existing ← query "begin_metadata_capture_revision::read"
    (fun s : StateTables => s.captureState.get? library)
  let row := begunState existing library targetRevision remaining now
  execute "begin_metadata_capture_revision::write"
    (fun s : StateTables => { s with
      captureState := s.captureState.upsert row (fun m => { row with library := m.library })
        (fun _ => rfl) })
    (fun _ => ())
  return ⟨row.activeRevision, row.pendingRevision, row.processedAssets.toNat,
    row.failedAssets.toNat, remaining, row.lastError⟩

def completeMetadataCaptureRevision (library : String) (targetRevision now : Int) :
    StateSql MetadataCaptureStatus := do
  let remaining ← query "metadata_capture_remaining"
    (metadataCaptureRemaining library targetRevision)
  if remaining = 0 then
    execute "complete_metadata_capture_revision::write"
      (fun s : StateTables => { s with
        captureState := s.captureState.update (fun m => m.library = library)
          (fun m => { m with
            activeRevision := max m.activeRevision targetRevision, pendingRevision := none,
            failedAssets := 0, lastError := none, updatedAt := now })
          (fun _ => rfl) })
      (fun _ => ())
  query "metadata_capture_status" (metadataCaptureStatus library targetRevision remaining)

/-! ## runs -/

structure CaptureStore where
  tables : StateTables
  /-- The revision of the capture that wrote a row's metadata. -/
  capturedAt : Key → Int

inductive CaptureOp (host : Host) where
  | upsertSeen (record : SeenRecord host) (now : Int)
  | markDownloaded (library id versionSize localPath localChecksum : String)
      (downloadChecksum : Option String) (markCaptureRepair : Bool) (downloadedAt : Int)
  | refresh (library assetId : String) (metadata : SeenMetadata host)
      (markForRewrite markCaptureRepair : Bool) (captureRevision now : Int)
  | begin (library : String) (targetRevision now : Int)
  | complete (library : String) (targetRevision now : Int)

variable {host : Host}

/-- The row is one that the refresh writes. -/
def RefreshWrites (host : Host) (library assetId : String) (metadata : AssetMetadata)
    (t : AssetTable) (key : Key) : Prop :=
  ∃ r ∈ t.rows, r.key = key ∧
    refreshReaches library assetId (metadata.withHash host).metadataHash t r = true

instance (library assetId : String) (metadata : AssetMetadata) (t : AssetTable) (key : Key) :
    Decidable (RefreshWrites host library assetId metadata t key) :=
  inferInstanceAs (Decidable (∃ r ∈ t.rows, _ ∧ _))

def CaptureOp.apply (s : CaptureStore) : CaptureOp host → CaptureStore
  | .upsertSeen record now =>
      { tables := { s.tables with db := Op.apply s.tables.db (.upsertSeen record now) },
        capturedAt :=
          if upsertBlocked host record.1 s.tables.db.assets then s.capturedAt
          else Function.update s.capturedAt record.1.key metadataCaptureRevision }
  | .markDownloaded library id versionSize localPath localChecksum downloadChecksum
      markCaptureRepair downloadedAt =>
      { s with tables := (inConnection (StateDb.markDownloaded library id versionSize localPath
          localChecksum downloadChecksum markCaptureRepair downloadedAt) none s.tables).2 }
  | .refresh library assetId metadata markForRewrite markCaptureRepair captureRevision now =>
      { tables := (inConnection (refreshMetadata host library assetId metadata.1 markForRewrite
          markCaptureRepair captureRevision now) none s.tables).2,
        capturedAt := fun key =>
          if RefreshWrites host library assetId metadata.1 s.tables.db.assets key then
            captureRevision
          else s.capturedAt key }
  | .begin library targetRevision now =>
      { s with tables := (inTransaction "begin_metadata_capture_revision"
          (beginMetadataCaptureRevision library targetRevision now) none s.tables).2 }
  | .complete library targetRevision now =>
      { s with tables := (inTransaction "complete_metadata_capture_revision"
          (completeMetadataCaptureRevision library targetRevision now) none s.tables).2 }

def CaptureOp.runAll (s : CaptureStore) (ops : List (CaptureOp host)) : CaptureStore :=
  ops.foldl CaptureOp.apply s

/-- The downloaded rows of an asset are at least as new as its recorded revision. -/
def CaptureStore.Sound (s : CaptureStore) : Prop :=
  ∀ library id revision, s.tables.recorded library id = some revision →
    ∀ r ∈ s.tables.db.assets.rows, r.isAsset library id = true → r.isLiveDownload = true →
      revision ≤ s.capturedAt r.key

def CaptureStore.activeRevision (s : CaptureStore) (library : String) : Option Int :=
  (s.tables.captureState.get? library).map (·.activeRevision)

/-! ## the recorded revision -/

section recorded

variable {s : StateTables} {library assetId : String} {revision updatedAt : Int}

/-- What is recorded after `revision` was. -/
def laterRevision (old : Option Int) (revision : Int) : Int := old.elim revision (max · revision)

theorem recorded_insertRevision_other {library' assetId' : String}
    (h : (library, assetId) ≠ (library', assetId')) :
    (s.insertRevision library assetId revision updatedAt).recorded library' assetId' =
      s.recorded library' assetId' := by
  unfold StateTables.insertRevision StateTables.recorded
  rw [Table.get?_upsert, if_neg h]

theorem recorded_recordRevision (library' assetId' : String) :
    ((recordMetadataCaptureRevision library assetId revision updatedAt).run none
        s).2.2.recorded library' assetId' =
      if (library, assetId) = (library', assetId') then
        some (laterRevision (s.recorded library assetId) revision)
      else s.recorded library' assetId' := by
  have hcounted : (((recordMetadataCaptureRevision library assetId revision updatedAt).run none
      s).2.2).recorded library' assetId' =
      (s.insertRevision library assetId revision updatedAt).recorded library' assetId' := by
    rw [run_recordRevision]
    cases hless : s.recordsLess library assetId revision with
    | true => rfl
    | false => simp [insertRevision_of_recorded hless]
  rw [hcounted]
  split
  · next heq =>
      cases heq
      rw [recorded_insertRevision]
      unfold StateTables.recordsLess laterRevision
      cases s.recorded library assetId with
      | none => simp
      | some r =>
          by_cases hless : r < revision
          · simp only [Option.all_some, hless, decide_true, if_true, Option.elim_some]
            have hmax : max r revision = revision := by omega
            rw [hmax]
          · simp only [Option.all_some, hless, decide_false, Option.elim_some]
            have hmax : max r revision = r := by omega
            rw [hmax, if_neg Bool.false_ne_true]
  · next hne => exact recorded_insertRevision_other hne

end recorded

/-! ## one operation -/

/-- The operation records no revision that a downloaded row of the asset falls short of. -/
def CaptureOp.Honest (s : CaptureStore) : CaptureOp host → Prop
  | .upsertSeen record _ =>
      -- a downloaded row is seen again by a binary that is older than the record
      upsertBlocked host record.1 s.tables.db.assets = false →
        record.1.metadata.isDeleted = false →
        ∀ r ∈ s.tables.db.assets.rows, r.key = record.1.key → r.status = .downloaded →
          r.checksum = record.1.checksum →
          ∀ revision, s.tables.recorded record.1.library record.1.id = some revision →
            revision ≤ metadataCaptureRevision
  | .markDownloaded library id versionSize _ _ _ _ _ =>
      -- another downloaded version, or this one, has older metadata
      (∃ r ∈ s.tables.db.assets.rows, r.isVersion library id versionSize = true) →
        ∀ r ∈ s.tables.db.assets.rows, r.isAsset library id = true →
          r.metadata.isDeleted = false → r.status = .downloaded ∨ r.versionSize = versionSize →
          laterRevision (s.tables.recorded library id) metadataCaptureRevision ≤ s.capturedAt r.key
  | .refresh library assetId metadata _ _ captureRevision _ =>
      -- the new metadata is older than the record
      (∃ key, RefreshWrites host library assetId metadata.1 s.tables.db.assets key) →
        metadata.1.isDeleted = false →
        ∀ revision, s.tables.recorded library assetId = some revision → revision ≤ captureRevision
  | .begin _ _ _ => True
  | .complete _ _ _ => True

variable {s : CaptureStore}

theorem laterRevision_le {old : Option Int} {revision bound : Int} :
    laterRevision old revision ≤ bound ↔
      revision ≤ bound ∧ ∀ r, old = some r → r ≤ bound := by
  cases old with
  | none => simp [laterRevision]
  | some r =>
      simp only [laterRevision, Option.elim_some, Option.some.injEq, forall_eq']
      omega

theorem markDownloaded_tables {library id versionSize localPath localChecksum : String}
    {downloadChecksum : Option String} {markCaptureRepair : Bool} {downloadedAt : Int}
    {s : StateTables} (h : ∃ r ∈ s.db.assets.rows, r.isVersion library id versionSize = true) :
    (inConnection (markDownloaded library id versionSize localPath localChecksum downloadChecksum
        markCaptureRepair downloadedAt) none s).2 =
      ((recordMetadataCaptureRevision library id metadataCaptureRevision downloadedAt).run none
        (s.download library id versionSize localPath localChecksum downloadChecksum
          markCaptureRepair downloadedAt)).2.2 := by
  have hrows : s.db.assets.count (AssetRow.isVersion library id versionSize) ≠ 0 :=
    fun hcount => count_eq_zero.mp hcount h
  simp only [inConnection, markDownloaded, run_execute_none, if_neg hrows]

theorem markDownloaded_missing {library id versionSize localPath localChecksum : String}
    {downloadChecksum : Option String} {markCaptureRepair : Bool} {downloadedAt : Int}
    {s : StateTables} (h : ¬∃ r ∈ s.db.assets.rows, r.isVersion library id versionSize = true) :
    (inConnection (markDownloaded library id versionSize localPath localChecksum downloadChecksum
        markCaptureRepair downloadedAt) none s).2 = s := by
  have hsame : s.download library id versionSize localPath localChecksum downloadChecksum
      markCaptureRepair downloadedAt = s :=
    download_eq_iff.mpr (fun ⟨r, hr, hversion, _⟩ => h ⟨r, hr, hversion⟩)
  simp [inConnection, markDownloaded, count_eq_zero.mpr h, hsame]

theorem sound_map {s' : CaptureStore} {g : AssetRow → AssetRow}
    (hrows : s'.tables.db.assets.rows = s.tables.db.assets.rows.map g)
    (hkey : ∀ r, (g r).key = r.key) :
    s'.Sound ↔ ∀ library id revision, s'.tables.recorded library id = some revision →
      ∀ r ∈ s.tables.db.assets.rows, r.isAsset library id = true →
        (g r).isLiveDownload = true → revision ≤ s'.capturedAt r.key := by
  have hasset (r : AssetRow) (library id : String) :
      (g r).isAsset library id = r.isAsset library id := by
    have hcolumns := hkey r
    simp only [AssetRecord.key, Key.mk.injEq] at hcolumns
    simp [AssetRow.isAsset, hcolumns]
  unfold CaptureStore.Sound
  simp only [hrows, List.forall_mem_map, hasset, hkey]

theorem sound_markDownloaded (hsound : s.Sound) (library id versionSize localPath
    localChecksum : String) (downloadChecksum : Option String) (markCaptureRepair : Bool)
    (downloadedAt : Int) :
    let op : CaptureOp host := .markDownloaded library id versionSize localPath localChecksum
      downloadChecksum markCaptureRepair downloadedAt
    (op.apply s).Sound ↔ op.Honest s := by
  intro op
  by_cases hversion : ∃ r ∈ s.tables.db.assets.rows, r.isVersion library id versionSize = true
  · have hrecorded (library' id' : String) : (op.apply s).tables.recorded library' id' =
        if (library, id) = (library', id') then
          some (laterRevision (s.tables.recorded library id) metadataCaptureRevision)
        else s.tables.recorded library' id' := by
      simp only [op, CaptureOp.apply, markDownloaded_tables hversion, recorded_recordRevision]
      rfl
    have hrows : (op.apply s).tables.db.assets.rows = s.tables.db.assets.rows.map (fun r =>
        if r.isVersion library id versionSize then
          r.downloadedAs localPath localChecksum downloadChecksum markCaptureRepair
        else r) := by
      simp only [op, CaptureOp.apply, markDownloaded_tables hversion, (recordRevision_keeps ..).1]
      rfl
    rw [sound_map hrows (fun r => by split <;> rfl)]
    have hlive {r : AssetRow} (hasset : r.isAsset library id = true) :
        (if r.isVersion library id versionSize then
          r.downloadedAs localPath localChecksum downloadChecksum markCaptureRepair
        else r).isLiveDownload = true ↔
          r.metadata.isDeleted = false ∧
            (r.status = .downloaded ∨ r.versionSize = versionSize) := by
      have hsize : r.isVersion library id versionSize = true ↔ r.versionSize = versionSize := by
        obtain ⟨rfl, rfl⟩ := isAsset_iff.mp hasset
        simp [AssetRow.isVersion, AssetRecord.key]
      rw [isLiveDownload_iff]
      split
      · next h => simp [AssetRow.downloadedAs, hsize.mp h]
      · next h =>
          have hother : r.versionSize ≠ versionSize := fun heq => h (hsize.mpr heq)
          simp [hother, and_comm]
    constructor
    · intro h _ r hr hasset hdeleted hkept
      exact h library id _ ((hrecorded library id).trans (if_pos rfl)) r hr hasset
        ((hlive hasset).mpr ⟨hdeleted, hkept⟩)
    · intro h library' id' revision hrevision r hr hasset hkept
      rw [hrecorded] at hrevision
      split at hrevision
      · next heq =>
          cases heq
          cases hrevision
          obtain ⟨hdeleted, hkept⟩ := (hlive hasset).mp hkept
          exact h hversion r hr hasset hdeleted hkept
      · next hne =>
          have hother : r.isVersion library id versionSize = false := by
            refine Bool.eq_false_iff.mpr (fun hkey => hne ?_)
            obtain ⟨rfl, rfl⟩ := isAsset_iff.mp hasset
            have hkey := of_decide_eq_true hkey
            simp only [AssetRecord.key, Key.mk.injEq] at hkey
            rw [hkey.1, hkey.2.1]
          rw [hother, if_neg Bool.false_ne_true] at hkept
          exact hsound library' id' revision hrevision r hr hasset hkept
  · have hsame : op.apply s = s := by
      simp only [op, CaptureOp.apply, markDownloaded_missing hversion]
    rw [hsame]
    exact iff_of_true hsound (fun h => absurd h hversion)

theorem seen_isLiveDownload {record : AssetRecord} {now : Int} {r : AssetRow} :
    (r.seen record (record.metadata.withHash host) now).isLiveDownload = true ↔
      r.status = .downloaded ∧ r.checksum = record.checksum ∧
        record.metadata.isDeleted = false := by
  rw [isLiveDownload_iff]
  simp only [AssetRow.seen, AssetMetadata.withHash]
  split
  · next hpending =>
      have hnot : ¬(r.status = .downloaded ∧ r.checksum = record.checksum) := by
        rintro ⟨hstatus, hchecksum⟩
        rcases hpending with hexcluded | hdiffers
        · simp [hstatus] at hexcluded
        · exact hdiffers hchecksum
      simp only [reduceCtorEq, false_and, false_iff]
      exact fun h => hnot ⟨h.1, h.2.1⟩
  · next hkept =>
      have hchecksum : r.checksum = record.checksum := by
        by_contra hdiffers
        exact hkept (.inr hdiffers)
      simp [hchecksum]

theorem isAsset_of_key {r : AssetRow} {record : AssetRecord} (h : r.key = record.key)
    {library id : String} (hasset : r.isAsset library id = true) :
    library = record.library ∧ id = record.id := by
  obtain ⟨rfl, rfl⟩ := isAsset_iff.mp hasset
  obtain ⟨hlibrary, hid, -⟩ := key_eq_iff.mp h
  exact ⟨hlibrary, hid⟩

theorem sound_upsertSeen (hsound : s.Sound) (record : SeenRecord host) (now : Int) :
    (CaptureOp.apply s (.upsertSeen record now)).Sound ↔
      CaptureOp.Honest s (.upsertSeen record now) := by
  rcases upsertAssetRow_cases host record.1 now s.tables.db.assets with
    ⟨hblocked, herror⟩ | ⟨hopen, t', hok⟩
  · have hsame : CaptureOp.apply s (.upsertSeen record now) = s := by
      simp [CaptureOp.apply, hblocked, Op.apply, Op.run, herror, Bind.bind, Except.bind]
    rw [hsame]
    exact iff_of_true hsound (fun h => absurd h (by simp [hblocked]))
  · have hrows : (CaptureOp.apply s (.upsertSeen record now)).tables.db.assets = t' := by
      simp [CaptureOp.apply, Op.apply, Op.run, hok, Bind.bind, Except.bind, pure, Except.pure]
    have hrecorded (library id : String) :
        (CaptureOp.apply s (.upsertSeen record now)).tables.recorded library id =
          s.tables.recorded library id := rfl
    have hcaptured : (CaptureOp.apply s (.upsertSeen record now)).capturedAt =
        Function.update s.capturedAt record.1.key metadataCaptureRevision := by
      simp [CaptureOp.apply, hopen]
    obtain ⟨rfl, -⟩ := upsertAssetRow_ok hok
    constructor
    · intro h _ hdeleted r hr hkey hstatus hchecksum revision hrevision
      have hmem : r.seen record.1 (record.1.metadata.withHash host) now ∈
          (CaptureOp.apply s (.upsertSeen record now)).tables.db.assets.rows := by
        rw [hrows]
        have hseen := @Table.mem_upsert_of_mem _ _ _ _ s.tables.db.assets
          (seenRow record.1 (record.1.metadata.withHash host) now)
          (AssetRow.seen record.1 (record.1.metadata.withHash host) now) (fun _ => rfl) r hr
        have hnew : r.key = (seenRow record.1 (record.1.metadata.withHash host) now).key := hkey
        rwa [if_pos hnew] at hseen
      obtain ⟨hlibrary, hid, -⟩ := key_eq_iff.mp hkey
      have hnew := h record.1.library record.1.id revision hrevision _ hmem
        (isAsset_iff.mpr ⟨hlibrary, hid⟩) (seen_isLiveDownload.mpr ⟨hstatus, hchecksum, hdeleted⟩)
      have hat : (r.seen record.1 (record.1.metadata.withHash host) now).key = record.1.key := hkey
      rwa [hcaptured, hat, Function.update_self] at hnew
    · intro h library id revision hrevision r hr hasset hlive
      rw [hrecorded] at hrevision
      rw [hrows] at hr
      rw [hcaptured]
      rcases Table.mem_upsert hr with ⟨rfl, -⟩ | ⟨q, hq, hkey, rfl⟩ | ⟨hold, hkey⟩
      · simp [AssetRow.isLiveDownload, seenRow] at hlive
      · have hat : (q.seen record.1 (record.1.metadata.withHash host) now).key = record.1.key :=
          hkey
        obtain ⟨rfl, rfl⟩ := isAsset_of_key hat hasset
        obtain ⟨hstatus, hchecksum, hdeleted⟩ := seen_isLiveDownload.mp hlive
        rw [hat, Function.update_self]
        exact h hopen hdeleted q hq hkey hstatus hchecksum revision hrevision
      · have hother : r.key ≠ record.1.key := hkey
        rw [Function.update_of_ne hother]
        exact hsound library id revision hrevision r hold hasset hlive

section refresh

variable {library assetId : String} {metadata : AssetMetadata}
  {markForRewrite markCaptureRepair : Bool} {captureRevision rewriteAt : Int}

theorem refreshMetadata_tables {s : StateTables} :
    let refreshed := s.modifyAssets (refreshDownloadedAssetMetadata host library assetId metadata
      markForRewrite markCaptureRepair rewriteAt)
    (inConnection (refreshMetadata host library assetId metadata markForRewrite markCaptureRepair
        captureRevision rewriteAt) none s).2 =
      if 0 < s.db.assets.count (refreshReaches library assetId
            (metadata.withHash host).metadataHash s.db.assets) ∨
          0 < durableRows library assetId (metadata.withHash host).metadataHash
            refreshed.db.assets then
        ((recordMetadataCaptureRevision library assetId captureRevision rewriteAt).run none
          refreshed).2.2
      else refreshed := by
  simp only [inConnection, refreshMetadata, run_execute_none]
  split
  · next hreached => rw [if_pos (.inl hreached), run_bind_pure]
  · next hmissed =>
      rw [run_query_none]
      split
      · next hdurable => rw [if_pos (.inr hdurable), run_bind_pure]
      · next hnone => rw [if_neg (by simp [hmissed, hnone]), run_pure]

theorem refreshReaches_iff {metadataHash : Option String} {t : AssetTable} {r : AssetRow} :
    refreshReaches library assetId metadataHash t r = true ↔
      r.isAsset library assetId = true ∧ r.isLiveDownload = true ∧
        refreshBlocked library assetId metadataHash t = false := by
  simp [refreshReaches, and_assoc]

/-- A refresh that finds the metadata in a row and reaches none finds no downloaded row. -/
theorem durableRows_pos {metadataHash : Option String} {t : AssetTable}
    (hmissed : ¬∃ r ∈ t.rows, refreshReaches library assetId metadataHash t r = true)
    (hdurable : 0 < durableRows library assetId metadataHash t) {r : AssetRow} (hr : r ∈ t.rows)
    (hasset : r.isAsset library assetId = true) : r.isLiveDownload = false := by
  obtain ⟨q, -, hq⟩ := List.countP_pos_iff.mp hdurable
  have hopen : refreshBlocked library assetId metadataHash t = false := by
    simp only [Bool.and_eq_true, Bool.not_eq_true'] at hq
    exact hq.2
  by_contra hlive
  exact hmissed ⟨r, hr, refreshReaches_iff.mpr ⟨hasset, by simpa using hlive, hopen⟩⟩

end refresh

theorem sound_refresh (hsound : s.Sound) (library assetId : String) (metadata : SeenMetadata host)
    (markForRewrite markCaptureRepair : Bool) (captureRevision now : Int) :
    (CaptureOp.apply s (.refresh library assetId metadata markForRewrite markCaptureRepair
        captureRevision now)).Sound ↔
      CaptureOp.Honest s (.refresh library assetId metadata markForRewrite markCaptureRepair
        captureRevision now) := by
  set op : CaptureOp host := .refresh library assetId metadata markForRewrite markCaptureRepair
    captureRevision now with hop
  let hash := (metadata.1.withHash host).metadataHash
  let t := s.tables.db.assets
  by_cases hreached : ∃ r ∈ t.rows, refreshReaches library assetId hash t r = true
  · obtain ⟨q, hq, hreach⟩ := hreached
    obtain ⟨-, -, hopen⟩ := refreshReaches_iff.mp hreach
    have hcount : 0 < t.count (refreshReaches library assetId hash t) :=
      List.countP_pos_iff.mpr ⟨q, hq, hreach⟩
    have htables := @refreshMetadata_tables host library assetId metadata.1 markForRewrite
      markCaptureRepair captureRevision now s.tables
    dsimp only at htables
    rw [if_pos (.inl hcount)] at htables
    have hrecorded (library' id' : String) : (op.apply s).tables.recorded library' id' =
        if (library, assetId) = (library', id') then
          some (laterRevision (s.tables.recorded library assetId) captureRevision)
        else s.tables.recorded library' id' := by
      simp only [hop, CaptureOp.apply, htables, recorded_recordRevision]
      rfl
    have hrows : (op.apply s).tables.db.assets.rows = t.rows.map (fun r =>
        if refreshReaches library assetId hash t r then
          r.refreshed (metadata.1.withHash host) markForRewrite markCaptureRepair now
        else r) := by
      simp only [hop, CaptureOp.apply, htables, (recordRevision_keeps ..).1]
      rfl
    have hwrites {r : AssetRow} (hr : r ∈ t.rows) :
        RefreshWrites host library assetId metadata.1 t r.key ↔
          refreshReaches library assetId hash t r = true := by
      constructor
      · rintro ⟨q, hq, hkey, hreach⟩
        rwa [← Table.eq_of_key hq hr hkey]
      · exact fun hreach => ⟨r, hr, rfl, hreach⟩
    rw [sound_map hrows (fun r => by split <;> rfl)]
    have hcaptured (r : AssetRow) : (op.apply s).capturedAt r.key =
        if RefreshWrites host library assetId metadata.1 t r.key then captureRevision
        else s.capturedAt r.key := rfl
    constructor
    · intro h _ hdeleted revision hrevision
      obtain ⟨hasset, hlive, -⟩ := refreshReaches_iff.mp hreach
      have hnew := h library assetId _ ((hrecorded library assetId).trans (if_pos rfl)) q hq hasset
        (by
          rw [if_pos hreach]
          exact isLiveDownload_iff.mpr ⟨(isLiveDownload_iff.mp hlive).1, hdeleted⟩)
      rw [hcaptured, if_pos ((hwrites hq).mpr hreach)] at hnew
      exact (laterRevision_le.mp hnew).2 revision hrevision
    · intro h library' id' revision hrevision r hr hasset hlive
      rw [hrecorded] at hrevision
      rw [hcaptured]
      split at hrevision
      · next heq =>
          cases heq
          cases hrevision
          cases hwritten : refreshReaches library assetId hash t r with
          | true =>
              rw [hwritten, if_pos rfl] at hlive
              rw [if_pos ((hwrites hr).mpr hwritten)]
              have hdeleted : metadata.1.isDeleted = false := (isLiveDownload_iff.mp hlive).2
              exact laterRevision_le.mpr ⟨Int.le_refl _, h ⟨q.key, q, hq, rfl, hreach⟩ hdeleted⟩
          | false =>
              rw [hwritten, if_neg Bool.false_ne_true] at hlive
              rw [refreshReaches_iff.mpr ⟨hasset, hlive, hopen⟩] at hwritten
              cases hwritten
      · next hne =>
          have hother : ¬refreshReaches library assetId hash t r = true := by
            intro hwritten
            obtain ⟨rfl, rfl⟩ := isAsset_iff.mp (refreshReaches_iff.mp hwritten).1
            obtain ⟨rfl, rfl⟩ := isAsset_iff.mp hasset
            exact hne rfl
          rw [if_neg hother] at hlive
          rw [if_neg (fun hwritten => hother ((hwrites hr).mp hwritten))]
          exact hsound library' id' revision hrevision r hr hasset hlive
  · have hnone : ¬∃ key, RefreshWrites host library assetId metadata.1 t key :=
      fun ⟨_, r, hr, _, hreach⟩ => hreached ⟨r, hr, hreach⟩
    have hsame : s.tables.modifyAssets (refreshDownloadedAssetMetadata host library assetId
        metadata.1 markForRewrite markCaptureRepair now) = s.tables :=
      modifyAssets_eq_iff.mpr (refresh_eq_iff.mpr
        (fun r hr hreach => absurd ⟨r, hr, hreach⟩ hreached))
    have htables := @refreshMetadata_tables host library assetId metadata.1 markForRewrite
      markCaptureRepair captureRevision now s.tables
    dsimp only at htables
    rw [hsame] at htables
    have hcaptured : (op.apply s).capturedAt = s.capturedAt := by
      funext key
      exact if_neg (fun hwritten => hnone ⟨key, hwritten⟩)
    refine iff_of_true ?_ (fun h => absurd h hnone)
    split at htables
    · next hcounts =>
        have hdurable : 0 < durableRows library assetId hash t :=
          hcounts.resolve_left (fun h => hreached (List.countP_pos_iff.mp h))
        have hrows : (op.apply s).tables.db = s.tables.db := by
          simp only [hop, CaptureOp.apply, htables, (recordRevision_keeps ..).1]
        intro library' id' revision hrevision r hr hasset hlive
        rw [hrows] at hr
        rw [hcaptured]
        simp only [hop, CaptureOp.apply, htables, recorded_recordRevision] at hrevision
        split at hrevision
        · next heq =>
            cases heq
            rw [durableRows_pos hreached hdurable hr hasset] at hlive
            cases hlive
        · exact hsound library' id' revision hrevision r hr hasset hlive
    · have hall : op.apply s = s := by
        simp only [hop, CaptureOp.apply, htables] at hcaptured ⊢
        rw [hcaptured]
      rw [hall]
      exact hsound

/-! ### beginning and completing a capture -/

variable {targetRevision now : Int}

/-- Beginning a capture leaves everything but the progress of its library. -/
theorem begin_tables {library operation : String} {s : StateTables} :
    let row := begunState (s.captureState.get? library) library targetRevision
      (metadataCaptureRemaining library targetRevision s) now
    (inTransaction operation (beginMetadataCaptureRevision library targetRevision now) none s).2 =
      { s with
        captureState := s.captureState.upsert row (fun m => { row with library := m.library })
          (fun _ => rfl) } := by
  rw [inTransaction_none]
  rfl

theorem complete_tables {library operation : String} {s : StateTables} :
    (inTransaction operation (completeMetadataCaptureRevision library targetRevision now) none
        s).2 =
      if metadataCaptureRemaining library targetRevision s = 0 then
        { s with
          captureState := s.captureState.update (fun m => m.library = library)
            (fun m => { m with
              activeRevision := max m.activeRevision targetRevision, pendingRevision := none,
              failedAssets := 0, lastError := none, updatedAt := now })
            (fun _ => rfl) }
      else s := by
  rw [inTransaction_none, completeMetadataCaptureRevision, run_query_none]
  split <;> rfl

theorem begunState_library {existing : Option MetadataCaptureState} {library : String}
    {remaining : Nat} :
    (begunState existing library targetRevision remaining now).library = library := by
  unfold begunState
  dsimp only
  split
  · rfl
  · split <;> rfl

theorem begunState_activeRevision {old : MetadataCaptureState} {library : String}
    {remaining : Nat} :
    old.activeRevision ≤
      (begunState (some old) library targetRevision remaining now).activeRevision := by
  unfold begunState
  simp only [Option.getD_some]
  split
  · exact Int.le_max_left ..
  · split <;> exact Int.le_refl _

theorem activeRevision_update {t : Table MetadataCaptureState String MetadataCaptureState.key}
    {p : MetadataCaptureState → Bool} {f : MetadataCaptureState → MetadataCaptureState}
    (hf : ∀ m, (f m).key = m.key) (hactive : ∀ m, m.activeRevision ≤ (f m).activeRevision)
    {library : String} {revision : Int}
    (h : (t.get? library).map (·.activeRevision) = some revision) :
    ∃ revision', ((t.update p f hf).get? library).map (·.activeRevision) = some revision' ∧
      revision ≤ revision' := by
  obtain ⟨m, hm, rfl⟩ := Option.map_eq_some_iff.mp h
  refine ⟨(if p m then f m else m).activeRevision, ?_, ?_⟩
  · rw [Table.get?_update, hm]
    rfl
  · split
    · exact hactive m
    · exact Int.le_refl _

theorem activeRevision_recordRevision {library assetId : String} {revision updatedAt : Int}
    {s : StateTables} {other : String} {active : Int}
    (h : (s.captureState.get? other).map (·.activeRevision) = some active) :
    ∃ active', (((recordMetadataCaptureRevision library assetId revision updatedAt).run none
      s).2.2.captureState.get? other).map (·.activeRevision) = some active' ∧
        active ≤ active' := by
  rw [run_recordRevision]
  split
  · refine activeRevision_update ?_ ?_ h
    · exact fun _ => rfl
    · exact fun _ => Int.le_refl _
  · exact ⟨active, h, Int.le_refl _⟩

theorem activeRevision_apply (s : CaptureStore) (op : CaptureOp host) {library : String}
    {active : Int} (h : s.activeRevision library = some active) :
    ∃ active', (op.apply s).activeRevision library = some active' ∧ active ≤ active' := by
  cases op with
  | upsertSeen record now => exact ⟨active, h, Int.le_refl _⟩
  | markDownloaded library' id versionSize localPath localChecksum downloadChecksum
      markCaptureRepair downloadedAt =>
      unfold CaptureStore.activeRevision CaptureOp.apply
      dsimp only
      by_cases hversion : ∃ r ∈ s.tables.db.assets.rows, r.isVersion library' id versionSize = true
      · rw [markDownloaded_tables hversion]
        exact activeRevision_recordRevision h
      · rw [markDownloaded_missing hversion]
        exact ⟨active, h, Int.le_refl _⟩
  | refresh library' assetId metadata markForRewrite markCaptureRepair captureRevision now =>
      unfold CaptureStore.activeRevision CaptureOp.apply
      dsimp only
      rw [refreshMetadata_tables]
      split
      · exact activeRevision_recordRevision h
      · exact ⟨active, h, Int.le_refl _⟩
  | begin library' targetRevision now =>
      unfold CaptureStore.activeRevision CaptureOp.apply
      dsimp only
      rw [begin_tables]
      rw [Table.get?_upsert]
      split
      · next heq =>
          obtain rfl : library' = library := begunState_library.symm.trans heq
          obtain ⟨old, hold, rfl⟩ := Option.map_eq_some_iff.mp h
          rw [hold]
          exact ⟨_, rfl, begunState_activeRevision⟩
      · exact ⟨active, h, Int.le_refl _⟩
  | complete library' targetRevision now =>
      unfold CaptureStore.activeRevision CaptureOp.apply
      dsimp only
      rw [complete_tables]
      split
      · refine activeRevision_update ?_ ?_ h
        · exact fun _ => rfl
        · exact fun _ => Int.le_max_left ..
      · exact ⟨active, h, Int.le_refl _⟩

theorem sound_apply (hsound : s.Sound) (op : CaptureOp host) :
    (op.apply s).Sound ↔ op.Honest s := by
  cases op with
  | upsertSeen record now => exact sound_upsertSeen hsound record now
  | markDownloaded library id versionSize localPath localChecksum downloadChecksum
      markCaptureRepair downloadedAt =>
      exact sound_markDownloaded hsound library id versionSize localPath localChecksum
        downloadChecksum markCaptureRepair downloadedAt
  | refresh library assetId metadata markForRewrite markCaptureRepair captureRevision now =>
      exact sound_refresh hsound library assetId metadata markForRewrite markCaptureRepair
        captureRevision now
  | begin library targetRevision now =>
      refine iff_of_true ?_ trivial
      unfold CaptureOp.apply CaptureStore.Sound
      dsimp only
      rw [begin_tables]
      exact hsound
  | complete library targetRevision now =>
      refine iff_of_true ?_ trivial
      unfold CaptureOp.apply CaptureStore.Sound
      dsimp only
      rw [complete_tables]
      split
      · exact hsound
      · exact hsound

/-! ## runs of operations -/

/-- Every operation is honest where it runs. -/
def HonestRun : CaptureStore → List (CaptureOp host) → Prop
  | _, [] => True
  | s, op :: ops => op.Honest s ∧ HonestRun (op.apply s) ops

/-- The records are sound in every state of the run. -/
def StaysSound (s : CaptureStore) (ops : List (CaptureOp host)) : Prop :=
  ∀ n, (CaptureOp.runAll s (ops.take n)).Sound

theorem staysSound_cons {op : CaptureOp host} {ops : List (CaptureOp host)} :
    StaysSound s (op :: ops) ↔ s.Sound ∧ StaysSound (op.apply s) ops := by
  constructor
  · exact fun h => ⟨h 0, fun n => h (n + 1)⟩
  · rintro ⟨hfirst, hrest⟩ n
    cases n with
    | zero => exact hfirst
    | succ n => exact hrest n

theorem staysSound_iff (hsound : s.Sound) (ops : List (CaptureOp host)) :
    StaysSound s ops ↔ HonestRun s ops := by
  induction ops generalizing s with
  | nil => exact iff_of_true (fun n => by simpa [CaptureOp.runAll] using hsound) trivial
  | cons op ops ih =>
      rw [staysSound_cons, HonestRun, ← sound_apply hsound op]
      constructor
      · rintro ⟨-, hrest⟩
        exact ⟨hrest 0, (ih (hrest 0)).mp hrest⟩
      · rintro ⟨hnext, hrest⟩
        exact ⟨hsound, (ih hnext).mpr hrest⟩

theorem activeRevision_runAll (s : CaptureStore) (ops : List (CaptureOp host)) {library : String}
    {active : Int} (h : s.activeRevision library = some active) :
    ∃ active', (CaptureOp.runAll s ops).activeRevision library = some active' ∧
      active ≤ active' := by
  induction ops generalizing s active with
  | nil => exact ⟨active, h, Int.le_refl _⟩
  | cons op ops ih =>
      obtain ⟨next, hnext, hle⟩ := activeRevision_apply s op h
      obtain ⟨last, hlast, hle'⟩ := ih (op.apply s) hnext
      exact ⟨last, hlast, Int.le_trans hle hle'⟩

/-- Nothing remains of a library: no downloaded row of it falls short. -/
theorem captured_of_remaining_zero (hsound : s.Sound) {library : String} {targetRevision : Int}
    (h : metadataCaptureRemaining library targetRevision s.tables = 0) {r : AssetRow}
    (hr : r ∈ s.tables.db.assets.rows) (hlibrary : r.library = library)
    (hlive : r.isLiveDownload = true) : targetRevision ≤ s.capturedAt r.key := by
  have hstale : s.tables.isStale library targetRevision r = false := by
    by_contra hstale
    have hmem : r.id ∈ ((s.tables.db.assets.rows.filter
        (s.tables.isStale library targetRevision)).map (·.id)).dedup :=
      List.mem_dedup.mpr (List.mem_map_of_mem (List.mem_filter.mpr ⟨hr, by simpa using hstale⟩))
    rw [List.length_eq_zero_iff.mp h] at hmem
    cases hmem
  simp only [StateTables.isStale, hlibrary, hlive, decide_true, Bool.true_and,
    StateTables.recordsLess] at hstale
  cases hrecorded : s.tables.recorded library r.id with
  | none => simp [hrecorded] at hstale
  | some revision =>
      have hbound : targetRevision ≤ revision := by simpa [hrecorded] using hstale
      have hrow := hsound library r.id revision hrecorded r hr (isAsset_iff.mpr ⟨hlibrary, rfl⟩)
        hlive
      omega

/-- What a record says of its asset, and a completed capture of its library, in every state of the
run. -/
structure CapturedAsRecorded (s : CaptureStore) (ops : List (CaptureOp host)) : Prop where
  sound : StaysSound s ops
  active : ∀ library active, s.activeRevision library = some active →
    ∃ active', (CaptureOp.runAll s ops).activeRevision library = some active' ∧ active ≤ active'
  complete : ∀ n library targetRevision,
    metadataCaptureRemaining library targetRevision (CaptureOp.runAll s (ops.take n)).tables = 0 →
      ∀ r ∈ (CaptureOp.runAll s (ops.take n)).tables.db.assets.rows, r.library = library →
        r.isLiveDownload = true →
          targetRevision ≤ (CaptureOp.runAll s (ops.take n)).capturedAt r.key

/-- **Recorded revisions**: from a sound store the records stay sound, and a completed capture
covers every downloaded row, exactly in the runs whose operations are all honest. -/
theorem capturedAsRecorded_iff (hsound : s.Sound) (ops : List (CaptureOp host)) :
    CapturedAsRecorded s ops ↔ HonestRun s ops := by
  constructor
  · exact fun h => (staysSound_iff hsound ops).mp h.sound
  · intro h
    have hstays := (staysSound_iff hsound ops).mpr h
    exact
      { sound := hstays
        active := fun _ _ hactive => activeRevision_runAll s ops hactive
        complete := fun n _ _ hzero _ hr hlibrary hlive =>
          captured_of_remaining_zero (hstays n) hzero hr hlibrary hlive }

/-! ### a second version of a migrated asset -/

/-- The first version was downloaded before revisions were recorded. -/
def migratedStore : CaptureStore where
  tables := .ofDb (runOps .empty
    [(.upsertSeen ⟨plainRecord "original" plainMetadata, plainRecord_hashed "original"⟩ 1 :
        Op plainHost),
      .markDownloaded "PrimarySync" "a" "original" "/a" "s" none false])
  capturedAt := fun _ => 0

def downloadLive : List (CaptureOp plainHost) :=
  [.upsertSeen ⟨plainRecord "live" plainMetadata, plainRecord_hashed "live"⟩ 2,
    .markDownloaded "PrimarySync" "a" "live" "/b" "t" none false 3]

theorem migratedStore_sound : migratedStore.Sound := by
  intro library id revision hrevision
  cases hrevision

/-- The download of the second version records the revision for the first one, too. -/
theorem migrated_not_captured :
    migratedStore.Sound ∧ ¬CapturedAsRecorded migratedStore downloadLive := by
  refine ⟨migratedStore_sound, fun h => ?_⟩
  have hrow : ∃ r ∈ (CaptureOp.runAll migratedStore downloadLive).tables.db.assets.rows,
      r.isAsset "PrimarySync" "a" = true ∧ r.isLiveDownload = true ∧
        (CaptureOp.runAll migratedStore downloadLive).capturedAt r.key = 0 := by
    decide +kernel
  have hrecorded : (CaptureOp.runAll migratedStore downloadLive).tables.recorded "PrimarySync" "a" =
      some 1 := by
    decide +kernel
  obtain ⟨r, hr, hasset, hlive, hat⟩ := hrow
  have hcaptured := h.sound 2 "PrimarySync" "a" 1 hrecorded r hr hasset hlive
  have hnew : (1 : Int) ≤ 0 := hat ▸ hcaptured
  omega

/-- Only the download of a seen version: the record is as new as the row. -/
theorem download_captured :
    CapturedAsRecorded (⟨seenTables, fun _ => 1⟩ : CaptureStore)
      [(.markDownloaded "PrimarySync" "a" "original" "/a" "s" none false 2 :
        CaptureOp plainHost)] := by
  have hsound : (⟨seenTables, fun _ => 1⟩ : CaptureStore).Sound := by
    intro library id revision hrevision
    cases hrevision
  refine (capturedAsRecorded_iff hsound _).mpr ⟨fun _ r _ _ _ _ => ?_, trivial⟩
  show laterRevision none metadataCaptureRevision ≤ 1
  decide

end Kei.StateDb
