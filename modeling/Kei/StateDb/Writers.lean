import Kei.StateDb.Receipts

/-!
# Kei.StateDb.Writers

The two writers of a row: the download that completes and the deletion at the
source.

They write different columns, so their order does not matter, but for the
guard of the deletion: it waits for a prepared receipt, which a download of
other bytes removes.
-/

namespace Kei.StateDb

variable {host : Host}

/-- How a deletion at the source is written. -/
inductive SourceDeletion where
  | markSoftDeleted
  | resolveSourceDeleted

def SourceDeletion.op (deletion : SourceDeletion) (library id : String) (deletedAt : Option Int) :
    Op host :=
  match deletion with
  | .markSoftDeleted => .markSoftDeleted library id deletedAt
  | .resolveSourceDeleted => .resolveSourceDeleted library id deletedAt

/-- The completed download of a version. -/
structure Completion where
  versionSize : String
  localPath : String
  localChecksum : String
  downloadChecksum : Option String
  markCaptureRepair : Bool

def Completion.op (completion : Completion) (library id : String) : Op host :=
  .markDownloaded library id completion.versionSize completion.localPath completion.localChecksum
    completion.downloadChecksum completion.markCaptureRepair

/-! ## columns -/

/-- The columns that a deletion writes. -/
def AssetRow.deletionColumns (r : AssetRow) : Bool × Option Int :=
  (r.metadata.isDeleted, r.metadata.deletedAt)

/-- The row without them. -/
def AssetRow.otherColumns (r : AssetRow) : AssetRow :=
  { r with metadata := { r.metadata with isDeleted := false, deletedAt := none } }

/-- The download of `completion`, on the rows. -/
abbrev Completion.write (completion : Completion) (library id : String) (t : AssetTable) :
    AssetTable :=
  updateStatusToDownloaded library id completion.versionSize completion.localPath
    completion.localChecksum completion.downloadChecksum completion.markCaptureRepair t

/-! ## the guard -/

/-- The row has a receipt that a deletion waits for. -/
def AssetRow.awaits (library id : String) (r : AssetRow) : Bool :=
  r.isAsset library id && r.captureRepair.isPrepared

/-- The download is of the row, and of other bytes than it has. -/
def Completion.replaces (completion : Completion) (r : AssetRow) : Bool :=
  r.versionSize = completion.versionSize &&
    (completion.markCaptureRepair || r.localChecksum ≠ some completion.localChecksum)

/-- The asset has a prepared receipt, and the download replaces the bytes of each. -/
def ReplacesReceipts (library id : String) (completion : Completion) (t : AssetTable) : Prop :=
  (∃ r ∈ t.rows, r.awaits library id = true) ∧
    ∀ r ∈ t.rows, r.awaits library id = true → completion.replaces r = true

instance (library id : String) (completion : Completion) (t : AssetTable) :
    Decidable (ReplacesReceipts library id completion t) :=
  inferInstanceAs (Decidable (_ ∧ _))

theorem downloadedAs_isPrepared (completion : Completion) (r : AssetRow) :
    (r.downloadedAs completion.localPath completion.localChecksum completion.downloadChecksum
        completion.markCaptureRepair).captureRepair.isPrepared =
      (r.captureRepair.isPrepared &&
        !(completion.markCaptureRepair || r.localChecksum ≠ some completion.localChecksum)) := by
  cases hmark : completion.markCaptureRepair with
  | true => simp [AssetRow.downloadedAs, CaptureRepair.isPrepared, notEmpty]
  | false =>
      by_cases hsame : r.localChecksum = some completion.localChecksum
      · simp [AssetRow.downloadedAs, CaptureRepair.isPrepared, hsame]
      · simp [AssetRow.downloadedAs, CaptureRepair.isPrepared, hsame, notEmpty]

/-- A row awaits its publication after a download unless the download replaced its bytes. -/
theorem awaits_download (library id : String) (completion : Completion) (r : AssetRow) :
    (if r.isVersion library id completion.versionSize then
        r.downloadedAs completion.localPath completion.localChecksum completion.downloadChecksum
          completion.markCaptureRepair
      else r).awaits library id = (r.awaits library id && !completion.replaces r) := by
  by_cases hversion : r.isVersion library id completion.versionSize = true
  · have hkey : r.key = ⟨library, id, completion.versionSize⟩ := of_decide_eq_true hversion
    simp only [AssetRecord.key, Key.mk.injEq] at hkey
    have hasset : (r.downloadedAs completion.localPath completion.localChecksum
        completion.downloadChecksum completion.markCaptureRepair).isAsset library id =
          r.isAsset library id := rfl
    rw [if_pos hversion, AssetRow.awaits, hasset, downloadedAs_isPrepared]
    simp [AssetRow.awaits, Completion.replaces, hkey.2.2, Bool.and_assoc]
  · rw [if_neg hversion]
    cases hawaits : r.awaits library id with
    | false => rfl
    | true =>
        have hasset : r.library = library ∧ r.id = id := by
          simp only [AssetRow.awaits, AssetRow.isAsset, Bool.and_eq_true, decide_eq_true_eq]
            at hawaits
          exact hawaits.1
        have hother : r.versionSize ≠ completion.versionSize := fun heq =>
          hversion (decide_eq_true (by simp [AssetRecord.key, hasset, heq]))
        simp [Completion.replaces, hother]

/-- The guard of a deletion. -/
def awaitsPublication (library id : String) (t : AssetTable) : Bool :=
  t.rows.any (AssetRow.awaits library id)

variable {completion : Completion} {library id : String} {t : AssetTable}

theorem awaitsPublication_download :
    awaitsPublication library id (completion.write library id t) =
      t.rows.any (fun r => r.awaits library id && !completion.replaces r) := by
  show (t.rows.map _).any _ = _
  rw [List.any_map]
  refine congrArg t.rows.any (funext (fun r => ?_))
  exact awaits_download library id completion r

/-- A download lifts the guard exactly when it replaces the prepared receipts. -/
theorem replacesReceipts_iff :
    ReplacesReceipts library id completion t ↔
      awaitsPublication library id t = true ∧
        awaitsPublication library id (completion.write library id t) = false := by
  rw [awaitsPublication_download]
  simp [ReplacesReceipts, awaitsPublication]

theorem awaitsPublication_of_download
    (h : awaitsPublication library id (completion.write library id t) = true) :
    awaitsPublication library id t = true := by
  rw [awaitsPublication_download, List.any_eq_true] at h
  obtain ⟨r, hr, hawaits⟩ := h
  exact List.any_eq_true.mpr ⟨r, hr, (Bool.and_eq_true _ _ ▸ hawaits).1⟩

/-! ## the two writes -/

/-- The rows after a deletion that is not refused. -/
abbrev deleteAsset (library id : String) (deletedAt : Option Int) (t : AssetTable) : AssetTable :=
  t.update (AssetRow.isAsset library id) (AssetRow.softDeleted deletedAt)
    (AssetRow.key_softDeleted deletedAt)

/-- The verifications after a deletion. -/
def SourceDeletion.verifications (deletion : SourceDeletion) (library id : String)
    (keys : List Key) : List Key :=
  match deletion with
  | .markSoftDeleted => keys
  | .resolveSourceDeleted => keys.filter (fun k => !(k.library = library && k.id = id))

theorem apply_deletion (deletion : SourceDeletion) (library id : String) (deletedAt : Option Int)
    (db : SqliteStateDb) :
    Op.apply db (deletion.op library id deletedAt : Op host) =
      if awaitsPublication library id db.assets then db
      else { db with
        assets := deleteAsset library id deletedAt db.assets,
        assetVerifications := deletion.verifications library id db.assetVerifications } := by
  have hguard : db.assets.rows.any (fun r =>
      r.isAsset library id && r.captureRepair.isPrepared) =
        awaitsPublication library id db.assets := rfl
  cases deletion <;> cases hawaits : awaitsPublication library id db.assets <;>
    simp [SourceDeletion.op, Op.apply, Op.run, markSoftDeleted, resolveSourceDeleted, softDelete,
      hguard, hawaits, SourceDeletion.verifications]

theorem apply_download (completion : Completion) (library id : String) (db : SqliteStateDb) :
    Op.apply db (completion.op library id : Op host) =
      { db with assets := completion.write library id db.assets } := by
  by_cases hcount : db.assets.count (AssetRow.isVersion library id completion.versionSize) = 0
  · have hnone : ∀ r ∈ db.assets.rows, r.isVersion library id completion.versionSize = false := by
      simpa [Table.count, List.countP_eq_zero] using hcount
    have hsame : completion.write library id db.assets = db.assets := Table.update_of_none hnone
    rw [hsame]
    simp [Completion.op, Op.apply, Op.run, hcount]
  · simp [Completion.op, Op.apply, Op.run, hcount]

theorem write_deleteAsset (completion : Completion) (library id : String)
    (deletedAt : Option Int) (t : AssetTable) :
    completion.write library id (deleteAsset library id deletedAt t) =
      deleteAsset library id deletedAt (completion.write library id t) :=
  Table.update_comm (fun _ => rfl) (fun _ => rfl) (fun _ => rfl)

theorem otherColumns_deleteAsset (library id : String) (deletedAt : Option Int) (t : AssetTable) :
    (deleteAsset library id deletedAt t).rows.map AssetRow.otherColumns =
      t.rows.map AssetRow.otherColumns := Table.map_update (fun _ => rfl)

/-- **Either order of a download and a deletion.**  Neither writes a column of the other, and the
order does not matter, but for a download that replaces the prepared receipts of the asset: before
it the deletion is refused, after it the asset is deleted, and nothing else differs. -/
theorem writers_commute (db : SqliteStateDb) (completion : Completion)
    (deletion : SourceDeletion) (library id : String) (deletedAt : Option Int) :
    let download : Op host := completion.op library id
    let delete : Op host := deletion.op library id deletedAt
    ((download.apply db).assets.rows.map AssetRow.deletionColumns =
        db.assets.rows.map AssetRow.deletionColumns ∧
      (delete.apply db).assets.rows.map AssetRow.otherColumns =
        db.assets.rows.map AssetRow.otherColumns) ∧
    (¬ReplacesReceipts library id completion db.assets →
      delete.apply (download.apply db) = download.apply (delete.apply db)) ∧
    (ReplacesReceipts library id completion db.assets →
      download.apply (delete.apply db) = download.apply db ∧
      (delete.apply (download.apply db)).assets =
        deleteAsset library id deletedAt (download.apply db).assets) := by
  intro download delete
  simp only [download, delete, apply_deletion, apply_download]
  refine ⟨⟨?_, ?_⟩, fun hkeeps => ?_, fun hreplaces => ?_⟩
  · exact Table.map_update (fun _ => rfl)
  · split
    · rfl
    · exact otherColumns_deleteAsset library id deletedAt db.assets
  · -- the guard sees the same in both orders
    have hguard : awaitsPublication library id (completion.write library id db.assets) =
        awaitsPublication library id db.assets := by
      rw [replacesReceipts_iff] at hkeeps
      cases hafter : awaitsPublication library id (completion.write library id db.assets) with
      | true => rw [awaitsPublication_of_download hafter]
      | false => grind
    rw [hguard]
    split
    · rfl
    · rw [write_deleteAsset]
  · obtain ⟨hbefore, hafter⟩ := replacesReceipts_iff.mp hreplaces
    simp [hbefore, hafter]

/-! ## a prepared receipt -/

/-- A download of the version whose repair is prepared. -/
def redownload (localChecksum : String) : Completion :=
  ⟨"original", "/a", localChecksum, none, false⟩

/-- The bytes of the prepared row are downloaded again, or other ones. -/
theorem writers_commute_prepared :
    let db := runOps .empty preparing
    let delete : Op plainHost := .markSoftDeleted "PrimarySync" "a" (some 9)
    let same : Op plainHost := (redownload "s").op "PrimarySync" "a"
    let other : Op plainHost := (redownload "t").op "PrimarySync" "a"
    delete.apply (same.apply db) = same.apply (delete.apply db) ∧
      other.apply (delete.apply db) = other.apply db :=
  ⟨(writers_commute (runOps .empty preparing) (redownload "s") .markSoftDeleted "PrimarySync" "a"
      (some 9)).2.1 (by decide +kernel),
    ((writers_commute (runOps .empty preparing) (redownload "t") .markSoftDeleted "PrimarySync" "a"
      (some 9)).2.2 (by decide +kernel)).1⟩

/-- Either order gives the same rows. -/
def SameInEitherOrder (db : SqliteStateDb) (download delete : Op host) : Prop :=
  (delete.apply (download.apply db)).assets.rows = (download.apply (delete.apply db)).assets.rows

/-- A deletion before a download of other bytes is refused, after it it is not. -/
theorem writers_not_commute :
    ¬SameInEitherOrder (runOps .empty preparing) ((redownload "t").op "PrimarySync" "a")
      (SourceDeletion.markSoftDeleted.op "PrimarySync" "a" (some 9) : Op plainHost) := by
  unfold SameInEitherOrder
  decide +kernel

end Kei.StateDb
