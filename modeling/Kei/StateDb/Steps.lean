import Kei.StateDb
import Mathlib.Data.List.Induction

/-!
# Kei.StateDb.Steps

What one operation of the store does to the rows.

`Change` lists what can happen to one row, with the guards of the statement
that did it, and `Tracked` says that every row of the new table comes from an
old one by a change or was just seen, and that every old row goes on by a
change or was pruned.  Every fact about the rows of a run is derived from
`run_tracked`.
-/

namespace Kei.StateDb

variable {host : Host}

/-! ## a row -/

/-- The row changes in columns that neither the receipts nor the deletion depend on. -/
structure Plain (r r' : AssetRow) : Prop where
  key : r'.key = r.key
  checksum : r'.checksum = r.checksum
  createdAt : r'.createdAt = r.createdAt
  localPath : r'.localPath = r.localPath
  localChecksum : r'.localChecksum = r.localChecksum
  metadataHash : r'.metadata.metadataHash = r.metadata.metadataHash
  isDeleted : r'.metadata.isDeleted = r.metadata.isDeleted
  timezoneOffset : r'.metadata.timezoneOffset = r.metadata.timezoneOffset
  captureRepair : r'.captureRepair = r.captureRepair

/-- The rows that an operation marks as deleted. -/
def Op.deletes (db : SqliteStateDb) (r : AssetRow) : Op host → Bool
  | .markSoftDeleted library assetId _ => r.isAsset library assetId
  | .resolveSourceDeleted library assetId _ => r.isAsset library assetId
  | .markMasterFamilySoftDeleted library master _ =>
      r.isFamily db.assetMasterMappings library master
  | .resolveMasterFamilySourceDeleted library master _ =>
      r.isFamily db.assetMasterMappings library master
  | _ => false

/-- What an operation does to a row. -/
inductive Change (db : SqliteStateDb) : Op host → AssetRow → AssetRow → Prop where
  | plain {op : Op host} {r r' : AssetRow} (hkeep : op.deletes db r = false) (h : Plain r r') :
      Change db op r r'
  | seen {record : SeenRecord host} {now : Int} {r : AssetRow} (hkey : r.key = record.1.key)
      (hopen : r.checksum = record.1.checksum → r.captureRepair.isPrepared = true →
        r.captureRepair.metadataHash = (record.1.metadata.withHash host).metadataHash) :
      Change db (.upsertSeen record now) r
        (r.seen record.1 (record.1.metadata.withHash host) now)
  | downloaded {library id versionSize localPath localChecksum : String}
      {downloadChecksum : Option String} {mark : Bool} {r : AssetRow}
      (hkey : r.key = ⟨library, id, versionSize⟩) :
      Change db (.markDownloaded library id versionSize localPath localChecksum downloadChecksum
        mark) r (r.downloadedAs localPath localChecksum downloadChecksum mark)
  | adopted {record : SeenRecord host} {localPath localChecksum : String} {now : Int}
      {r : AssetRow} (hkey : r.key = record.1.key)
      (hopen : r.checksum = record.1.checksum → r.captureRepair.isPrepared = true →
        r.captureRepair.metadataHash = (record.1.metadata.withHash host).metadataHash) :
      Change db (.importAdopt record localPath localChecksum now) r
        ((r.seen record.1 (record.1.metadata.withHash host) now).downloadedAs localPath
          localChecksum none false)
  | deleted {op : Op host} {r : AssetRow} (hdeletes : op.deletes db r = true)
      (hopen : r.captureRepair.isPrepared = false) (deletedAt : Option Int) :
      Change db op r (r.softDeleted deletedAt)
  | recorded {pending : PendingMetadataRewrite} {receipt : CaptureRepairReceipt}
      {outputChecksum : String} {outputSize : Nat} {r : AssetRow}
      (hkey : r.key = pending.asset.key) (hlive : r.isLiveDownload = true)
      (hreceipt : pending.captureRepairReceipt = some receipt)
      (hhash : r.metadata.metadataHash = some receipt.metadataHash)
      (hcolumns : r.captureRepair = receiptColumns (some receipt))
      (hchecksum : outputChecksum ≠ "") (hlocal : r.localChecksum = pending.asset.localChecksum)
      (hsize : outputSize ≤ sqliteMax) :
      Change db (.recordCaptureRepairPrepared pending outputChecksum outputSize) r
        { r with captureRepair :=
            ⟨some receipt.metadataHash, some outputChecksum, some (outputSize : Int)⟩ }
  | refreshed {library assetId : String} {metadata : SeenMetadata host} {mark repair : Bool}
      {now : Int} {r : AssetRow} (hasset : r.isAsset library assetId = true)
      (hlive : r.isLiveDownload = true)
      (hopen : r.captureRepair.isPrepared = true →
        r.captureRepair.metadataHash = (metadata.1.withHash host).metadataHash) :
      Change db (.refreshDownloadedAssetMetadata library assetId metadata mark repair now) r
        (r.refreshed (metadata.1.withHash host) mark repair now)
  | finished {pending : PendingMetadataRewrite} {queue : MetadataRewriteQueue}
      {localChecksum preRewriteChecksum : Option String}
      {completion : MetadataRewriteCompletion} {r : AssetRow}
      (hselected : r.isSelected pending queue completion = true)
      (hallowed : finishRefused pending queue localChecksum preRewriteChecksum completion = none) :
      Change db (.finishMetadataRewrite pending queue localChecksum preRewriteChecksum
        completion) r (r.finished localChecksum preRewriteChecksum completion)

theorem Plain.refl (r : AssetRow) : Plain r r := ⟨rfl, rfl, rfl, rfl, rfl, rfl, rfl, rfl, rfl⟩

variable {db : SqliteStateDb} {op : Op host}

theorem Change.same {r : AssetRow} (hkeep : op.deletes db r = false) :
    Change db op r r := .plain hkeep (.refl r)

theorem Change.key {r r' : AssetRow} (h : Change db op r r') : r'.key = r.key := by
  cases h with
  | plain hkeep h => exact h.key
  | seen hkey hopen => rfl
  | downloaded hkey => rfl
  | adopted hkey hopen => rfl
  | deleted hdeletes hopen deletedAt => rfl
  | recorded hkey hlive hreceipt hhash hcolumns hchecksum hlocal => rfl
  | refreshed hasset hlive hopen => rfl
  | finished hselected hallowed => rfl

/-! ## the table -/

/-- The rows that an operation inserts. -/
inductive Fresh : Op host → AssetRow → Prop where
  | seen {record : SeenRecord host} {now : Int} :
      Fresh (.upsertSeen record now) (seenRow record.1 (record.1.metadata.withHash host) now)
  | adopted {record : SeenRecord host} {localPath localChecksum : String} {now : Int} :
      Fresh (.importAdopt record localPath localChecksum now)
        ((seenRow record.1 (record.1.metadata.withHash host) now).downloadedAs localPath
          localChecksum none false)

/-- The pending rows that an operation removes. -/
def Op.prunes (r : AssetRow) : Op host → Bool
  | .pruneStalePendingNotSeenSince library seenSince =>
      r.library = library && r.status = .pending && r.lastSeenAt < seenSince
  | .prunePendingAssetVersions library assetVersions =>
      r.library = library && assetVersions.contains (r.id, r.versionSize) && r.status = .pending
  | _ => false

/-- How the rows before and after an operation hang together. -/
structure Tracked (db : SqliteStateDb) (op : Op host) (t t' : AssetTable) : Prop where
  back : ∀ r' ∈ t'.rows, Fresh op r' ∨ ∃ r ∈ t.rows, Change db op r r'
  forth : ∀ r ∈ t.rows, (∃ r' ∈ t'.rows, Change db op r r') ∨ op.prunes r = true

variable {p : AssetRow → Bool} {t : AssetTable} {f : AssetRow → AssetRow}

theorem Tracked.update (hchange : ∀ r ∈ t.rows, p r = true → Change db op r (f r))
    (hsame : ∀ r ∈ t.rows, p r = false → op.deletes db r = false)
    (hf : ∀ r, (f r).key = r.key := by exact fun _ => rfl) : Tracked db op t (t.update p f hf) := by
  have hrow : ∀ r ∈ t.rows, Change db op r (if p r then f r else r) := by
    intro r hr
    split
    · next hp => exact hchange r hr hp
    · next hp => exact .same (hsame r hr (Bool.not_eq_true _ ▸ hp))
  constructor
  · intro r' hr'
    obtain ⟨r, hr, rfl⟩ := Table.mem_update.mp hr'
    exact .inr ⟨r, hr, hrow r hr⟩
  · intro r hr
    exact .inl ⟨_, Table.mem_update_of_mem hr, hrow r hr⟩

theorem Tracked.plain (hplain : ∀ r, Plain r (f r)) (hkeep : ∀ r, op.deletes db r = false)
    (hf : ∀ r, (f r).key = r.key := by exact fun _ => rfl) : Tracked db op t (t.update p f hf) :=
  .update (fun r _ _ => .plain (hkeep r) (hplain r)) (fun r _ _ => hkeep r) hf

theorem Tracked.delete (hprunes : ∀ r, p r = true → op.prunes r = true)
    (hkeep : ∀ r, op.deletes db r = false) : Tracked db op t (t.delete p) := by
  constructor
  · intro r hr
    exact .inr ⟨r, (Table.mem_delete.mp hr).1, .same (hkeep r)⟩
  · intro r hr
    cases hp : p r with
    | true => exact .inr (hprunes r hp)
    | false => exact .inl ⟨r, Table.mem_delete.mpr ⟨hr, hp⟩, .same (hkeep r)⟩

theorem Tracked.refl (hkeep : ∀ r, op.deletes db r = false) : Tracked db op t t :=
  ⟨fun r hr => .inr ⟨r, hr, .same (hkeep r)⟩, fun r hr => .inl ⟨r, hr, .same (hkeep r)⟩⟩

/-! ## each operation -/

theorem withHash_metadataHash {m : AssetMetadata} (h : m.Hashed host) :
    (m.withHash host).metadataHash = some (host.computeHash m.toMetadataFields) := by
  rcases h with hnone | hsome
  · simp [AssetMetadata.withHash, hnone]
  · simp [AssetMetadata.withHash, hsome]

theorem upsertAssetRow_ok {record : AssetRecord} {now : Int} {t t' : AssetTable}
    (h : upsertAssetRow host record now t = .ok t') :
    t' = t.upsert (seenRow record (record.metadata.withHash host) now)
        (AssetRow.seen record (record.metadata.withHash host) now) (fun _ => rfl) ∧
      ∀ r ∈ t.rows, r.key = record.key → r.checksum = record.checksum →
        r.captureRepair.isPrepared = true →
          r.captureRepair.metadataHash = (record.metadata.withHash host).metadataHash := by
  unfold upsertAssetRow at h
  dsimp only at h
  split at h
  · contradiction
  · next hguard =>
      refine ⟨(Except.ok.inj h).symm, fun r hr hkey hchecksum hprepared => ?_⟩
      by_contra hne
      refine hguard (Bool.or_eq_true_iff.mpr (.inr (List.any_eq_true.mpr ⟨r, hr, ?_⟩)))
      simp [hkey, hchecksum, hprepared, hne]

theorem bind_ok {α β : Type} {x : Except StateError α} {f : α → Except StateError β} {b : β}
    (h : (x >>= f) = .ok b) : ∃ a, x = .ok a ∧ f a = .ok b := by
  cases x with
  | error e => contradiction
  | ok a => exact ⟨a, rfl, h⟩

variable {t' : AssetTable}

theorem upsert_tracked {record : SeenRecord host} {now : Int}
    (h : upsertAssetRow host record.1 now db.assets = .ok t') :
    Tracked db (.upsertSeen record now) db.assets t' := by
  obtain ⟨rfl, hopen⟩ := upsertAssetRow_ok h
  constructor
  · intro r' hr'
    rcases Table.mem_upsert hr' with ⟨rfl, -⟩ | ⟨r, hr, hkey, rfl⟩ | ⟨hr, -⟩
    · exact .inl .seen
    · exact .inr ⟨r, hr, .seen hkey (hopen r hr hkey)⟩
    · exact .inr ⟨r', hr, .same rfl⟩
  · intro r hr
    refine .inl ⟨_, Table.mem_upsert_of_mem hr, ?_⟩
    split
    · next hkey => exact .seen hkey (hopen r hr hkey)
    · exact .same rfl

theorem isVersion_of_key {record : AssetRecord} {r : AssetRow} (h : r.key = record.key) :
    AssetRow.isVersion record.library record.id record.versionSize r = true := decide_eq_true h

theorem adopt_tracked {record : SeenRecord host} {localPath localChecksum : String} {now : Int}
    (h : upsertAssetRow host record.1 now db.assets = .ok t') :
    Tracked db (.importAdopt record localPath localChecksum now) db.assets
      (updateStatusToDownloaded record.1.library record.1.id record.1.versionSize localPath
        localChecksum none false t') := by
  obtain ⟨rfl, hopen⟩ := upsertAssetRow_ok h
  constructor
  · intro r'' hr''
    obtain ⟨r', hr', hstep⟩ := Table.mem_update.mp hr''
    rcases Table.mem_upsert hr' with ⟨rfl, -⟩ | ⟨r, hr, hkey, rfl⟩ | ⟨hr, hkey⟩
    · have hversion : AssetRow.isVersion record.1.library record.1.id record.1.versionSize
          (seenRow record.1 (record.1.metadata.withHash host) now) = true := isVersion_of_key rfl
      rw [if_pos hversion] at hstep
      exact .inl (hstep ▸ .adopted)
    · have hversion : AssetRow.isVersion record.1.library record.1.id record.1.versionSize
          (r.seen record.1 (record.1.metadata.withHash host) now) = true := isVersion_of_key hkey
      rw [if_pos hversion] at hstep
      exact .inr ⟨r, hr, hstep ▸ .adopted hkey (hopen r hr hkey)⟩
    · have hother : AssetRow.isVersion record.1.library record.1.id record.1.versionSize r' =
          false := decide_eq_false hkey
      rw [hother, if_neg Bool.false_ne_true] at hstep
      exact .inr ⟨r', hr, hstep ▸ .same rfl⟩
  · intro r hr
    refine .inl ⟨_, Table.mem_update_of_mem (Table.mem_upsert_of_mem hr), ?_⟩
    by_cases hkey : r.key = record.1.key
    · have hversion : AssetRow.isVersion record.1.library record.1.id record.1.versionSize
          (r.seen record.1 (record.1.metadata.withHash host) now) = true := isVersion_of_key hkey
      have hnew : AssetRow.key (seenRow record.1 (record.1.metadata.withHash host) now) =
          record.1.key := rfl
      rw [hnew, if_pos hkey, if_pos hversion]
      exact .adopted hkey (hopen r hr hkey)
    · have hnew : AssetRow.key (seenRow record.1 (record.1.metadata.withHash host) now) =
          record.1.key := rfl
      have hversion : AssetRow.isVersion record.1.library record.1.id record.1.versionSize r =
          false := decide_eq_false hkey
      rw [hnew, if_neg hkey, hversion, if_neg Bool.false_ne_true]
      exact .same rfl

theorem Plain.trans {r r' r'' : AssetRow} (h : Plain r r') (h' : Plain r' r'') : Plain r r'' :=
  ⟨h'.key.trans h.key, h'.checksum.trans h.checksum, h'.createdAt.trans h.createdAt,
    h'.localPath.trans h.localPath, h'.localChecksum.trans h.localChecksum,
    h'.metadataHash.trans h.metadataHash, h'.isDeleted.trans h.isDeleted,
    h'.timezoneOffset.trans h.timezoneOffset, h'.captureRepair.trans h.captureRepair⟩

theorem Plain.ite (h : ∀ r, Plain r (f r)) (r : AssetRow) : Plain r (if p r then f r else r) := by
  split
  · exact h r
  · exact .refl r

theorem Tracked.plain_plain {p q : AssetRow → Bool} {f g : AssetRow → AssetRow}
    (hplain : ∀ r, Plain r (f r)) (hplain' : ∀ r, Plain r (g r))
    (hkeep : ∀ r, op.deletes db r = false) (hf : ∀ r, (f r).key = r.key := by exact fun _ => rfl)
    (hg : ∀ r, (g r).key = r.key := by exact fun _ => rfl) :
    Tracked db op t ((t.update p f hf).update q g hg) := by
  constructor
  · intro r'' hr''
    obtain ⟨r', hr', rfl⟩ := Table.mem_update.mp hr''
    obtain ⟨r, hr, rfl⟩ := Table.mem_update.mp hr'
    exact .inr ⟨r, hr, .plain (hkeep r) ((Plain.ite hplain r).trans (Plain.ite hplain' _))⟩
  · intro r hr
    exact .inl ⟨_, Table.mem_update_of_mem (Table.mem_update_of_mem hr),
      .plain (hkeep r) ((Plain.ite hplain r).trans (Plain.ite hplain' _))⟩

/-- A deletion marks its rows, none of which has a prepared receipt. -/
theorem softDelete_tracked {operation : String} {deletedAt : Option Int}
    (hdeletes : ∀ r, op.deletes db r = p r)
    (h : softDelete operation p deletedAt db.assets = .ok t') : Tracked db op db.assets t' := by
  unfold softDelete at h
  split at h
  · contradiction
  · next hguard =>
      cases h
      refine .update (fun r hr hp => .deleted ((hdeletes r).trans hp) ?_ deletedAt)
        (fun r hr hp => (hdeletes r).trans hp)
      by_contra hprepared
      rw [Bool.not_eq_false] at hprepared
      refine hguard (List.any_eq_true.mpr ⟨r, hr, ?_⟩)
      rw [hp, hprepared]
      rfl

theorem recorded_tracked {pending : PendingMetadataRewrite} {outputChecksum : String}
    {outputSize : Nat} {receipt : Option CaptureRepairReceipt}
    (h : recordCaptureRepairPrepared pending outputChecksum outputSize db.assets =
      .ok (t', receipt)) :
    Tracked db (.recordCaptureRepairPrepared pending outputChecksum outputSize : Op host)
      db.assets t' := by
  unfold recordCaptureRepairPrepared at h
  split at h
  · contradiction
  · next hchecksum =>
      split at h
      · contradiction
      · next selected hselected =>
          split at h
          · contradiction
          · split at h
            · cases h
              exact .refl (fun r => rfl)
            · next inputChecksum hinput =>
                split at h
                · contradiction
                · next hsize =>
                  cases h
                  refine .update (fun r hr hp => ?_) (fun r _ _ => rfl)
                  simp only [Bool.and_eq_true, decide_eq_true_eq] at hp
                  obtain ⟨⟨⟨⟨hkey, hlive⟩, hhash⟩, hlocal⟩, hcolumns⟩ := hp
                  have hset : ({ r with captureRepair :=
                        { r.captureRepair with
                          outputChecksum := some outputChecksum,
                          outputSize := some (outputSize : Int) } } : AssetRow) =
                      { r with captureRepair :=
                        ⟨some selected.metadataHash, some outputChecksum,
                          some (outputSize : Int)⟩ } := by
                    have hfirst : r.captureRepair.metadataHash = some selected.metadataHash := by
                      rw [hcolumns]
                      cases selected <;> rfl
                    rw [← hfirst]
                  rw [hset]
                  exact .recorded hkey hlive hselected hhash hcolumns hchecksum
                    (hlocal.trans hinput.symm) (Nat.not_lt.mp hsize)

theorem refresh_tracked (library assetId : String) (metadata : SeenMetadata host)
    (mark repair : Bool) (now : Int) :
    Tracked db (.refreshDownloadedAssetMetadata library assetId metadata mark repair now)
      db.assets
      (refreshDownloadedAssetMetadata host library assetId metadata.1 mark repair now
        db.assets) := by
  unfold refreshDownloadedAssetMetadata
  refine .update (fun r hr hp => ?_) (fun r _ _ => rfl)
  simp only [Bool.and_eq_true, Bool.not_eq_true'] at hp
  obtain ⟨⟨hasset, hlive⟩, hblocked⟩ := hp
  refine .refreshed hasset hlive (fun hprepared => ?_)
  by_contra hne
  have hnot := List.any_eq_false.mp hblocked r hr
  simp [hasset, hlive, hprepared, hne] at hnot

theorem downloaded_tracked (library id versionSize localPath localChecksum : String)
    (downloadChecksum : Option String) (mark : Bool) :
    Tracked db (.markDownloaded library id versionSize localPath localChecksum downloadChecksum
      mark : Op host) db.assets
      (updateStatusToDownloaded library id versionSize localPath localChecksum downloadChecksum
        mark db.assets) := by
  unfold updateStatusToDownloaded
  exact .update (fun r _ hp => .downloaded (of_decide_eq_true hp)) (fun r _ _ => rfl)

theorem finish_tracked {pending : PendingMetadataRewrite} {queue : MetadataRewriteQueue}
    {localChecksum preRewriteChecksum : Option String} {completion : MetadataRewriteCompletion}
    {retired : Bool}
    (h : finishMetadataRewrite pending queue localChecksum preRewriteChecksum completion
      db.assets = .ok (t', retired)) :
    Tracked db (.finishMetadataRewrite pending queue localChecksum preRewriteChecksum completion :
      Op host) db.assets t' := by
  unfold finishMetadataRewrite at h
  split at h
  · contradiction
  · next hallowed =>
      cases h
      exact .update (fun r hr hp => .finished hp hallowed) (fun r _ _ => rfl)

/-- **What an operation does to the rows.** -/
theorem run_tracked {db db' : SqliteStateDb} (h : op.run db = .ok db') :
    Tracked db op db.assets db'.assets := by
  cases op with
  | upsertSeen record now =>
      obtain ⟨assets, hassets, hdone⟩ := bind_ok h
      cases hdone
      exact upsert_tracked hassets
  | markDownloaded library id versionSize localPath localChecksum downloadChecksum mark =>
      simp only [Op.run] at h
      split at h
      · contradiction
      · cases h
        exact downloaded_tracked library id versionSize localPath localChecksum downloadChecksum
          mark
  | importAdopt record localPath localChecksum now =>
      obtain ⟨assets, hassets, hdone⟩ := bind_ok h
      cases hdone
      exact adopt_tracked hassets
  | markFailed library id versionSize error =>
      obtain ⟨assets, hassets, hdone⟩ := bind_ok h
      cases hdone
      unfold markFailed at hassets
      dsimp only at hassets
      split at hassets
      · contradiction
      · cases hassets
        refine .plain (fun r => ?_) (fun r => ?_)
        · exact ⟨rfl, rfl, rfl, rfl, rfl, rfl, rfl, rfl, rfl⟩
        · rfl
  | prepareForRetry library retention =>
      cases h
      refine .plain_plain (fun r => ?_) (fun r => ?_) (fun r => ?_)
      · exact ⟨rfl, rfl, rfl, rfl, rfl, rfl, rfl, rfl, rfl⟩
      · exact ⟨rfl, rfl, rfl, rfl, rfl, rfl, rfl, rfl, rfl⟩
      · rfl
  | promotePendingToFailed | markPolicyExcluded | touchLastSeenMany | markHiddenAtSource
  | recordMetadataWriteFailure =>
      cases h
      refine .plain (fun r => ?_) (fun r => ?_)
      · exact ⟨rfl, rfl, rfl, rfl, rfl, rfl, rfl, rfl, rfl⟩
      · rfl
  | pruneStalePendingNotSeenSince | prunePendingAssetVersions =>
      cases h
      exact .delete (fun r hp => hp) (fun r => rfl)
  | markSoftDeleted | resolveSourceDeleted | markMasterFamilySoftDeleted
  | resolveMasterFamilySourceDeleted =>
      obtain ⟨assets, hassets, hdone⟩ := bind_ok h
      cases hdone
      exact softDelete_tracked (fun r => rfl) hassets
  | recordCaptureRepairPrepared pending outputChecksum outputSize =>
      obtain ⟨⟨assets, receipt⟩, hassets, hdone⟩ := bind_ok h
      cases hdone
      exact recorded_tracked hassets
  | refreshDownloadedAssetMetadata library assetId metadata markForRewrite mark now =>
      cases h
      exact refresh_tracked library assetId metadata markForRewrite mark now
  | finishMetadataRewrite pending queue localChecksum preRewriteChecksum completion =>
      obtain ⟨⟨assets, retired⟩, hassets, hdone⟩ := bind_ok h
      cases hdone
      exact finish_tracked hassets
  | upsertAssetMasterMapping | setAssetVerification | clearAssetVerification =>
      cases h
      exact .refl (fun r => rfl)

/-! ## runs -/

theorem apply_cases (db : SqliteStateDb) (op : Op host) :
    op.apply db = db ∨ Tracked db op db.assets (op.apply db).assets := by
  unfold Op.apply
  cases h : op.run db with
  | ok db' => exact .inr (run_tracked h)
  | error e => exact .inl rfl

theorem runOps_snoc (db : SqliteStateDb) (ops : List (Op host)) (op : Op host) :
    runOps db (ops ++ [op]) = op.apply (runOps db ops) :=
  List.foldl_concat _ _ _ _

/-- What fresh rows have and every change keeps, the rows of every run have. -/
theorem runOps_rows {P : AssetRow → Prop} (hfresh : ∀ (op : Op host) r, Fresh op r → P r)
    (hchange : ∀ db (op : Op host) r r', Change db op r r' → P r → P r')
    (ops : List (Op host)) : ∀ r ∈ (runOps .empty ops).assets.rows, P r := by
  induction ops using List.reverseRecOn with
  | nil => exact fun r hr => absurd hr List.not_mem_nil
  | append_singleton ops op ih =>
      rw [runOps_snoc]
      rcases apply_cases (runOps .empty ops) op with hsame | htracked
      · rw [hsame]
        exact ih
      · intro r' hr'
        rcases htracked.back r' hr' with hnew | ⟨r, hr, hstep⟩
        · exact hfresh op r' hnew
        · exact hchange _ op r r' hstep (ih r hr)

end Kei.StateDb
