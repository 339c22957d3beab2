import Kei.StateDb.Steps

/-!
# Kei.StateDb.Statuses

What the status of a row says about its other columns, and which rows go.
-/

namespace Kei.StateDb

variable {host : Host} {db db' : SqliteStateDb} {op : Op host} {t t' : AssetTable}

/-! ## statuses -/

/-- The path and the error of a row are those of its status. -/
def AssetRow.StatusOk (r : AssetRow) : Prop :=
  match r.status with
  | .pending => True
  | .downloaded => r.localPath.isSome = true ∧ r.lastError = none
  | .failed => r.lastError.isSome = true
  | .policyExcluded => r.lastError = none

theorem AssetRow.StatusOk.seen {r : AssetRow} {record : AssetRecord} {metadata : AssetMetadata}
    {now : Int} (h : r.StatusOk) : (r.seen record metadata now).StatusOk := by
  unfold AssetRow.StatusOk AssetRow.seen
  split_ifs
  · trivial
  · exact h

def StatusesOk (rows : List AssetRow) : Prop := ∀ r ∈ rows, r.StatusOk

variable {rows : List AssetRow}

theorem StatusesOk.update (h : StatusesOk rows) {p : AssetRow → Bool} {f : AssetRow → AssetRow}
    (hf : ∀ r, p r = true → r.StatusOk → (f r).StatusOk) :
    StatusesOk (rows.map (fun r => if p r then f r else r)) := by
  intro r' hr'
  obtain ⟨r, hr, rfl⟩ := List.mem_map.mp hr'
  split
  · next hp => exact hf r hp (h r hr)
  · exact h r hr

theorem StatusesOk.upsert {record : AssetRecord} {now : Int} (h : StatusesOk t.rows)
    (hrun : upsertAssetRow host record now t = .ok t') : StatusesOk t'.rows := by
  rw [(upsertAssetRow_ok hrun).1]
  intro r' hr'
  rcases Table.mem_upsert hr' with ⟨rfl, -⟩ | ⟨r, hr, -, rfl⟩ | ⟨hr, -⟩
  · trivial
  · exact (h r hr).seen
  · exact h r' hr

theorem StatusesOk.softDelete {operation : String} {p : AssetRow → Bool} {deletedAt : Option Int}
    (h : StatusesOk t.rows) (hrun : softDelete operation p deletedAt t = .ok t') :
    StatusesOk t'.rows := by
  unfold StateDb.softDelete at hrun
  split at hrun
  · contradiction
  · cases hrun
    exact h.update fun _ _ hr => hr

theorem StatusesOk.run (hdb : StatusesOk db.assets.rows) (h : op.run db = .ok db') :
    StatusesOk db'.assets.rows := by
  cases op with
  | upsertSeen record now =>
      obtain ⟨assets, hassets, hdone⟩ := bind_ok h
      cases hdone
      exact hdb.upsert hassets
  | markDownloaded library id versionSize localPath localChecksum downloadChecksum mark =>
      simp only [Op.run] at h
      split at h
      · contradiction
      · cases h
        exact hdb.update fun _ _ _ => ⟨rfl, rfl⟩
  | importAdopt record localPath localChecksum now =>
      obtain ⟨assets, hassets, hdone⟩ := bind_ok h
      cases hdone
      exact (hdb.upsert hassets).update fun _ _ _ => ⟨rfl, rfl⟩
  | markFailed library id versionSize error =>
      obtain ⟨assets, hassets, hdone⟩ := bind_ok h
      cases hdone
      unfold markFailed at hassets
      dsimp only at hassets
      split at hassets
      · contradiction
      · cases hassets
        exact hdb.update fun _ _ _ => rfl
  | prepareForRetry library retention =>
      cases h
      refine StatusesOk.update (hdb.update fun _ _ _ => ?_) fun r hp _ => ?_
      · trivial
      · simp only [Bool.and_eq_true, decide_eq_true_eq] at hp
        simp only [AssetRow.StatusOk, hp.1.1]
  | promotePendingToFailed seenSince =>
      cases h
      exact hdb.update fun _ _ _ => rfl
  | pruneStalePendingNotSeenSince | prunePendingAssetVersions =>
      cases h
      exact fun r hr => hdb r (Table.mem_delete.mp hr).1
  | markPolicyExcluded library id versionSize =>
      cases h
      exact hdb.update fun _ _ _ => rfl
  | markSoftDeleted | resolveSourceDeleted | markMasterFamilySoftDeleted
  | resolveMasterFamilySourceDeleted =>
      obtain ⟨assets, hassets, hdone⟩ := bind_ok h
      cases hdone
      exact hdb.softDelete hassets
  | touchLastSeenMany | markHiddenAtSource | recordMetadataWriteFailure
  | refreshDownloadedAssetMetadata =>
      cases h
      exact hdb.update fun _ _ hr => hr
  | recordCaptureRepairPrepared pending outputChecksum outputSize =>
      obtain ⟨⟨assets, receipt⟩, hassets, hdone⟩ := bind_ok h
      cases hdone
      unfold recordCaptureRepairPrepared at hassets
      repeat' split at hassets
      all_goals cases hassets
      · exact hdb
      all_goals exact hdb.update fun _ _ hr => hr
  | finishMetadataRewrite pending queue localChecksum preRewriteChecksum completion =>
      obtain ⟨⟨assets, retired⟩, hassets, hdone⟩ := bind_ok h
      cases hdone
      unfold finishMetadataRewrite at hassets
      split at hassets
      · contradiction
      · cases hassets
        exact hdb.update fun _ _ hr => hr
  | upsertAssetMasterMapping | setAssetVerification | clearAssetVerification =>
      cases h
      exact hdb

/-- **A row is as its status says**, in every state of the store. -/
theorem runOps_statusesOk (ops : List (Op host)) :
    StatusesOk (runOps .empty ops).assets.rows := by
  induction ops using List.reverseRecOn with
  | nil => exact fun r hr => absurd hr List.not_mem_nil
  | append_singleton ops op ih =>
      rw [runOps_snoc, Op.apply]
      cases hrun : op.run (runOps .empty ops) with
      | ok db' => exact ih.run hrun
      | error e => exact ih

/-! ## rows that go -/

/-- The keys of the pending rows that a run prunes. -/
def prunedKeys (db : SqliteStateDb) : List (Op host) → List Key
  | [] => []
  | op :: ops =>
      (db.assets.rows.filter (fun r => r.status = .pending && op.prunes r)).map AssetRow.key ++
        prunedKeys (op.apply db) ops

/-- **The store forgets nothing else**: a row is there after a run if it was there before, unless
it was pruned while it was pending. -/
theorem runOps_keeps_keys (db : SqliteStateDb) (ops : List (Op host)) :
    db.assets.rows.map AssetRow.key ⊆
      (runOps db ops).assets.rows.map AssetRow.key ++ prunedKeys db ops := by
  induction ops generalizing db with
  | nil => exact List.subset_append_left _ _
  | cons op ops ih =>
      intro key hkey
      obtain ⟨r, hr, rfl⟩ := List.mem_map.mp hkey
      have hlater (h : r.key ∈ (op.apply db).assets.rows.map AssetRow.key) :
          r.key ∈ (runOps db (op :: ops)).assets.rows.map AssetRow.key ++
            prunedKeys db (op :: ops) := by
        rcases List.mem_append.mp (ih _ h) with hkept | hpruned
        · exact List.mem_append_left _ hkept
        · exact List.mem_append_right _ (List.mem_append_right _ hpruned)
      rcases apply_cases db op with hsame | htracked
      · exact hlater (by rwa [hsame])
      · rcases htracked.forth r hr with ⟨r', hr', hchange⟩ | hprunes
        · exact hlater (hchange.key ▸ List.mem_map_of_mem hr')
        · refine List.mem_append_right _ (List.mem_append_left _ (List.mem_map_of_mem ?_))
          have hpending : r.status = .pending := by
            cases op <;> simp_all [Op.prunes]
          exact List.mem_filter.mpr ⟨hr, by simp [hpending, hprunes]⟩

end Kei.StateDb
