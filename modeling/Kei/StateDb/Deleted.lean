import Kei.StateDb.Prepared

/-!
# Kei.StateDb.Deleted

The deletion flag of the versions of an asset.

A deletion at the source marks every version of an asset, but seeing a
version again writes the flag of that version alone, and new metadata reaches
only the downloaded versions.  `Op.Splits` says when such a write leaves the
versions of an asset apart; `uniform_iff` shows that nothing else does.
-/

namespace Kei.StateDb

variable {host : Host}

def AssetRow.SameAsset (r r' : AssetRow) : Prop := r.library = r'.library ∧ r.id = r'.id

/-- The versions of an asset have one deletion flag. -/
def Uniform (t : AssetTable) : Prop :=
  ∀ r ∈ t.rows, ∀ r' ∈ t.rows, r.SameAsset r' → r.metadata.isDeleted = r'.metadata.isDeleted

/-- Another version of the record has another flag. -/
def OtherVersionDiffers (record : AssetRecord) (t : AssetTable) : Prop :=
  ∃ r ∈ t.rows, r.library = record.library ∧ r.id = record.id ∧ r.key ≠ record.key ∧
    r.metadata.isDeleted ≠ record.metadata.isDeleted

/-- The write reaches some versions of an asset, and leaves another with another flag. -/
def Op.Splits (db : SqliteStateDb) : Op host → Prop
  | .upsertSeen record _ =>
      upsertBlocked host record.1 db.assets = false ∧ OtherVersionDiffers record.1 db.assets
  | .importAdopt record _ _ _ =>
      upsertBlocked host record.1 db.assets = false ∧ OtherVersionDiffers record.1 db.assets
  | .refreshDownloadedAssetMetadata library assetId metadata _ _ _ =>
      refreshBlocked library assetId (metadata.1.withHash host).metadataHash db.assets = false ∧
        metadata.1.isDeleted = true ∧
        (∃ r ∈ db.assets.rows, r.isAsset library assetId = true ∧ r.isLiveDownload = true) ∧
        ∃ r ∈ db.assets.rows, r.isAsset library assetId = true ∧ r.isLiveDownload = false
  | _ => False

/-! ## a record is written -/

/-- The rows after one record was written: its own row has its flag, the others stay. -/
structure Writes (record : AssetRecord) (t t' : AssetTable) : Prop where
  back : ∀ r ∈ t'.rows, (r.key = record.key ∧ r.metadata.isDeleted = record.metadata.isDeleted) ∨
    (r ∈ t.rows ∧ r.key ≠ record.key)
  here : ∃ r ∈ t'.rows, r.key = record.key
  others : ∀ r ∈ t.rows, r.key ≠ record.key → r ∈ t'.rows

theorem key_eq_iff {r r' : AssetRecord} :
    r.key = r'.key ↔ r.library = r'.library ∧ r.id = r'.id ∧ r.versionSize = r'.versionSize := by
  unfold AssetRecord.key
  rw [Key.mk.injEq]

/-- A written record splits its asset exactly if another version differs. -/
theorem Writes.uniform_iff {record : AssetRecord} {t t' : AssetTable} (h : Writes record t t')
    (huniform : Uniform t) : Uniform t' ↔ ¬ OtherVersionDiffers record t := by
  constructor
  · rintro huniform' ⟨r, hr, hlibrary, hid, hkey, hdiffers⟩
    obtain ⟨own, hown, hownKey⟩ := h.here
    obtain ⟨hownLibrary, hownId, -⟩ := key_eq_iff.mp hownKey
    have hflag : own.metadata.isDeleted = record.metadata.isDeleted := by
      rcases h.back own hown with ⟨-, hflag⟩ | ⟨-, hne⟩
      · exact hflag
      · exact absurd hownKey hne
    refine hdiffers ?_
    rw [← hflag]
    exact huniform' r (h.others r hr hkey) own hown
      ⟨hlibrary.trans hownLibrary.symm, hid.trans hownId.symm⟩
  · intro hsame r hr r' hr' hasset
    -- an old row of the asset of the record has its flag
    have hold {q : AssetRow} (hq : q ∈ t.rows) (hkey : q.key ≠ record.key)
        (hlibrary : q.library = record.library) (hid : q.id = record.id) :
        q.metadata.isDeleted = record.metadata.isDeleted := by
      by_contra hne
      exact hsame ⟨q, hq, hlibrary, hid, hkey, hne⟩
    rcases h.back r hr with ⟨hkey, hflag⟩ | ⟨hmem, hkey⟩
    · obtain ⟨hlibrary, hid, -⟩ := key_eq_iff.mp hkey
      rcases h.back r' hr' with ⟨-, hflag'⟩ | ⟨hmem', hkey'⟩
      · rw [hflag, hflag']
      · rw [hflag, hold hmem' hkey' (hasset.1.symm.trans hlibrary) (hasset.2.symm.trans hid)]
    · rcases h.back r' hr' with ⟨hkey', hflag'⟩ | ⟨hmem', -⟩
      · obtain ⟨hlibrary, hid, -⟩ := key_eq_iff.mp hkey'
        rw [hflag', hold hmem hkey (hasset.1.trans hlibrary) (hasset.2.trans hid)]
      · exact huniform r hmem r' hmem' hasset

theorem upsert_writes {record : SeenRecord host} {now : Int} {t t' : AssetTable}
    (h : upsertAssetRow host record.1 now t = .ok t') : Writes record.1 t t' := by
  obtain ⟨rfl, -⟩ := upsertAssetRow_ok h
  refine ⟨fun r hr => ?_, ?_, fun r hr hkey => ?_⟩
  · rcases Table.mem_upsert hr with ⟨rfl, -⟩ | ⟨q, hq, hkey, rfl⟩ | ⟨hmem, hkey⟩
    · exact .inl ⟨rfl, rfl⟩
    · exact .inl ⟨hkey, rfl⟩
    · exact .inr ⟨hmem, hkey⟩
  · exact Table.exists_mem_upsert t _ _ _
  · exact Table.mem_upsert_of_ne hr hkey

theorem adopt_writes {record : SeenRecord host} {localPath localChecksum : String} {now : Int}
    {t t' : AssetTable} (h : upsertAssetRow host record.1 now t = .ok t') :
    Writes record.1 t (updateStatusToDownloaded record.1.library record.1.id record.1.versionSize
      localPath localChecksum none false t') := by
  have hseen := upsert_writes h
  refine ⟨fun r hr => ?_, ?_, fun r hr hkey => ?_⟩
  · obtain ⟨q, hq, rfl⟩ := Table.mem_update.mp hr
    split
    · next hversion =>
        rcases hseen.back q hq with ⟨hkey, hflag⟩ | ⟨-, hkey⟩
        · exact .inl ⟨hkey, hflag⟩
        · exact absurd (of_decide_eq_true hversion) hkey
    · exact hseen.back q hq
  · obtain ⟨q, hq, hkey⟩ := hseen.here
    refine ⟨_, Table.mem_update_of_mem hq, ?_⟩
    split <;> exact hkey
  · have hother : AssetRow.isVersion record.1.library record.1.id record.1.versionSize r = false :=
      decide_eq_false hkey
    refine Table.mem_update.mpr ⟨r, hseen.others r hr hkey, ?_⟩
    rw [hother, if_neg Bool.false_ne_true]

/-! ## new metadata -/

theorem isAsset_iff {library id : String} {r : AssetRow} :
    r.isAsset library id = true ↔ r.library = library ∧ r.id = id := by
  simp [AssetRow.isAsset]

theorem isLiveDownload_iff {r : AssetRow} :
    r.isLiveDownload = true ↔ r.status = .downloaded ∧ r.metadata.isDeleted = false := by
  simp [AssetRow.isLiveDownload]

section refresh

variable (library assetId : String) (metadata : AssetMetadata) (t : AssetTable)

/-- The refresh writes the row. -/
def Reaches (host : Host) (r : AssetRow) : Bool :=
  r.isAsset library assetId && r.isLiveDownload &&
    !refreshBlocked library assetId (metadata.withHash host).metadataHash t

/-- The flag of a row after a refresh. -/
def flagAfter (host : Host) (r : AssetRow) : Bool :=
  if Reaches library assetId metadata t host r then metadata.isDeleted else r.metadata.isDeleted

variable {library assetId metadata t} {mark repair : Bool}

theorem refresh_forth {now : Int} {q : AssetRow} (hq : q ∈ t.rows) :
    ∃ r ∈ (refreshDownloadedAssetMetadata host library assetId metadata mark repair now t).rows,
      q.SameAsset r ∧ r.metadata.isDeleted = flagAfter library assetId metadata t host q := by
  have hkey : ∀ r, (AssetRow.refreshed (metadata.withHash host) mark repair now r).key = r.key :=
    fun _ => rfl
  have hmem : (if Reaches library assetId metadata t host q then
        q.refreshed (metadata.withHash host) mark repair now else q) ∈
      (t.update (Reaches library assetId metadata t host)
        (AssetRow.refreshed (metadata.withHash host) mark repair now) hkey).rows :=
    Table.mem_update_of_mem hq
  refine ⟨_, hmem, ?_, ?_⟩
  · split <;> exact ⟨rfl, rfl⟩
  · unfold flagAfter
    split <;> rfl

theorem refresh_back {now : Int} {r : AssetRow}
    (hr : r ∈ (refreshDownloadedAssetMetadata host library assetId metadata mark repair now
      t).rows) :
    ∃ q ∈ t.rows, q.SameAsset r ∧
      r.metadata.isDeleted = flagAfter library assetId metadata t host q := by
  unfold refreshDownloadedAssetMetadata at hr
  obtain ⟨q, hq, hstep⟩ := Table.mem_update.mp hr
  have hstep : (if Reaches library assetId metadata t host q then
      q.refreshed (metadata.withHash host) mark repair now else q) = r := hstep
  refine ⟨q, hq, ?_, ?_⟩
  · rw [← hstep]
    split <;> exact ⟨rfl, rfl⟩
  · rw [← hstep]
    unfold flagAfter
    split <;> rfl

/-- New metadata splits an asset exactly if it is deleted and does not reach all versions. -/
theorem refresh_uniform_iff {now : Int} (huniform : Uniform t) :
    Uniform (refreshDownloadedAssetMetadata host library assetId metadata mark repair now t) ↔
      ¬ (refreshBlocked library assetId (metadata.withHash host).metadataHash t = false ∧
        metadata.isDeleted = true ∧
        (∃ r ∈ t.rows, r.isAsset library assetId = true ∧ r.isLiveDownload = true) ∧
        ∃ r ∈ t.rows, r.isAsset library assetId = true ∧ r.isLiveDownload = false) := by
  constructor
  · rintro huniform' ⟨hopen, hdeleted, ⟨r, hr, hasset, hlive⟩, r', hr', hasset', hlive'⟩
    have hsame : r.SameAsset r' := by
      obtain ⟨hlibrary, hid⟩ := isAsset_iff.mp hasset
      obtain ⟨hlibrary', hid'⟩ := isAsset_iff.mp hasset'
      exact ⟨hlibrary.trans hlibrary'.symm, hid.trans hid'.symm⟩
    have hflag : flagAfter library assetId metadata t host r = true := by
      simp [flagAfter, Reaches, hasset, hlive, hopen, hdeleted]
    have hflag' : flagAfter library assetId metadata t host r' = false := by
      have hold := huniform r hr r' hr' hsame
      rw [(isLiveDownload_iff.mp hlive).2] at hold
      simp [flagAfter, Reaches, hlive', ← hold]
    have hforth : ∀ q ∈ t.rows, ∃ q' ∈ (refreshDownloadedAssetMetadata host library assetId
        metadata mark repair now t).rows, q.SameAsset q' ∧
          q'.metadata.isDeleted = flagAfter library assetId metadata t host q :=
      fun q hq => refresh_forth hq
    obtain ⟨q, hq, hqr, hqflag⟩ := hforth r hr
    obtain ⟨q', hq', hqr', hqflag'⟩ := hforth r' hr'
    have hboth := huniform' q hq q' hq'
      ⟨hqr.1.symm.trans (hsame.1.trans hqr'.1), hqr.2.symm.trans (hsame.2.trans hqr'.2)⟩
    rw [hqflag, hqflag', hflag, hflag'] at hboth
    contradiction
  · intro hsame r hr r' hr' hasset
    obtain ⟨q, hq, hqr, hflag⟩ := refresh_back hr
    obtain ⟨q', hq', hqr', hflag'⟩ := refresh_back hr'
    have hqq : q.SameAsset q' :=
      ⟨hqr.1.trans (hasset.1.trans hqr'.1.symm), hqr.2.trans (hasset.2.trans hqr'.2.symm)⟩
    have hold := huniform q hq q' hq' hqq
    rw [hflag, hflag']
    -- a row that is reached beside one that is not
    have hbeside {a b : AssetRow} (ha : a ∈ t.rows) (hb : b ∈ t.rows) (hab : a.SameAsset b)
        (hflags : a.metadata.isDeleted = b.metadata.isDeleted)
        (hreached : Reaches library assetId metadata t host a = true)
        (hmissed : Reaches library assetId metadata t host b = false) :
        metadata.isDeleted = b.metadata.isDeleted := by
      simp only [Reaches, Bool.and_eq_true, Bool.not_eq_true'] at hreached
      obtain ⟨⟨hasset, hlive⟩, hopen⟩ := hreached
      obtain ⟨hlibrary, hid⟩ := isAsset_iff.mp hasset
      have hassetB : b.isAsset library assetId = true :=
        isAsset_iff.mpr ⟨hab.1.symm.trans hlibrary, hab.2.symm.trans hid⟩
      have hmissed : b.isLiveDownload = false := by
        simpa [Reaches, hassetB, hopen] using hmissed
      have hnot : metadata.isDeleted = false := by
        by_contra hdeleted
        exact hsame ⟨hopen, Bool.not_eq_false _ ▸ hdeleted, ⟨a, ha, hasset, hlive⟩, b, hb, hassetB,
          hmissed⟩
      rw [hnot, ← hflags, (isLiveDownload_iff.mp hlive).2]
    unfold flagAfter
    cases hreach : Reaches library assetId metadata t host q with
    | true =>
        cases hreach' : Reaches library assetId metadata t host q' with
        | true => rfl
        | false => exact hbeside hq hq' hqq hold hreach hreach'
    | false =>
        cases hreach' : Reaches library assetId metadata t host q' with
        | true => exact (hbeside hq' hq ⟨hqq.1.symm, hqq.2.symm⟩ hold.symm hreach' hreach).symm
        | false => exact hold

end refresh

/-! ## every operation -/

theorem deletes_congr (db : SqliteStateDb) (op : Op host) {r r' : AssetRow}
    (h : r.SameAsset r') : op.deletes db r = op.deletes db r' := by
  obtain ⟨hlibrary, hid⟩ := h
  cases op <;> simp [Op.deletes, AssetRow.isAsset, AssetRow.isFamily, hlibrary, hid]

/-- Operations that write the flag of a single version. -/
def Op.flagsVersion : Op host → Bool
  | .upsertSeen .. | .importAdopt .. | .refreshDownloadedAssetMetadata .. => true
  | _ => false

theorem change_flag {db : SqliteStateDb} {op : Op host} {r r' : AssetRow}
    (h : Change db op r r') (hnone : op.flagsVersion = false) :
    r'.metadata.isDeleted = (op.deletes db r || r.metadata.isDeleted) := by
  cases h with
  | plain hkeep hplain => rw [hkeep, hplain.isDeleted, Bool.false_or]
  | seen hkey hopen => contradiction
  | downloaded hkey => rfl
  | adopted hkey hopen => contradiction
  | deleted hdeletes hopen deletedAt =>
      rw [hdeletes, Bool.true_or]
      rfl
  | recorded hkey hlive hreceipt hhash hcolumns hchecksum hlocal => rfl
  | refreshed hasset hlive hopen => contradiction
  | finished hselected hallowed => rfl

theorem uniform_of_tracked {db : SqliteStateDb} {op : Op host} {t' : AssetTable}
    (h : Tracked db op db.assets t') (huniform : Uniform db.assets)
    (hnone : op.flagsVersion = false) :
    Uniform t' := by
  have hsource : ∀ r' ∈ t'.rows, ∃ r ∈ db.assets.rows, r.SameAsset r' ∧
      r'.metadata.isDeleted = (op.deletes db r || r.metadata.isDeleted) := by
    intro r' hr'
    rcases h.back r' hr' with hfresh | ⟨r, hr, hchange⟩
    · cases hfresh with
      | seen => contradiction
      | adopted => contradiction
    · obtain ⟨hlibrary, hid, -⟩ := key_eq_iff.mp hchange.key
      exact ⟨r, hr, ⟨hlibrary.symm, hid.symm⟩, change_flag hchange hnone⟩
  intro a ha b hb hab
  obtain ⟨r, hr, hra, hflag⟩ := hsource a ha
  obtain ⟨r', hr', hrb, hflag'⟩ := hsource b hb
  have hrr : r.SameAsset r' :=
    ⟨hra.1.trans (hab.1.trans hrb.1.symm), hra.2.trans (hab.2.trans hrb.2.symm)⟩
  rw [hflag, hflag', huniform r hr r' hr' hrr, deletes_congr db op hrr]

theorem upsertAssetRow_cases (host : Host) (record : AssetRecord) (now : Int) (t : AssetTable) :
    (upsertBlocked host record t = true ∧
        upsertAssetRow host record now t = .error publicationPending) ∨
      (upsertBlocked host record t = false ∧
        ∃ t', upsertAssetRow host record now t = .ok t') := by
  unfold upsertAssetRow
  cases hblocked : upsertBlocked host record t with
  | true => exact .inl ⟨rfl, rfl⟩
  | false => exact .inr ⟨rfl, _, rfl⟩

/-- **A step keeps the flags of every asset together exactly if it does not split one.** -/
theorem uniform_iff (db : SqliteStateDb) (op : Op host) (huniform : Uniform db.assets) :
    Uniform (op.apply db).assets ↔ ¬ op.Splits db := by
  have hrest (hnone : op.flagsVersion = false) : Uniform (op.apply db).assets := by
    rcases apply_cases db op with hsame | htracked
    · rwa [hsame]
    · exact uniform_of_tracked htracked huniform hnone
  cases op with
  | upsertSeen record now =>
      rcases upsertAssetRow_cases host record.1 now db.assets with
        ⟨hblocked, herror⟩ | ⟨hopen, t', hok⟩
      · have happly : (Op.upsertSeen record now).apply db = db := by
          simp [Op.apply, Op.run, herror, bind, Except.bind]
        rw [happly]
        exact ⟨fun _ h => Bool.noConfusion (hblocked.symm.trans h.1), fun _ => huniform⟩
      · have happly : ((Op.upsertSeen record now).apply db).assets = t' := by
          simp [Op.apply, Op.run, hok, bind, Except.bind, pure, Except.pure]
        rw [happly, (upsert_writes hok).uniform_iff huniform]
        simp [Op.Splits, hopen]
  | importAdopt record localPath localChecksum now =>
      rcases upsertAssetRow_cases host record.1 now db.assets with
        ⟨hblocked, herror⟩ | ⟨hopen, t', hok⟩
      · have happly : (Op.importAdopt record localPath localChecksum now).apply db = db := by
          simp [Op.apply, Op.run, herror, bind, Except.bind]
        rw [happly]
        exact ⟨fun _ h => Bool.noConfusion (hblocked.symm.trans h.1), fun _ => huniform⟩
      · have happly : ((Op.importAdopt record localPath localChecksum now).apply db).assets =
            updateStatusToDownloaded record.1.library record.1.id record.1.versionSize localPath
              localChecksum none false t' := by
          simp [Op.apply, Op.run, hok, bind, Except.bind, pure, Except.pure]
        rw [happly, (adopt_writes hok).uniform_iff huniform]
        simp [Op.Splits, hopen]
  | refreshDownloadedAssetMetadata library assetId metadata mark repair now =>
      exact refresh_uniform_iff huniform
  | _ => exact ⟨fun _ h => h, fun _ => hrest rfl⟩

/-- What the flags of an asset promise. -/
def DeletedAsAWhole (db : SqliteStateDb) : Prop :=
  Uniform db.assets ∧
    ∀ asset ∈ getSoftDeletedDownloadedIds db, ∀ r ∈ db.assets.rows,
      r.library = asset.1 → r.id = asset.2 → r.metadata.isDeleted = true

/-- With one flag for an asset, a deleted download speaks for all versions. -/
theorem deletedAsAWhole_iff (db : SqliteStateDb) : DeletedAsAWhole db ↔ Uniform db.assets := by
  refine ⟨And.left, fun huniform => ⟨huniform, fun asset hasset r hr hlibrary hid => ?_⟩⟩
  obtain ⟨r', hr', rfl⟩ := List.mem_map.mp hasset
  obtain ⟨hmem, hdeleted⟩ := List.mem_filter.mp hr'
  rw [Bool.and_eq_true] at hdeleted
  rw [← hdeleted.2]
  exact huniform r hr r' hmem ⟨hlibrary, hid⟩

/-- **The flags of every asset stay together in a run exactly if no step splits an asset.** -/
theorem deletedAsAWhole_run_iff (ops : List (Op host)) :
    (∀ pre, pre <+: ops → DeletedAsAWhole (runOps .empty pre)) ↔
      ∀ pre op, pre ++ [op] <+: ops → ¬ op.Splits (runOps .empty pre) := by
  simp only [deletedAsAWhole_iff]
  constructor
  · intro h pre op hprefix
    have hbefore := h pre ((List.prefix_append pre [op]).trans hprefix)
    have hafter := h (pre ++ [op]) hprefix
    rw [runOps_snoc] at hafter
    exact (uniform_iff _ op hbefore).mp hafter
  · intro h pre
    induction pre using List.reverseRecOn with
    | nil => exact fun _ r hr => absurd hr List.not_mem_nil
    | append_singleton pre op ih =>
        intro hprefix
        have hbefore := ih ((List.prefix_append pre [op]).trans hprefix)
        rw [runOps_snoc]
        exact (uniform_iff _ op hbefore).mpr (h pre op hprefix)

/-- Both versions of an asset are downloaded, the asset is deleted, and one version is seen
again. -/
def seenAgain : List (Op plainHost) :=
  [.upsertSeen ⟨plainRecord "original" plainMetadata, plainRecord_hashed "original"⟩ 1,
    .upsertSeen ⟨plainRecord "live" plainMetadata, plainRecord_hashed "live"⟩ 1,
    .markDownloaded "PrimarySync" "a" "original" "/a" "s" none false,
    .markDownloaded "PrimarySync" "a" "live" "/b" "t" none false,
    .markSoftDeleted "PrimarySync" "a" (some 2),
    .upsertSeen ⟨plainRecord "original" plainMetadata, plainRecord_hashed "original"⟩ 3]

/-- An asset that was seen live again is reported as deleted. -/
theorem seen_again_reported :
    ("PrimarySync", "a") ∈ getSoftDeletedDownloadedIds (runOps .empty seenAgain) ∧
      ∃ r ∈ (runOps .empty seenAgain).assets.rows, r.library = "PrimarySync" ∧ r.id = "a" ∧
        r.lastSeenAt = 3 ∧ r.metadata.isDeleted = false := by
  decide +kernel

end Kei.StateDb
