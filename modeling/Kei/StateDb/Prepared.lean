import Kei.StateDb.Receipts

/-!
# Kei.StateDb.Prepared

Prepared receipts stay.

A row with a prepared receipt is not deleted at the source, and what an
operation leaves of the receipt depends on the operation alone: `Op.Releases`
lists those that replace or drop it.  The hash of live metadata is not the one
of deleted metadata; this is what keeps a deletion from passing the guards of
an upsert.
-/

namespace Kei.StateDb

variable {host : Host}

/-! ## arms that leave a prepared receipt -/

variable {c : CaptureRepair}

theorem upserted_prepared {metadataHash hash : Option String} {sameMedia : Bool}
    (h : c.WellFormed metadataHash) (hprepared : (c.upserted sameMedia hash).isPrepared = true) :
    sameMedia = true ∧ c.isPrepared = true ∧ c.metadataHash = hash := by
  cases sameMedia with
  | false => contradiction
  | true =>
      cases h with
      | null => contradiction
      | pending hne hrow =>
          simp [CaptureRepair.upserted, CaptureRepair.isNull, CaptureRepair.isPending,
            CaptureRepair.isPrepared, notEmpty, hne] at hprepared
      | @prepared s o n hne hrow ho hn =>
          have hold := isPrepared_columns hne ho hn
          refine ⟨rfl, hold, ?_⟩
          by_contra hdiffers
          have hdiffers : ¬ some s = hash := hdiffers
          simp [CaptureRepair.upserted, CaptureRepair.isNull, CaptureRepair.isPending, hold,
            hdiffers] at hprepared
          simp [CaptureRepair.isPrepared, notEmpty] at hprepared

/-- An upsert of the same media under the same hash keeps the receipt. -/
theorem upserted_of_prepared (hprepared : c.isPrepared = true) :
    c.upserted true c.metadataHash = c := by
  obtain ⟨hash, checksum, size⟩ := c
  cases hash with
  | none => contradiction
  | some s =>
      cases checksum with
      | none => simp [CaptureRepair.isPrepared, notEmpty] at hprepared
      | some o => simp [CaptureRepair.upserted, CaptureRepair.isNull, CaptureRepair.isPending,
          hprepared]

theorem refreshed_prepared {metadataHash hash : Option String} {mark : Bool}
    (h : c.WellFormed metadataHash) (hprepared : (c.refreshed hash mark).isPrepared = true) :
    c.isPrepared = true := by
  cases h with
  | null => cases mark <;> simp [CaptureRepair.refreshed, CaptureRepair.isPrepared,
      CaptureRepair.isNull, CaptureRepair.isPending, CaptureRepair.null, notEmpty] at hprepared
  | pending hne hrow =>
      simp [CaptureRepair.refreshed, CaptureRepair.isPrepared, CaptureRepair.isNull,
        CaptureRepair.isPending, notEmpty, hne] at hprepared
  | prepared hne hrow ho hn => exact isPrepared_columns hne ho hn

theorem refreshed_of_prepared {hash : Option String} {mark : Bool}
    (hprepared : c.isPrepared = true) : c.refreshed hash mark = c := by
  simp [CaptureRepair.refreshed, hprepared]

/-! ## prepared rows are live -/

/-- The hash covers the deletion. -/
def Host.HashesDeletion (host : Host) : Prop :=
  ∀ a b, host.computeHash a = host.computeHash b → a.isDeleted = b.isDeleted

/-- A row that is not deleted has the hash of metadata that is not deleted, and a row with a
prepared receipt is not deleted. -/
structure RowLive (host : Host) (r : AssetRow) : Prop where
  ok : RowOk host r
  hashed : r.metadata.isDeleted = false →
    ∃ fields, fields.isDeleted = false ∧ r.metadata.metadataHash = some (host.computeHash fields)
  live : r.captureRepair.isPrepared = true → r.metadata.isDeleted = false

variable {r : AssetRow}

theorem RowLive.open_live (hhash : host.HashesDeletion) (h : RowLive host r)
    (hprepared : r.captureRepair.isPrepared = true) {m : AssetMetadata} (hm : m.Hashed host)
    (hopen : r.captureRepair.metadataHash = (m.withHash host).metadataHash) :
    m.isDeleted = false := by
  obtain ⟨fields, hdeleted, hrow⟩ := h.hashed (h.live hprepared)
  have hsame : r.captureRepair.metadataHash = r.metadata.metadataHash := by
    have hreceipt := h.ok.receipt
    generalize r.captureRepair = c at hreceipt hprepared
    cases hreceipt with
    | null => contradiction
    | pending hne hrow' => exact hrow'.symm
    | prepared hne hrow' ho hn => exact hrow'.symm
  rw [withHash_metadataHash hm, hsame, hrow] at hopen
  rw [← hdeleted]
  exact (hhash _ _ (Option.some.inj hopen)).symm

theorem rowLive_seen (hhash : host.HashesDeletion) (h : RowLive host r) (record : SeenRecord host)
    (now : Int) (hopen : r.checksum = record.1.checksum → r.captureRepair.isPrepared = true →
      r.captureRepair.metadataHash = (record.1.metadata.withHash host).metadataHash) :
    RowLive host (r.seen record.1 (record.1.metadata.withHash host) now) := by
  refine ⟨rowOk_seen h.ok record now hopen, fun hdeleted => ?_, fun hprepared => ?_⟩
  · exact ⟨_, hdeleted, withHash_metadataHash record.2⟩
  · obtain ⟨hsame, hold, heq⟩ := upserted_prepared h.ok.receipt hprepared
    have hrecord : record.1.metadata.isDeleted = false := h.open_live hhash hold record.2 heq
    exact hrecord

theorem rowLive_seenRow (record : SeenRecord host) (now : Int) :
    RowLive host (seenRow record.1 (record.1.metadata.withHash host) now) :=
  ⟨rowOk_seenRow record now, fun hdeleted => ⟨_, hdeleted, withHash_metadataHash record.2⟩,
    fun hprepared => by contradiction⟩

theorem downloadedAs_prepared {localPath localChecksum : String} {downloadChecksum : Option String}
    {mark : Bool}
    (h : (r.downloadedAs localPath localChecksum downloadChecksum mark).captureRepair.isPrepared =
      true) : r.captureRepair.isPrepared = true := by
  cases mark with
  | true => simp [AssetRow.downloadedAs, CaptureRepair.isPrepared, notEmpty] at h
  | false =>
      by_cases hsame : r.localChecksum = some localChecksum
      · simpa [AssetRow.downloadedAs, hsame] using h
      · simp [AssetRow.downloadedAs, hsame, CaptureRepair.isPrepared, notEmpty] at h

theorem rowLive_downloadedAs (h : RowLive host r) (localPath localChecksum : String)
    (downloadChecksum : Option String) (mark : Bool) :
    RowLive host (r.downloadedAs localPath localChecksum downloadChecksum mark) :=
  ⟨rowOk_downloadedAs h.ok _ _ _ _, h.hashed, fun hprepared =>
    h.live (downloadedAs_prepared hprepared)⟩

theorem finished_prepared {localChecksum preRewriteChecksum : Option String}
    {completion : MetadataRewriteCompletion}
    (h : (r.finished localChecksum preRewriteChecksum completion).captureRepair.isPrepared = true) :
    r.captureRepair.isPrepared = true := by
  cases hclears : completion.clears .captureRepair with
  | true => simp [AssetRow.finished, hclears, CaptureRepair.isPrepared, notEmpty] at h
  | false =>
      by_cases hsame : r.localChecksum = localChecksum
      · simpa [AssetRow.finished, hclears, hsame] using h
      · simp [AssetRow.finished, hclears, hsame, CaptureRepair.isPrepared, notEmpty] at h

variable {op : Op host}

theorem rowLive_fresh (h : Fresh op r) : RowLive host r := by
  cases h with
  | seen => exact rowLive_seenRow _ _
  | adopted => exact rowLive_downloadedAs (rowLive_seenRow _ _) _ _ _ _

theorem rowLive_change (hhash : host.HashesDeletion) {db : SqliteStateDb} {r r' : AssetRow}
    (hchange : Change db op r r') (h : RowLive host r) : RowLive host r' := by
  have hok := rowOk_change hchange h.ok
  cases hchange with
  | plain hkeep hplain =>
      refine ⟨hok, fun hdeleted => ?_, fun hprepared => ?_⟩
      · rw [hplain.isDeleted] at hdeleted
        rw [hplain.metadataHash]
        exact h.hashed hdeleted
      · rw [hplain.captureRepair] at hprepared
        rw [hplain.isDeleted]
        exact h.live hprepared
  | seen hkey hopen => exact rowLive_seen hhash h _ _ hopen
  | downloaded hkey => exact rowLive_downloadedAs h _ _ _ _
  | adopted hkey hopen => exact rowLive_downloadedAs (rowLive_seen hhash h _ _ hopen) _ _ _ _
  | deleted hdeletes hopen deletedAt =>
      refine ⟨hok, fun hdeleted => by contradiction, fun hprepared => ?_⟩
      have hprepared : r.captureRepair.isPrepared = true := hprepared
      rw [hopen] at hprepared
      contradiction
  | recorded hkey hlive hreceipt hhash' hcolumns hchecksum hlocal =>
      refine ⟨hok, h.hashed, fun _ => ?_⟩
      rw [AssetRow.isLiveDownload, Bool.and_eq_true, Bool.not_eq_true'] at hlive
      exact hlive.2
  | @refreshed library assetId metadata mark repair now _ hasset hlive hopen =>
      refine ⟨hok, fun hdeleted => ⟨_, hdeleted, withHash_metadataHash metadata.2⟩,
        fun hprepared => ?_⟩
      have hold := refreshed_prepared h.ok.receipt hprepared
      have hmetadata : metadata.1.isDeleted = false :=
        h.open_live hhash hold metadata.2 (hopen hold)
      exact hmetadata
  | finished hselected hallowed =>
      exact ⟨hok, h.hashed, fun hprepared => h.live (finished_prepared hprepared)⟩

theorem rowLive_runOps (hhash : host.HashesDeletion) (ops : List (Op host)) :
    ∀ r ∈ (runOps .empty ops).assets.rows, RowLive host r :=
  runOps_rows (fun _ _ => rowLive_fresh) (fun _ _ _ _ => rowLive_change hhash) ops

/-! ## what ends a receipt -/

/-- The operations that replace or drop the receipt of a row: new media, a download of other
bytes or with a new request for a repair, another prepared output, a finished rewrite; and the
pruning of a pending row. -/
def Op.Releases (r : AssetRow) : Op host → Prop
  | .upsertSeen record _ => record.1.key = r.key ∧ record.1.checksum ≠ r.checksum
  | .markDownloaded library id versionSize _ localChecksum _ mark =>
      r.key = ⟨library, id, versionSize⟩ ∧ (mark = true ∨ r.localChecksum ≠ some localChecksum)
  | .importAdopt record _ localChecksum _ =>
      record.1.key = r.key ∧
        (record.1.checksum ≠ r.checksum ∨ r.localChecksum ≠ some localChecksum)
  | .recordCaptureRepairPrepared pending outputChecksum outputSize =>
      pending.asset.key = r.key ∧
        (r.captureRepair.outputChecksum ≠ some outputChecksum ∨
          r.captureRepair.outputSize ≠ some (outputSize : Int))
  | .finishMetadataRewrite pending queue localChecksum _ completion =>
      r.isSelected pending queue completion = true ∧
        (completion.clears .captureRepair = true ∨ r.localChecksum ≠ localChecksum)
  | op => op.prunes r = true

/-- **Every other operation keeps the receipt.** -/
theorem change_keeps_receipt {db : SqliteStateDb} {r r' : AssetRow} (hchange : Change db op r r')
    (hprepared : r.captureRepair.isPrepared = true) (hkept : ¬ op.Releases r) :
    r'.captureRepair = r.captureRepair := by
  cases hchange with
  | plain hkeep hplain => exact hplain.captureRepair
  | @seen record now _ hkey hopen =>
      have hmedia : r.checksum = record.1.checksum := by
        by_contra hne
        exact hkept ⟨hkey.symm, Ne.symm hne⟩
      show r.captureRepair.upserted (r.checksum = record.1.checksum) _ = r.captureRepair
      rw [← hopen hmedia hprepared, decide_eq_true hmedia]
      exact upserted_of_prepared hprepared
  | @downloaded library id versionSize localPath localChecksum downloadChecksum mark _ hkey =>
      have hmark : mark = false := by
        by_contra hne
        exact hkept ⟨hkey, .inl (Bool.not_eq_false _ ▸ hne)⟩
      have hlocal : r.localChecksum = some localChecksum := by
        by_contra hne
        exact hkept ⟨hkey, .inr hne⟩
      subst hmark
      simp [AssetRow.downloadedAs, hlocal]
  | @adopted record localPath localChecksum now _ hkey hopen =>
      have hmedia : r.checksum = record.1.checksum := by
        by_contra hne
        exact hkept ⟨hkey.symm, .inl (Ne.symm hne)⟩
      have hlocal : r.localChecksum = some localChecksum := by
        by_contra hne
        exact hkept ⟨hkey.symm, .inr hne⟩
      have hseen : (r.seen record.1 (record.1.metadata.withHash host) now).captureRepair =
          r.captureRepair := by
        show r.captureRepair.upserted (r.checksum = record.1.checksum) _ = r.captureRepair
        rw [← hopen hmedia hprepared, decide_eq_true hmedia]
        exact upserted_of_prepared hprepared
      have hsame : (r.seen record.1 (record.1.metadata.withHash host) now).localChecksum =
          some localChecksum := hlocal
      simp [AssetRow.downloadedAs, hsame, hseen]
  | deleted hdeletes hopen deletedAt => rfl
  | @recorded pending receipt outputChecksum outputSize _ hkey hlive hreceipt hhash hcolumns
      hchecksum hlocal =>
      have hoc : r.captureRepair.outputChecksum = some outputChecksum := by
        by_contra hne
        exact hkept ⟨hkey.symm, .inl hne⟩
      have hos : r.captureRepair.outputSize = some (outputSize : Int) := by
        by_contra hne
        exact hkept ⟨hkey.symm, .inr hne⟩
      have hmh : r.captureRepair.metadataHash = some receipt.metadataHash := by
        rw [hcolumns]
        cases receipt <;> rfl
      rw [← hoc, ← hos, ← hmh]
  | refreshed hasset hlive hopen => exact refreshed_of_prepared hprepared
  | @finished pending queue localChecksum preRewriteChecksum completion _ hselected hallowed =>
      have hclears : completion.clears .captureRepair = false := by
        by_contra hne
        exact hkept ⟨hselected, .inl (Bool.not_eq_false _ ▸ hne)⟩
      have hsame : r.localChecksum = localChecksum := by
        by_contra hne
        exact hkept ⟨hselected, .inr hne⟩
      simp [AssetRow.finished, hclears, hsame]

theorem releases_of_prunes (h : op.prunes r = true) : op.Releases r := by
  cases op with
  | pruneStalePendingNotSeenSince library seenSince => exact h
  | prunePendingAssetVersions library assetVersions => exact h
  | _ => contradiction

/-- No step of the run releases the row of the key. -/
def Undisturbed (key : Key) : SqliteStateDb → List (Op host) → Prop
  | _, [] => True
  | db, op :: ops =>
      (∀ r ∈ db.assets.rows, r.key = key → ¬ op.Releases r) ∧ Undisturbed key (op.apply db) ops

/-- **A prepared receipt stays, on a live row, until a step releases it.** -/
theorem prepared_receipt_stays (hhash : host.HashesDeletion) (ops later : List (Op host))
    (r : AssetRow) (hr : r ∈ (runOps .empty ops).assets.rows)
    (hprepared : r.captureRepair.isPrepared = true)
    (hundisturbed : Undisturbed r.key (runOps .empty ops) later) :
    ∃ r' ∈ (runOps (runOps .empty ops) later).assets.rows, r'.key = r.key ∧
      r'.metadata.isDeleted = false ∧ r'.captureRepair = r.captureRepair := by
  induction later generalizing ops r with
  | nil => exact ⟨r, hr, rfl, (rowLive_runOps hhash ops r hr).live hprepared, rfl⟩
  | cons op later ih =>
      obtain ⟨hkept, hlater⟩ := hundisturbed
      have hkept := hkept r hr rfl
      have hnext : ∃ r' ∈ (op.apply (runOps .empty ops)).assets.rows, r'.key = r.key ∧
          r'.captureRepair = r.captureRepair := by
        rcases apply_cases (runOps .empty ops) op with hsame | htracked
        · rw [hsame]
          exact ⟨r, hr, rfl, rfl⟩
        · rcases htracked.forth r hr with ⟨r', hr', hchange⟩ | hpruned
          · exact ⟨r', hr', hchange.key, change_keeps_receipt hchange hprepared hkept⟩
          · exact absurd (releases_of_prunes hpruned) hkept
      obtain ⟨r', hr', hkey, hreceipt⟩ := hnext
      rw [← runOps_snoc] at hr' hlater
      rw [← hkey] at hlater
      rw [← hreceipt] at hprepared
      obtain ⟨r'', hr'', hkey'', hlive'', hreceipt''⟩ := ih (ops ++ [op]) r' hr' hprepared hlater
      refine ⟨r'', ?_, hkey''.trans hkey, hlive'', hreceipt''.trans hreceipt⟩
      rw [runOps_snoc] at hr''
      exact hr''

/-! ## a prepared row -/

theorem plainHost_hashesDeletion : plainHost.HashesDeletion := by
  intro a b h
  have hlist := congrArg String.toList h
  cases ha : a.isDeleted <;> cases hb : b.isDeleted <;>
    simp [plainHost, ha, hb] at hlist ⊢

def deletion : Op plainHost := .markSoftDeleted "PrimarySync" "a" (some 9)

/-- A deletion at the source does not hide the receipt. -/
theorem prepared_receipt_stays_deletion :
    ∃ r ∈ (runOps (runOps .empty preparing) [deletion]).assets.rows,
      r.key = preparedRow.key ∧ r.metadata.isDeleted = false ∧
        r.captureRepair = preparedRow.captureRepair :=
  prepared_receipt_stays plainHost_hashesDeletion preparing [deletion] preparedRow
    (by decide +kernel) (by decide +kernel)
    ⟨fun _ _ _ hreleases => Bool.noConfusion hreleases, trivial⟩

/-- A rerun prepares other bytes. -/
def preparedAgain : Op plainHost :=
  .recordCaptureRepairPrepared (plainPending (.prepared "live:d" "o" 5)) "p" 7

/-- The same bytes are downloaded, with a new request for a repair. -/
def downloadedAgain : Op plainHost :=
  .markDownloaded "PrimarySync" "a" "original" "/a" "s" none true

/-- A rerun replaces the receipt, and a download of the same bytes drops its output. -/
theorem prepared_receipt_replaced :
    preparedRow ∈ (runOps .empty preparing).assets.rows ∧
      (∃ r ∈ (runOps (runOps .empty preparing) [preparedAgain]).assets.rows,
        r.key = preparedRow.key ∧ r.captureRepair = ⟨some "live:d", some "p", some 7⟩) ∧
      ∃ r ∈ (runOps (runOps .empty preparing) [downloadedAgain]).assets.rows,
        r.key = preparedRow.key ∧ r.localChecksum = preparedRow.localChecksum ∧
          r.checksum = preparedRow.checksum ∧ r.captureRepair = ⟨some "live:d", none, none⟩ := by
  decide +kernel

end Kei.StateDb
