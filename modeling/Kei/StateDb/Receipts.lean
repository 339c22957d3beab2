import Kei.StateDb.Steps

/-!
# Kei.StateDb.Receipts

The capture-repair receipts of the rows.

A receipt is empty, a hash, or a hash with an output, and its hash is the one
of the row's metadata.  Every change of a row keeps this, so the queue of the
receipts can be read in every state that a run reaches.
-/

namespace Kei.StateDb

variable {host : Host}

/-! ## well-formed receipts -/

/-- The receipt, for a row with the given metadata hash. -/
inductive CaptureRepair.WellFormed (metadataHash : Option String) : CaptureRepair → Prop where
  | null : WellFormed metadataHash .null
  | pending {h : String} (hne : h ≠ "") (hrow : metadataHash = some h) :
      WellFormed metadataHash ⟨some h, none, none⟩
  | prepared {h o : String} {n : Int} (hne : h ≠ "") (hrow : metadataHash = some h) (ho : o ≠ "")
      (hn : 0 ≤ n) : WellFormed metadataHash ⟨some h, some o, some n⟩

/-- The row has the hash of some metadata, and a receipt for that hash. -/
structure RowOk (host : Host) (r : AssetRow) : Prop where
  hashed : ∃ fields, r.metadata.metadataHash = some (host.computeHash fields)
  receipt : r.captureRepair.WellFormed r.metadata.metadataHash

variable {r : AssetRow}

theorem RowOk.hash_ne (h : RowOk host r) :
    ∃ hash, r.metadata.metadataHash = some hash ∧ hash ≠ "" := by
  obtain ⟨fields, hfields⟩ := h.hashed
  exact ⟨_, hfields, host.computeHash_ne fields⟩

variable {metadataHash hash : Option String} {c : CaptureRepair}

theorem wellFormed_hashOnly (h : ∃ s, hash = some s ∧ s ≠ "") :
    CaptureRepair.WellFormed hash ⟨hash, none, none⟩ := by
  obtain ⟨s, rfl, hne⟩ := h
  exact .pending hne rfl

theorem isPrepared_columns {s o : String} {n : Int} (hne : s ≠ "") (ho : o ≠ "") (hn : 0 ≤ n) :
    CaptureRepair.isPrepared ⟨some s, some o, some n⟩ = true := by
  simp [CaptureRepair.isPrepared, notEmpty, nonNegative, hne, ho, hn]

theorem wellFormed_upserted (h : c.WellFormed metadataHash) (sameMedia : Bool)
    (hhash : ∃ s, hash = some s ∧ s ≠ "")
    (hopen : sameMedia = true → c.isPrepared = true → c.metadataHash = hash) :
    (c.upserted sameMedia hash).WellFormed hash := by
  cases sameMedia with
  | false => exact .null
  | true =>
      cases h with
      | null => exact .null
      | @pending s hne hrow =>
          have harm : CaptureRepair.upserted ⟨some s, none, none⟩ true hash =
              ⟨hash, none, none⟩ := by
            simp [CaptureRepair.upserted, CaptureRepair.isNull, CaptureRepair.isPending, notEmpty,
              hne]
          rw [harm]
          exact wellFormed_hashOnly hhash
      | @prepared s o n hne hrow ho hn =>
          have hprepared := isPrepared_columns hne ho hn
          have hsame : some s = hash := hopen rfl hprepared
          subst hsame
          have harm : CaptureRepair.upserted ⟨some s, some o, some n⟩ true (some s) =
              ⟨some s, some o, some n⟩ := by
            simp [CaptureRepair.upserted, CaptureRepair.isNull, CaptureRepair.isPending, hprepared]
          rw [harm]
          exact .prepared hne rfl ho hn

theorem wellFormed_refreshed (h : c.WellFormed metadataHash) (mark : Bool)
    (hhash : ∃ s, hash = some s ∧ s ≠ "")
    (hopen : c.isPrepared = true → c.metadataHash = hash) :
    (c.refreshed hash mark).WellFormed hash := by
  cases h with
  | null =>
      cases mark with
      | false => exact .null
      | true => exact wellFormed_hashOnly hhash
  | @pending s hne hrow =>
      have harm : CaptureRepair.refreshed ⟨some s, none, none⟩ hash mark = ⟨hash, none, none⟩ := by
        simp [CaptureRepair.refreshed, CaptureRepair.isNull, CaptureRepair.isPending,
          CaptureRepair.isPrepared, notEmpty, hne]
      rw [harm]
      exact wellFormed_hashOnly hhash
  | @prepared s o n hne hrow ho hn =>
      have hprepared := isPrepared_columns hne ho hn
      have hsame : some s = hash := hopen hprepared
      subst hsame
      have harm : CaptureRepair.refreshed ⟨some s, some o, some n⟩ (some s) mark =
          ⟨some s, some o, some n⟩ := by
        simp [CaptureRepair.refreshed, hprepared]
      rw [harm]
      exact .prepared hne rfl ho hn

theorem wellFormed_dropOutput (h : c.WellFormed metadataHash) :
    CaptureRepair.WellFormed metadataHash ⟨c.metadataHash, none, none⟩ := by
  cases h with
  | null => exact .null
  | pending hne hrow => exact .pending hne hrow
  | prepared hne hrow ho hn => exact .pending hne hrow

/-! ## changes keep them -/

theorem rowOk_downloadedAs (h : RowOk host r) (localPath localChecksum : String)
    (downloadChecksum : Option String) (mark : Bool) :
    RowOk host (r.downloadedAs localPath localChecksum downloadChecksum mark) := by
  refine ⟨h.hashed, ?_⟩
  cases mark with
  | true => exact wellFormed_hashOnly h.hash_ne
  | false =>
      by_cases hsame : r.localChecksum = some localChecksum
      · simpa [AssetRow.downloadedAs, hsame] using h.receipt
      · have hnull : (r.downloadedAs localPath localChecksum downloadChecksum false).captureRepair =
            .null := by
          simp [AssetRow.downloadedAs, hsame, CaptureRepair.null]
        rw [hnull]
        exact .null

theorem withHash_ne {m : AssetMetadata} (h : m.Hashed host) :
    ∃ s, (m.withHash host).metadataHash = some s ∧ s ≠ "" :=
  ⟨_, withHash_metadataHash h, host.computeHash_ne _⟩

theorem rowOk_seen (h : RowOk host r) (record : SeenRecord host) (now : Int)
    (hopen : r.checksum = record.1.checksum → r.captureRepair.isPrepared = true →
      r.captureRepair.metadataHash = (record.1.metadata.withHash host).metadataHash) :
    RowOk host (r.seen record.1 (record.1.metadata.withHash host) now) := by
  refine ⟨⟨_, withHash_metadataHash record.2⟩, ?_⟩
  exact wellFormed_upserted h.receipt _ (withHash_ne record.2)
    (fun hsame hprepared => hopen (of_decide_eq_true hsame) hprepared)

theorem rowOk_seenRow (record : SeenRecord host) (now : Int) :
    RowOk host (seenRow record.1 (record.1.metadata.withHash host) now) :=
  ⟨⟨_, withHash_metadataHash record.2⟩, .null⟩

theorem rowOk_fresh {op : Op host} (h : Fresh op r) : RowOk host r := by
  cases h with
  | seen => exact rowOk_seenRow _ _
  | adopted => exact rowOk_downloadedAs (rowOk_seenRow _ _) _ _ _ _

/-- **Every change keeps the receipt of a row well formed.** -/
theorem rowOk_change {db : SqliteStateDb} {op : Op host} {r r' : AssetRow}
    (hchange : Change db op r r') (h : RowOk host r) : RowOk host r' := by
  cases hchange with
  | plain hkeep hplain =>
      obtain ⟨hhashed, hreceipt⟩ := h
      rw [← hplain.metadataHash] at hhashed hreceipt
      rw [← hplain.captureRepair] at hreceipt
      exact ⟨hhashed, hreceipt⟩
  | seen hkey hopen => exact rowOk_seen h _ _ hopen
  | downloaded hkey => exact rowOk_downloadedAs h _ _ _ _
  | adopted hkey hopen => exact rowOk_downloadedAs (rowOk_seen h _ _ hopen) _ _ _ _
  | deleted hdeletes hopen deletedAt => exact ⟨h.hashed, h.receipt⟩
  | @recorded pending receipt outputChecksum outputSize _ hkey hlive hreceipt hhash hcolumns
      hchecksum hlocal =>
      obtain ⟨s, hs, hne⟩ := h.hash_ne
      have hreceiptHash : receipt.metadataHash = s := by
        rw [hhash] at hs
        exact Option.some.inj hs
      exact ⟨h.hashed, .prepared (hreceiptHash ▸ hne) hhash hchecksum (Int.natCast_nonneg _)⟩
  | @refreshed library assetId metadata mark repair now _ hasset hlive hopen =>
      exact ⟨⟨_, withHash_metadataHash metadata.2⟩,
        wellFormed_refreshed h.receipt repair (withHash_ne metadata.2) hopen⟩
  | @finished pending queue localChecksum preRewriteChecksum completion _ hselected hallowed =>
      refine ⟨h.hashed, ?_⟩
      cases hclears : completion.clears .captureRepair with
      | true =>
          have hnull : (r.finished localChecksum preRewriteChecksum completion).captureRepair =
              .null := by
            simp [AssetRow.finished, hclears, CaptureRepair.null]
          rw [hnull]
          exact .null
      | false =>
          by_cases hsame : r.localChecksum = localChecksum
          · simpa [AssetRow.finished, hclears, hsame] using h.receipt
          · simpa [AssetRow.finished, hclears, hsame] using wellFormed_dropOutput h.receipt

theorem rowOk_runOps (ops : List (Op host)) :
    ∀ r ∈ (runOps .empty ops).assets.rows, RowOk host r :=
  runOps_rows (fun _ _ => rowOk_fresh) (fun _ _ _ _ => rowOk_change) ops

theorem receiptOf_wellFormed (h : c.WellFormed metadataHash) :
    ∃ receipt, receiptOf c = .ok receipt := by
  cases h with
  | null => exact ⟨none, rfl⟩
  | @pending s hne hrow => exact ⟨_, if_pos hne⟩
  | @prepared s o n hne hrow ho hn => exact ⟨_, if_pos ⟨hne, ho, hn⟩⟩

/-- **No run of the store makes a malformed receipt.** -/
theorem runOps_receipt (ops : List (Op host)) :
    ∀ r ∈ (runOps .empty ops).assets.rows,
      (r.captureRepair = .null ∨
        (∃ h, h ≠ "" ∧ r.captureRepair = ⟨some h, none, none⟩) ∨
        ∃ h o n, h ≠ "" ∧ o ≠ "" ∧ 0 ≤ n ∧ r.captureRepair = ⟨some h, some o, some n⟩) ∧
      (r.captureRepair.metadataHash.isSome = true →
        r.captureRepair.metadataHash = r.metadata.metadataHash) ∧
      ∃ pending, rowToPendingMetadataRewrite r = .ok pending := by
  intro r hr
  have hreceipt := (rowOk_runOps ops r hr).receipt
  refine ⟨?_, ?_, ?_⟩
  · generalize r.captureRepair = c at hreceipt
    cases hreceipt with
    | null => exact .inl rfl
    | pending hne hrow => exact .inr (.inl ⟨_, hne, rfl⟩)
    | prepared hne hrow ho hn => exact .inr (.inr ⟨_, _, _, hne, ho, hn, rfl⟩)
  · intro hsome
    generalize r.captureRepair = c at hreceipt hsome
    cases hreceipt with
    | null => contradiction
    | pending hne hrow => exact hrow.symm
    | prepared hne hrow ho hn => exact hrow.symm
  · obtain ⟨receipt, hread⟩ := receiptOf_wellFormed hreceipt
    refine ⟨⟨r.toAssetRecord, receipt⟩, ?_⟩
    rw [rowToPendingMetadataRewrite, hread]

/-! ## a prepared row -/

/-- A readable hash. -/
def plainHost : Host where
  computeHash fields := (if fields.isDeleted then "deleted:" else "live:") ++ fields.details
  computeHash_ne fields := by
    intro h
    have hlength := congrArg String.length h
    split at hlength <;> simp at hlength

def plainMetadata : AssetMetadata := ⟨⟨false, false, none, none, "d"⟩, none⟩

def plainRecord (versionSize : String) (metadata : AssetMetadata) : AssetRecord :=
  { library := "PrimarySync", id := "a", versionSize := versionSize, checksum := "c",
    createdAt := 0, status := .pending, localPath := none, lastSeenAt := 0,
    downloadAttempts := 0, lastError := none, localChecksum := none, metadata := metadata }

theorem plainRecord_hashed (versionSize : String) :
    (plainRecord versionSize plainMetadata).metadata.Hashed plainHost := .inl rfl

/-- What the drain selected: the record downloaded as "s". -/
def plainPending (receipt : CaptureRepairReceipt) : PendingMetadataRewrite :=
  { asset := { plainRecord "original" (plainMetadata.withHash plainHost) with
      status := .downloaded, localPath := some "/a", localChecksum := some "s" },
    captureRepairReceipt := some receipt }

/-- The asset is seen, downloaded for a repair, and its repair is prepared. -/
def preparing : List (Op plainHost) :=
  [.upsertSeen ⟨plainRecord "original" plainMetadata, plainRecord_hashed "original"⟩ 1,
    .markDownloaded "PrimarySync" "a" "original" "/a" "s" none true,
    .recordCaptureRepairPrepared (plainPending (.pending "live:d")) "o" 5]

def preparedRow : AssetRow :=
  { (plainPending (.pending "live:d")).asset with
    lastSeenAt := 1, downloadChecksum := none, metadataWriteFailedAt := none,
    captureRepair := ⟨some "live:d", some "o", some 5⟩ }

/-- The receipt of a prepared row can be read. -/
theorem runOps_receipt_prepared :
    ∃ pending, rowToPendingMetadataRewrite preparedRow = .ok pending :=
  (runOps_receipt preparing preparedRow (by decide +kernel)).2.2

end Kei.StateDb
