import Kei.Lib.Str
import Kei.Lib.Sweep
import Kei.StateDb

/-!
# Kei.Reconcile

Downloaded rows whose files are gone or too short.

The scan of `kei reconcile` reads all pages before it marks a row as failed.
The probe before each cycle is on one page of rows, at an offset that is kept in
the metadata.  The rows it marks leave the pages, so that the next ones go past
some rows; these are found in a later sweep.
-/

namespace Kei.Reconcile

open StateDb Str

/-! ## drift -/

inductive LocalDriftKind where
  | missing
  | truncated (actualSize expectedSize : Nat)
  deriving DecidableEq

def LocalDriftKind.reason : LocalDriftKind → String
  | .missing => "FILE_MISSING_AT_STARTUP"
  | .truncated _ _ => "FILE_TRUNCATED_AT_STARTUP"

/-- The files of the rows.  An answer `none` is an error. -/
structure Disk where
  /-- The size of a file, if there is one. -/
  metadata : String → Option (Option Nat)
  computeSha256 : String → Option String
  /-- The `size_bytes` of a row. -/
  sizeBytes : Key → Nat

/-- `LocalFileSizeExpectation::AtLeastProvider`. -/
def acceptsAtLeast (providerSize actualSize : Nat) : Bool :=
  providerSize = 0 || providerSize ≤ actualSize

def localFileSizeMatchesState (disk : Disk) (path : String) (accepted : Bool)
    (localChecksum downloadChecksum : Option String) : Option Bool :=
  if accepted then
    some true
  else if localChecksum.isSome && downloadChecksum.isSome && localChecksum ≠ downloadChecksum then
    (disk.computeSha256 path).map (fun actual => localChecksum = some actual)
  else
    some false

/-- The drift of a row, and whether it has no path. -/
def classifyLocalDrift (disk : Disk) (r : AssetRow) : Option (Option LocalDriftKind × Bool) :=
  match r.localPath with
  | none => some (none, true)
  | some path => do
      match ← disk.metadata path with
      | none => some (some .missing, false)
      | some actualSize =>
          let sizeBytes := disk.sizeBytes r.key
          if ← localFileSizeMatchesState disk path (acceptsAtLeast sizeBytes actualSize)
              r.localChecksum r.downloadChecksum then
            some (none, false)
          else
            some (some (.truncated actualSize sizeBytes), false)

/-- What is known of the drift of a row; a file that cannot be looked at is not known to drift. -/
def driftOf (disk : Disk) (r : AssetRow) : Option LocalDriftKind :=
  (classifyLocalDrift disk r).bind (·.1)

/-! ## the store -/

def downloadedRows (t : AssetTable) : List AssetRow :=
  t.rows.filter (fun r => r.status = .downloaded)

/-- `ORDER BY rowid LIMIT limit OFFSET offset`. -/
def getDownloadedPage (offset limit : Nat) (t : AssetTable) : List AssetRow :=
  ((downloadedRows t).drop offset).take limit

/-- A call of the store. -/
inductive StoreCall where
  | getSummary
  | getMetadata
  | getDownloadedPage (offset : Nat)
  | setMetadata
  | markFailed (key : Key)

/-- The files, and the calls of the store that fail. -/
structure Env where
  disk : Disk
  fails : StoreCall → Bool

/-- Mark a row that has drifted; whether the call worked. -/
def markDrift (env : Env) (t : AssetTable) (asset : AssetRow) (kind : LocalDriftKind) :
    Bool × AssetTable :=
  if env.fails (.markFailed asset.key) then
    (false, t)
  else
    match markFailed asset.library asset.id asset.versionSize kind.reason t with
    | .ok assets => (true, assets)
    | .error _ => (false, t)

/-! ## the scan -/

def scanPageSize : Nat := 1000

structure ScanCounts where
  present : Nat
  missing : Nat
  damaged : Nat
  noPath : Nat
  deriving DecidableEq

/-- The counts, and the rows that have drifted. -/
abbrev Scan := ScanCounts × List (AssetRow × LocalDriftKind)

def scanRow (disk : Disk) (scan : Scan) (asset : AssetRow) : Option Scan := do
  let (record, noPath) ← classifyLocalDrift disk asset
  if noPath then
    return ({ scan.1 with noPath := scan.1.noPath + 1 }, scan.2)
  else
    match record with
    | none => return ({ scan.1 with present := scan.1.present + 1 }, scan.2)
    | some .missing =>
        return ({ scan.1 with missing := scan.1.missing + 1 }, scan.2 ++ [(asset, .missing)])
    | some (.truncated actualSize expectedSize) =>
        return ({ scan.1 with damaged := scan.1.damaged + 1 },
          scan.2 ++ [(asset, .truncated actualSize expectedSize)])

/-- The pages from an offset on. -/
def scanPages (env : Env) (t : AssetTable) (offset : Nat) (scan : Scan) : Option Scan :=
  if env.fails (.getDownloadedPage offset) then
    none
  else if _ : getDownloadedPage offset scanPageSize t = [] then
    some scan
  else do
    let scan ← (getDownloadedPage offset scanPageSize t).foldlM (scanRow env.disk) scan
    scanPages env t (offset + (getDownloadedPage offset scanPageSize t).length) scan
termination_by (downloadedRows t).length - offset
decreasing_by
  have hpos := List.length_pos_iff.mpr ‹¬getDownloadedPage offset scanPageSize t = []›
  rw [getDownloadedPage, List.length_take, List.length_drop] at *
  omega

def scanLocalDrift (env : Env) (t : AssetTable) : Option Scan :=
  scanPages env t 0 (⟨0, 0, 0, 0⟩, [])

structure ReconcileReport where
  counts : ScanCounts
  markedFailed : Nat
  markErrors : Nat
  deriving DecidableEq

/-- Mark a row of the scan, after `(marked_failed, mark_errors)`. -/
def markScanned (env : Env) (acc : (Nat × Nat) × AssetTable)
    (drifted : AssetRow × LocalDriftKind) : (Nat × Nat) × AssetTable :=
  let marked := markDrift env acc.2 drifted.1 drifted.2
  (if marked.1 then (acc.1.1 + 1, acc.1.2) else (acc.1.1, acc.1.2 + 1), marked.2)

/-- How `kei reconcile` fails. -/
inductive ReconcileError where
  /-- A call or a file failed before any row was marked. -/
  | stopped
  /-- Drifted files could not be marked; the report is printed before. -/
  | unmarked (report : ReconcileReport)

def runReconcile (env : Env) (dryRun : Bool) (t : AssetTable) :
    Except ReconcileError ReconcileReport × AssetTable :=
  if env.fails .getSummary then
    (.error .stopped, t)
  else
    match scanLocalDrift env t with
    | none => (.error .stopped, t)
    | some (counts, drifted) =>
        let marked := if dryRun then ((0, 0), t) else drifted.foldl (markScanned env) ((0, 0), t)
        let report : ReconcileReport := ⟨counts, marked.1.1, marked.1.2⟩
        (if 0 < report.markErrors then .error (.unmarked report) else .ok report, marked.2)

/-! ## the probe -/

def localDriftProbePageSize : Nat := 128

structure LocalDriftProbeOutcome where
  scanned : Nat
  drifted : Nat
  markedFailed : Nat
  markErrors : Nat
  deriving DecidableEq

/-- The rows, and the offset under `local_drift_probe_offset_v1`. -/
structure ProbeState where
  cursor : Option String
  assets : AssetTable

def probeRow (env : Env) (acc : LocalDriftProbeOutcome × AssetTable) (asset : AssetRow) :
    LocalDriftProbeOutcome × AssetTable :=
  match driftOf env.disk asset with
  | none => acc
  | some kind =>
      let outcome := { acc.1 with drifted := acc.1.drifted + 1 }
      let marked := markDrift env acc.2 asset kind
      if marked.1 then
        ({ outcome with markedFailed := outcome.markedFailed + 1 }, marked.2)
      else
        ({ outcome with markErrors := outcome.markErrors + 1 }, marked.2)

/-- The offset of the page of a probe, and the page; behind the last row it is the first one. -/
def probePage (env : Env) (s : ProbeState) : Option (Nat × List AssetRow) :=
  let downloaded := s.assets.count (fun r => r.status = .downloaded)
  if env.fails .getSummary || downloaded = 0 then
    none
  else
    let startOffset :=
      if env.fails .getMetadata then 0
      else (s.cursor.map (fun raw => min ((parseU64 raw).getD 0) downloaded)).getD 0
    let page := getDownloadedPage startOffset localDriftProbePageSize s.assets
    if env.fails (.getDownloadedPage startOffset) then
      none
    else if page.isEmpty && 0 < startOffset then
      if env.fails (.getDownloadedPage 0) then none
      else some (0, getDownloadedPage 0 localDriftProbePageSize s.assets)
    else
      some (startOffset, page)

/-- Where the next probe begins. -/
def nextProbeOffset (downloaded offset scanned : Nat) : Nat :=
  if scanned = 0 || downloaded ≤ offset + scanned || scanned < localDriftProbePageSize then 0
  else offset + scanned

def runBoundedLocalDriftProbe (env : Env) (s : ProbeState) :
    LocalDriftProbeOutcome × ProbeState :=
  match probePage env s with
  | none => (⟨0, 0, 0, 0⟩, s)
  | some (offset, page) =>
      let downloaded := s.assets.count (fun r => r.status = .downloaded)
      let scanned := page.length
      let nextOffset := nextProbeOffset downloaded offset scanned
      let probed := page.foldl (probeRow env) (⟨scanned, 0, 0, 0⟩, s.assets)
      (probed.1,
        { cursor := if env.fails .setMetadata then s.cursor else some (toString nextOffset),
          assets := probed.2 })

/-- The probes of the cycles, one after the other. -/
def runProbes (envs : List Env) (s : ProbeState) : ProbeState :=
  envs.foldl (fun s env => (runBoundedLocalDriftProbe env s).2) s

/-! ## one page -/

variable {env : Env} {page : List AssetRow} {t : AssetTable} {s : ProbeState}

def Env.drifted (env : Env) (r : AssetRow) : Bool := (driftOf env.disk r).isSome

/-- The row is marked. -/
def Env.marks (env : Env) (r : AssetRow) : Bool :=
  env.drifted r && !env.fails (.markFailed r.key)

def Env.marked (env : Env) (r : AssetRow) : AssetRow :=
  r.failedWith ((driftOf env.disk r).elim "" LocalDriftKind.reason)

/-- The rows of a page that are marked, all at once. -/
def markPage (env : Env) (page : List AssetRow) (t : AssetTable) : AssetTable :=
  t.update (fun r => page.contains r && env.marks r) env.marked (fun _ => rfl)

theorem markPage_nil : markPage env [] t = t := Table.update_of_none fun _ _ => rfl

theorem markPage_of_unmarked {asset : AssetRow} (h : env.marks asset = false) :
    markPage env [asset] t = t := by
  refine Table.update_of_none fun r _ => ?_
  by_cases hsame : r = asset <;> simp [hsame, h]

/-- One call marks one row, by its key. -/
theorem markDrift_eq {asset : AssetRow} {kind : LocalDriftKind} (hasset : asset ∈ t.rows)
    (hkind : driftOf env.disk asset = some kind) :
    markDrift env t asset kind = (!env.fails (.markFailed asset.key), markPage env [asset] t) := by
  have hversion (r : AssetRow) (hr : r ∈ t.rows) :
      AssetRow.isVersion asset.library asset.id asset.versionSize r = true ↔ r = asset :=
    ⟨fun h => Table.eq_of_key hr hasset (of_decide_eq_true h), fun h => h ▸ decide_eq_true rfl⟩
  have hcount : t.count (AssetRow.isVersion asset.library asset.id asset.versionSize) ≠ 0 :=
    Nat.ne_of_gt (List.countP_pos_iff.mpr ⟨asset, hasset, (hversion asset hasset).mpr rfl⟩)
  unfold markDrift
  cases hfails : env.fails (.markFailed asset.key) with
  | true => rw [if_pos rfl, markPage_of_unmarked (by simp [Env.marks, Env.drifted, hfails])]; rfl
  | false =>
      rw [if_neg Bool.false_ne_true, markFailed, if_neg hcount]
      refine Prod.ext rfl (Table.eq_of_rows (List.map_congr_left fun r hr => ?_))
      by_cases hsame : r = asset
      · rw [if_pos ((hversion r hr).mpr hsame)]
        simp [hsame, Env.marks, Env.drifted, Env.marked, hkind, hfails]
      · rw [if_neg fun h => hsame ((hversion r hr).mp h)]
        simp [hsame]

/-- A page is marked row by row as it is all at once. -/
theorem foldl_marks {β : Type} {step : β × AssetTable → AssetRow → β × AssetTable}
    {count : β → AssetRow → β} (hstep : ∀ b t, ∀ r ∈ t.rows,
      step (b, t) r = (count b r, markPage env [r] t)) (b : β) (hpage : ∀ r ∈ page, r ∈ t.rows)
    (hnodup : page.Nodup) :
    page.foldl step (b, t) = (page.foldl count b, markPage env page t) := by
  induction page generalizing t b with
  | nil => exact congrArg (b, ·) markPage_nil.symm
  | cons asset rest ih =>
      obtain ⟨hnew, hrest⟩ := List.nodup_cons.mp hnodup
      have hin : ∀ r ∈ rest, r ∈ (markPage env [asset] t).rows := fun r hr =>
        Table.mem_update.mpr ⟨r, hpage r (.tail _ hr), by
          have hne : r ≠ asset := fun h => hnew (h ▸ hr)
          simp [hne]⟩
      have hmany : markPage env rest (markPage env [asset] t) = markPage env (asset :: rest) t := by
        refine Table.eq_of_rows ((List.map_map ..).trans (List.map_congr_left fun r hr => ?_))
        by_cases hsame : r = asset
        · have hout : env.marked asset ∉ rest := fun h =>
            hnew (Table.eq_of_key (hpage _ (.tail _ h)) (hpage _ (.head _)) rfl ▸ h)
          cases hmarks : env.marks asset <;> simp [hsame, hmarks, hnew, hout]
        · simp [hsame]
      rw [List.foldl_cons, List.foldl_cons, hstep b t asset (hpage _ (.head _)), ih _ hin hrest,
        hmany]

/-- What a probe counts for a row. -/
def Env.probed (env : Env) (outcome : LocalDriftProbeOutcome) (r : AssetRow) :
    LocalDriftProbeOutcome :=
  if (driftOf env.disk r).isNone then outcome
  else if env.marks r then
    { outcome with drifted := outcome.drifted + 1, markedFailed := outcome.markedFailed + 1 }
  else
    { outcome with drifted := outcome.drifted + 1, markErrors := outcome.markErrors + 1 }

theorem probeRow_eq (outcome : LocalDriftProbeOutcome) {r : AssetRow} (hr : r ∈ t.rows) :
    probeRow env (outcome, t) r = (env.probed outcome r, markPage env [r] t) := by
  unfold probeRow Env.probed
  cases hdrift : driftOf env.disk r with
  | none => rw [markPage_of_unmarked (by simp [Env.marks, Env.drifted, hdrift])]; rfl
  | some kind =>
      simp only [markDrift_eq hr hdrift]
      cases hfails : env.fails (.markFailed r.key) <;> simp [Env.marks, Env.drifted, hdrift, hfails]

/-- What a reconciliation counts for a row. -/
def Env.counted (env : Env) (counts : Nat × Nat) (r : AssetRow) : Nat × Nat :=
  if (driftOf env.disk r).isNone then counts
  else if env.marks r then (counts.1 + 1, counts.2)
  else (counts.1, counts.2 + 1)

theorem markScanned_eq (counts : Nat × Nat) {r : AssetRow} (hr : r ∈ t.rows) :
    ((driftOf env.disk r).map (r, ·)).elim (counts, t) (markScanned env (counts, t)) =
      (env.counted counts r, markPage env [r] t) := by
  unfold Env.counted
  cases hdrift : driftOf env.disk r with
  | none => rw [markPage_of_unmarked (by simp [Env.marks, Env.drifted, hdrift])]; rfl
  | some kind =>
      simp only [Option.map_some, Option.elim_some, markScanned, markDrift_eq hr hdrift]
      cases hfails : env.fails (.markFailed r.key) <;> simp [Env.marks, Env.drifted, hdrift, hfails]

theorem downloadedRows_markPage :
    downloadedRows (markPage env page t) =
      (downloadedRows t).filter (fun r => !(page.contains r && env.marks r)) := by
  show (t.rows.map _).filter _ = (t.rows.filter _).filter _
  rw [List.filter_map, List.filter_filter]
  have hkeeps (r : AssetRow) : decide ((if page.contains r && env.marks r then env.marked r
      else r).status = .downloaded) =
      (!(page.contains r && env.marks r) && decide (r.status = .downloaded)) := by
    cases hmarks : (page.contains r && env.marks r) with
    | true => rfl
    | false => rfl
  refine (congrArg _ (List.filter_congr fun r _ => hkeeps r)).trans
    ((List.map_congr_left fun r hr => ?_).trans (List.map_id _))
  have hkept := (List.mem_filter.mp hr).2
  rw [Bool.and_eq_true, Bool.not_eq_true'] at hkept
  exact if_neg (Bool.not_eq_true _ ▸ hkept.1)

theorem nodup_downloadedRows (t : AssetTable) : (downloadedRows t).Nodup :=
  (List.Nodup.of_map _ t.primaryKey).filter _

/-! ## the scan -/

/-- The scan counts each row that it has seen once, and has those that drifted. -/
structure Tallies (disk : Disk) (seen : List AssetRow) (scan : Scan) : Prop where
  drifted : scan.2 = seen.filterMap (fun r => (driftOf disk r).map (r, ·))
  drifts : scan.1.missing + scan.1.damaged = scan.2.length
  total : scan.1.present + scan.1.missing + scan.1.damaged + scan.1.noPath = seen.length

variable {disk : Disk} {seen : List AssetRow} {scan scan' : Scan}

theorem driftOf_noPath {r : AssetRow} {kind : Option LocalDriftKind}
    (h : classifyLocalDrift disk r = some (kind, true)) : driftOf disk r = none := by
  unfold driftOf
  rw [h]
  unfold classifyLocalDrift at h
  cases hpath : r.localPath with
  | none => simpa [hpath, eq_comm] using h
  | some path =>
      simp only [hpath, Option.bind_eq_bind, Option.bind_eq_some_iff] at h
      obtain ⟨size, -, h⟩ := h
      cases size with
      | none => simp at h
      | some actualSize =>
          obtain ⟨matching, -, h⟩ := Option.bind_eq_some_iff.mp h
          cases matching <;> simp at h

theorem Tallies.row {r : AssetRow} (h : Tallies disk seen scan)
    (hscan : scanRow disk scan r = some scan') : Tallies disk (seen ++ [r]) scan' := by
  unfold scanRow at hscan
  obtain ⟨⟨kind, noPath⟩, hclass, hscan⟩ := Option.bind_eq_some_iff.mp hscan
  have hkind : driftOf disk r = kind := by rw [driftOf, hclass, Option.bind_some]
  have hdrifted := h.drifted
  have hdrifts := h.drifts
  have htotal := h.total
  cases noPath with
  | true =>
      cases hscan
      have hnone := driftOf_noPath hclass
      refine ⟨by simp [hdrifted, hnone], hdrifts, ?_⟩
      simp
      omega
  | false =>
      cases kind with
      | none =>
          cases hscan
          refine ⟨by simp [hdrifted, hkind], hdrifts, ?_⟩
          simp
          omega
      | some kind =>
          cases kind <;> cases hscan <;>
            refine ⟨by simp [hdrifted, hkind], ?_, ?_⟩ <;> simp <;> omega

theorem Tallies.rows {page : List AssetRow} (h : Tallies disk seen scan)
    (hscan : page.foldlM (scanRow disk) scan = some scan') :
    Tallies disk (seen ++ page) scan' := by
  induction page generalizing seen scan with
  | nil =>
      cases hscan
      rwa [List.append_nil]
  | cons r page ih =>
      rw [List.foldlM_cons] at hscan
      obtain ⟨scan₁, hrow, hscan⟩ := Option.bind_eq_some_iff.mp hscan
      rw [List.append_cons]
      exact ih (h.row hrow) hscan

/-- The pages are the rows, each once. -/
theorem Tallies.pages {offset : Nat}
    (h : Tallies env.disk ((downloadedRows t).take offset) scan)
    (hscan : scanPages env t offset scan = some scan') :
    Tallies env.disk (downloadedRows t) scan' := by
  induction offset, scan using scanPages.induct env t with
  | case1 offset scan hfails => simp [scanPages, hfails] at hscan
  | case2 offset scan hfails hpage =>
      rw [scanPages, if_neg hfails, dif_pos hpage] at hscan
      cases hscan
      rw [getDownloadedPage, List.take_eq_nil_iff] at hpage
      rwa [List.take_of_length_le (List.drop_eq_nil_iff.mp (hpage.resolve_left (by decide)))] at h
  | case3 offset scan hfails hpage ih =>
      rw [scanPages, if_neg hfails, dif_neg hpage] at hscan
      obtain ⟨scan₁, hrows, hscan⟩ := Option.bind_eq_some_iff.mp hscan
      have hpage : getDownloadedPage offset scanPageSize t = ((downloadedRows t).drop offset).take
          (getDownloadedPage offset scanPageSize t).length :=
        List.prefix_iff_eq_take.mp (List.take_prefix _ _)
      refine ih scan₁ ?_ hscan
      rw [List.take_add, ← hpage]
      exact h.rows hrows

/-- Each row that has drifted is counted as marked or as an error. -/
theorem foldl_counted (counts : Nat × Nat) (rows : List AssetRow) :
    (rows.foldl env.counted counts).1 + (rows.foldl env.counted counts).2 =
        counts.1 + counts.2 + rows.countP env.drifted ∧
      (rows.foldl env.counted counts).2 =
        counts.2 + rows.countP (fun r => env.drifted r && !env.marks r) := by
  induction rows generalizing counts with
  | nil => exact ⟨rfl, rfl⟩
  | cons r rows ih =>
      obtain ⟨hsum, herrors⟩ := ih (env.counted counts r)
      rw [List.foldl_cons, List.countP_cons, List.countP_cons, hsum, herrors, Env.counted]
      cases hdrift : driftOf env.disk r with
      | none => simp [Env.drifted, hdrift]
      | some kind => cases hmarks : env.marks r <;> simp [Env.drifted, hdrift] <;> omega

/-- The report counts each downloaded row once. -/
def ReconcileReport.Counts (report : ReconcileReport) (t : AssetTable) : Prop :=
  report.counts.present + report.counts.missing + report.counts.damaged + report.counts.noPath =
    (downloadedRows t).length

/-- Each row that has drifted is marked or counted as an error, and the others are as they were. -/
structure Reconciled (env : Env) (t : AssetTable) (report : ReconcileReport) (t' : AssetTable) :
    Prop where
  counts : report.Counts t
  drifted : report.markedFailed + report.markErrors = report.counts.missing + report.counts.damaged
  rows : t' = markPage env (downloadedRows t) t
  clean : report.markErrors = 0 →
    ∀ r ∈ t'.rows, r.status = .downloaded → driftOf env.disk r = none

/-- The marks of a whole scan. -/
theorem reconciled_of_scan {counts : ScanCounts} {drifted : List (AssetRow × LocalDriftKind)}
    (h : Tallies env.disk (downloadedRows t) (counts, drifted)) :
    let marked := drifted.foldl (markScanned env) ((0, 0), t)
    Reconciled env t ⟨counts, marked.1.1, marked.1.2⟩ marked.2 := by
  obtain ⟨hdrifted, hdrifts, htotal⟩ := h
  dsimp only at hdrifted hdrifts
  have hmarks : drifted.foldl (markScanned env) ((0, 0), t) =
      ((downloadedRows t).foldl env.counted (0, 0), markPage env (downloadedRows t) t) := by
    rw [hdrifted, List.foldl_filterMap]
    refine foldl_marks (fun counts t r hr => ?_) _
      (fun r hr => (List.mem_filter.mp hr).1) (nodup_downloadedRows t)
    rw [← markScanned_eq counts hr]
    cases driftOf env.disk r <;> rfl
  have hlength : drifted.length = (downloadedRows t).countP env.drifted := by
    rw [hdrifted, List.length_filterMap_eq_countP]
    exact List.countP_congr fun r _ => by rw [Option.isSome_map, Env.drifted]
  obtain ⟨hsum, herrors⟩ := @foldl_counted env (0, 0) (downloadedRows t)
  simp only [hmarks]
  refine ⟨htotal, by dsimp only; omega, rfl, fun hnone r hr hstatus => ?_⟩
  have hkept : r ∈ downloadedRows (markPage env (downloadedRows t) t) :=
    List.mem_filter.mpr ⟨hr, decide_eq_true hstatus⟩
  rw [downloadedRows_markPage, List.mem_filter] at hkept
  dsimp only at hnone
  rw [hnone, Nat.zero_add] at herrors
  have hunmarked : env.marks r = false := by simpa [hkept.1] using hkept.2
  have hclean := List.countP_eq_zero.mp herrors.symm r hkept.1
  simpa [Env.drifted, hunmarked] using hclean

/-- A page of downloaded rows. -/
structure IsPage (page : List AssetRow) (t : AssetTable) : Prop where
  mem : ∀ r ∈ page, r ∈ t.rows ∧ r.status = .downloaded
  nodup : page.Nodup

theorem isPage_getDownloadedPage (offset limit : Nat) (t : AssetTable) :
    IsPage (getDownloadedPage offset limit t) t where
  mem r hr := by
    have hin := List.mem_filter.mp (List.drop_subset _ _ (List.take_subset _ _ hr))
    exact ⟨hin.1, of_decide_eq_true hin.2⟩
  nodup := (nodup_downloadedRows t).sublist
    ((List.take_sublist _ _).trans (List.drop_sublist _ _))

theorem isPage_of_probePage {offset : Nat} (h : probePage env s = some (offset, page)) :
    IsPage page s.assets := by
  have hget : ∃ start, page = getDownloadedPage start localDriftProbePageSize s.assets := by
    simp only [probePage] at h
    split_ifs at h <;> cases h <;> exact ⟨_, rfl⟩
  obtain ⟨start, rfl⟩ := hget
  exact isPage_getDownloadedPage start _ _

theorem probe_assets {offset : Nat} (h : probePage env s = some (offset, page)) :
    (runBoundedLocalDriftProbe env s).2.assets = markPage env page s.assets := by
  have hpage := isPage_of_probePage h
  rw [runBoundedLocalDriftProbe, h]
  exact congrArg Prod.snd (foldl_marks (fun outcome _ _ hr => probeRow_eq outcome hr) _
    (fun r hr => (hpage.mem r hr).1) hpage.nodup)

theorem probe_cursor {offset : Nat} (h : probePage env s = some (offset, page))
    (hwrites : env.fails .setMetadata = false) : (runBoundedLocalDriftProbe env s).2.cursor =
      some (toString (nextProbeOffset (downloadedRows s.assets).length offset page.length)) := by
  have hcount : s.assets.count (fun r => r.status = .downloaded) =
      (downloadedRows s.assets).length := List.countP_eq_length_filter
  simp only [runBoundedLocalDriftProbe, h, hwrites, hcount, if_neg Bool.false_ne_true]

/-- Whatever fails, a probe marks the rows of a page. -/
theorem probe_marks (env : Env) (s : ProbeState) : ∃ page, IsPage page s.assets ∧
    (runBoundedLocalDriftProbe env s).2.assets = markPage env page s.assets := by
  cases hpage : probePage env s with
  | none =>
      refine ⟨[], ⟨List.forall_mem_nil _, List.nodup_nil⟩, ?_⟩
      rw [runBoundedLocalDriftProbe, hpage, markPage_nil]
  | some found => exact ⟨found.2, isPage_of_probePage hpage, probe_assets hpage⟩

/-- No call of the store fails. -/
def Env.Quiet (env : Env) : Prop := ∀ call, env.fails call = false

def ProbeState.offset (s : ProbeState) : Nat := (s.cursor.bind parseU64).getD 0

theorem probePage_eq (hquiet : env.Quiet) (hsome : downloadedRows s.assets ≠ []) :
    probePage env s = some (Sweep.start s.offset (downloadedRows s.assets),
      Sweep.page localDriftProbePageSize s.offset (downloadedRows s.assets)) := by
  have hcount : s.assets.count (fun r => r.status = .downloaded) =
      (downloadedRows s.assets).length := List.countP_eq_length_filter
  have hoffset : ((s.cursor.map (fun raw =>
      min ((parseU64 raw).getD 0) (downloadedRows s.assets).length)).getD 0) =
      min s.offset (downloadedRows s.assets).length := by
    cases hcursor : s.cursor <;> simp [ProbeState.offset, hcursor]
  have hnone (call : StoreCall) : env.fails call = false := hquiet call
  simp only [probePage, hnone, hcount, hoffset, getDownloadedPage, Sweep.page, Sweep.start]
  generalize downloadedRows s.assets = l at *
  by_cases hin : s.offset < l.length
  · simp [Nat.min_eq_left (Nat.le_of_lt hin), hin, hsome, localDriftProbePageSize]
  · simp [Nat.min_eq_right (Nat.not_lt.mp hin), hin, hsome, List.length_pos_iff]

/-- A probe is a turn of the sweep over the downloaded rows. -/
theorem probe_turn (hquiet : env.Quiet) (hrows : s.assets.rows.length < 2 ^ 64)
    (hsome : downloadedRows s.assets ≠ []) :
    downloadedRows (runBoundedLocalDriftProbe env s).2.assets =
        Sweep.rest localDriftProbePageSize env.drifted s.offset (downloadedRows s.assets) ∧
      (runBoundedLocalDriftProbe env s).2.offset =
        Sweep.next localDriftProbePageSize s.offset (downloadedRows s.assets) := by
  have hlen : (downloadedRows s.assets).length < 2 ^ 64 :=
    Nat.lt_of_le_of_lt (List.length_filter_le _ _) hrows
  have hmarks : env.marks = env.drifted := by
    funext r
    simp [Env.marks, Env.drifted, Env.drifted, hquiet (.markFailed r.key)]
  have hpage := probePage_eq hquiet hsome
  constructor
  · rw [probe_assets hpage, downloadedRows_markPage, hmarks,
      Sweep.rest_eq_filter (nodup_downloadedRows s.assets)]
  · rw [ProbeState.offset, probe_cursor hpage (hquiet _)]
    generalize downloadedRows s.assets = l at *
    have hpos := List.length_pos_iff.mpr hsome
    have hsize : 0 < localDriftProbePageSize := by decide
    have hstart : Sweep.start s.offset l < l.length := by
      unfold Sweep.start
      split <;> omega
    have hscanned : (Sweep.page localDriftProbePageSize s.offset l).length =
        min localDriftProbePageSize (l.length - Sweep.start s.offset l) := by
      rw [Sweep.page, List.length_take, List.length_drop]
    have hnext : nextProbeOffset l.length (Sweep.start s.offset l)
        (Sweep.page localDriftProbePageSize s.offset l).length =
          Sweep.next localDriftProbePageSize s.offset l := by
      rw [hscanned, nextProbeOffset, Sweep.next]
      simp only [Bool.or_eq_true, decide_eq_true_eq]
      split_ifs <;> omega
    have hfits : Sweep.next localDriftProbePageSize s.offset l < 2 ^ 64 := by
      unfold Sweep.next
      split <;> omega
    rw [hnext, Option.bind_some, parseU64_toString hfits, Option.getD_some]

/-! ## many probes -/

/-- A row after a probe is as before, or it was downloaded and its file has drifted. -/
theorem mem_probe {r' : AssetRow} (h : r' ∈ (runBoundedLocalDriftProbe env s).2.assets.rows) :
    r' ∈ s.assets.rows ∨ ∃ r ∈ s.assets.rows, r.status = .downloaded ∧ ∃ kind,
      driftOf env.disk r = some kind ∧ r' = r.failedWith kind.reason := by
  obtain ⟨page, hpage, hassets⟩ := probe_marks env s
  obtain ⟨r, hr, rfl⟩ := Table.mem_update.mp (hassets ▸ h)
  split
  · next hmarks =>
      rw [Bool.and_eq_true, List.contains_iff_mem, Env.marks, Bool.and_eq_true, Env.drifted,
        Option.isSome_iff_exists] at hmarks
      obtain ⟨hin, ⟨kind, hkind⟩, -⟩ := hmarks
      refine .inr ⟨r, hr, (hpage.mem r hin).2, kind, hkind, ?_⟩
      rw [Env.marked, hkind]
      rfl
  · exact .inl hr

theorem keys_probe (env : Env) (s : ProbeState) :
    (runBoundedLocalDriftProbe env s).2.assets.rows.map AssetRow.key =
      s.assets.rows.map AssetRow.key := by
  obtain ⟨page, -, hassets⟩ := probe_marks env s
  rw [hassets]
  exact Table.map_update fun _ => rfl

/-- **A probe only marks what has drifted.**  Whatever fails and however the files change between
the probes, no row comes or goes, and a row that is not as it was is that of a downloaded file that
a probe found to be gone or too short; it has failed once more, for that reason. -/
theorem probes_mark_drifted (envs : List Env) (s : ProbeState) :
    (runProbes envs s).assets.rows.map AssetRow.key = s.assets.rows.map AssetRow.key ∧
      ∀ r' ∈ (runProbes envs s).assets.rows, r' ∈ s.assets.rows ∨
        ∃ r ∈ s.assets.rows, r.status = .downloaded ∧ ∃ env ∈ envs, ∃ kind,
          driftOf env.disk r = some kind ∧ r' = r.failedWith kind.reason := by
  induction envs generalizing s with
  | nil => exact ⟨rfl, fun r hr => .inl hr⟩
  | cons env envs ih =>
      obtain ⟨hkeys, hrows⟩ := ih (runBoundedLocalDriftProbe env s).2
      refine ⟨hkeys.trans (keys_probe env s), fun r' hr' => ?_⟩
      obtain hr' | ⟨r, hr, hstatus, later, hlater, kind, hkind, rfl⟩ := hrows r' hr'
      · obtain hr' | ⟨r, hr, hstatus, kind, hkind, rfl⟩ := mem_probe hr'
        · exact .inl hr'
        · exact .inr ⟨r, hr, hstatus, env, .head _, kind, hkind, rfl⟩
      · obtain hr | ⟨r, -, -, kind, -, rfl⟩ := mem_probe hr
        · exact .inr ⟨r, hr, hstatus, later, .tail _ hlater, kind, hkind, rfl⟩
        · cases hstatus

/-- As long as nothing fails and the files stay, probes are turns of the sweep. -/
theorem runProbes_turns (hquiet : env.Quiet) (hrows : s.assets.rows.length < 2 ^ 64) (n : Nat) :
    downloadedRows (runProbes (List.replicate n env) s).assets =
      Sweep.turns localDriftProbePageSize env.drifted n s.offset (downloadedRows s.assets) := by
  induction n generalizing s with
  | zero => rfl
  | succ n ih =>
      have hlen := congrArg List.length (keys_probe env s)
      rw [List.length_map, List.length_map] at hlen
      have hafter := ih (hlen ▸ hrows)
      by_cases hnone : downloadedRows s.assets = []
      · obtain ⟨page, -, hassets⟩ := probe_marks env s
        rw [hassets, downloadedRows_markPage, hnone, List.filter_nil,
          Sweep.turns_of_clean (List.forall_mem_nil _)] at hafter
        rw [hnone, Sweep.turns_of_clean (List.forall_mem_nil _)]
        exact hafter
      · obtain ⟨hrest, hnext⟩ := probe_turn hquiet hrows hnone
        rw [hrest, hnext] at hafter
        exact hafter

/-- **Every drift is found.**  As long as no call fails and the files stay as they are, no row that
has drifted counts as downloaded after one sweep, and two pages, for each of them. -/
theorem probes_find_drift (hquiet : env.Quiet) (hrows : s.assets.rows.length < 2 ^ 64) {n : Nat}
    (hn : (downloadedRows s.assets).countP env.drifted *
      ((downloadedRows s.assets).length / localDriftProbePageSize + 2) ≤ n) :
    ∀ r ∈ (runProbes (List.replicate n env) s).assets.rows, r.status = .downloaded →
      driftOf env.disk r = none := by
  intro r hr hstatus
  have hin : r ∈ downloadedRows (runProbes (List.replicate n env) s).assets :=
    List.mem_filter.mpr ⟨hr, decide_eq_true hstatus⟩
  rw [runProbes_turns hquiet hrows] at hin
  have hclean := Sweep.turns_clean (by decide) hn r hin
  rwa [Env.drifted, Option.isSome_eq_false_iff, Option.isNone_iff_eq_none] at hclean

/-- A row whose file is missing. -/
theorem probes_find_drift_missing :
    let row : AssetRow :=
      { library := "L", id := "a", versionSize := "original", checksum := "c", createdAt := 0,
        status := .downloaded, localPath := some "a.jpg", lastSeenAt := 0, downloadAttempts := 0,
        lastError := none, localChecksum := none,
        metadata := ⟨⟨false, false, none, none, ""⟩, none⟩,
        downloadChecksum := none, metadataWriteFailedAt := none, captureRepair := .null }
    let env : Env := ⟨⟨fun _ => some none, fun _ => none, fun _ => 1⟩, fun _ => false⟩
    let s : ProbeState := ⟨none, ⟨[row], List.nodup_singleton _⟩⟩
    driftOf env.disk row = some .missing ∧
      ∀ r ∈ (runProbes (List.replicate 2 env) s).assets.rows, r.status = .downloaded →
        driftOf env.disk r = none :=
  ⟨rfl, probes_find_drift (fun _ => rfl) (by decide) (by decide)⟩

end Kei.Reconcile
