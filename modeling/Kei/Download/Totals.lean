import Kei.Download.Finalize
import Mathlib.Data.List.AList

/-!
# Kei.Download.Totals

What a streaming run reports, and the reports of several passes merged.

The merge for passes leaves out seven of the fields, so what the passes report
in them is lost.
-/

namespace Kei.Download

/-! ## the highlights -/

structure RecapAsset where
  filename : String
  bytes : Nat
  createdLocal : Int
  deriving DecidableEq

structure RunRecap where
  biggest : Option RecapAsset
  oldest : Option RecapAsset
  albums : AList (fun _ : String => RecapAsset)

def RunRecap.empty : RunRecap := ⟨none, none, ∅⟩

namespace RunRecap

/-- The other's asset, unless ours is preferred. -/
def better (prefers : RecapAsset → RecapAsset → Bool) (cur other : Option RecapAsset) :
    Option RecapAsset :=
  match other with
  | none => cur
  | some asset => if cur.all (fun cur => prefers asset cur) then some asset else cur

/-- The newest asset of an album. -/
def mergeAlbum (albums : AList (fun _ : String => RecapAsset)) (label : String)
    (asset : RecapAsset) : AList (fun _ : String => RecapAsset) :=
  match albums.lookup label with
  | some cur => if cur.createdLocal < asset.createdLocal then albums.insert label asset else albums
  | none => albums.insert label asset

def merge (recap other : RunRecap) : RunRecap where
  biggest := better (fun b cur => cur.bytes ≤ b.bytes) recap.biggest other.biggest
  oldest := better (fun o cur => o.createdLocal ≤ cur.createdLocal) recap.oldest other.oldest
  albums := other.albums.entries.foldl (fun albums e => mergeAlbum albums e.1 e.2) recap.albums

/-- Nothing was observed. -/
def IsEmpty (recap : RunRecap) : Prop :=
  recap.biggest = none ∧ recap.oldest = none ∧ recap.albums = ∅

end RunRecap

/-! ## the skipped assets -/

structure ProducerSkipSummary where
  byState : Nat
  onDisk : Nat
  ampmVariant : Nat
  byMediaType : Nat
  byDateRange : Nat
  byLivePhoto : Nat
  byFilename : Nat
  byExcludedAlbum : Nat
  duplicates : Nat
  retryExhausted : Nat
  retryOnly : Nat
  deriving DecidableEq

namespace ProducerSkipSummary

def empty : ProducerSkipSummary := ⟨0, 0, 0, 0, 0, 0, 0, 0, 0, 0, 0⟩

def total (s : ProducerSkipSummary) : Nat :=
  s.byState + s.onDisk + s.ampmVariant + s.byMediaType + s.byDateRange + s.byLivePhoto +
    s.byFilename + s.byExcludedAlbum + s.duplicates + s.retryExhausted + s.retryOnly

/-- `AddAssign`. -/
def add (s t : ProducerSkipSummary) : ProducerSkipSummary where
  byState := s.byState + t.byState
  onDisk := s.onDisk + t.onDisk
  ampmVariant := s.ampmVariant + t.ampmVariant
  byMediaType := s.byMediaType + t.byMediaType
  byDateRange := s.byDateRange + t.byDateRange
  byLivePhoto := s.byLivePhoto + t.byLivePhoto
  byFilename := s.byFilename + t.byFilename
  byExcludedAlbum := s.byExcludedAlbum + t.byExcludedAlbum
  duplicates := s.duplicates + t.duplicates
  retryExhausted := s.retryExhausted + t.retryExhausted
  retryOnly := s.retryOnly + t.retryOnly

end ProducerSkipSummary

/-! ## the streaming results -/

structure StreamingResult where
  downloaded : Nat
  exifFailures : Nat
  failed : List PublishedTask
  authErrors : Nat
  stateWriteFailures : Nat
  enumerationErrors : Nat
  assetsSeen : Nat
  skipSummary : ProducerSkipSummary
  bytesDownloaded : Nat
  diskBytesWritten : Nat
  rateLimitObservations : Nat
  urlExpiredAbort : Bool
  enumerationComplete : Bool
  photosDownloaded : Nat
  videosDownloaded : Nat
  recap : RunRecap

namespace StreamingResult

/-- `StreamingResult::default()`. -/
def empty : StreamingResult where
  downloaded := 0
  exifFailures := 0
  failed := []
  authErrors := 0
  stateWriteFailures := 0
  enumerationErrors := 0
  assetsSeen := 0
  skipSummary := .empty
  bytesDownloaded := 0
  diskBytesWritten := 0
  rateLimitObservations := 0
  urlExpiredAbort := false
  enumerationComplete := false
  photosDownloaded := 0
  videosDownloaded := 0
  recap := .empty

/-- What the passes are merged into: it is complete if there is a pass. -/
def start (hasPasses : Bool) : StreamingResult := { empty with enumerationComplete := hasPasses }

end StreamingResult

def mergeStreamingResult (combined result : StreamingResult) : StreamingResult :=
  { combined with
    downloaded := combined.downloaded + result.downloaded
    exifFailures := combined.exifFailures + result.exifFailures
    failed := combined.failed ++ result.failed
    authErrors := combined.authErrors + result.authErrors
    stateWriteFailures := combined.stateWriteFailures + result.stateWriteFailures
    enumerationErrors := combined.enumerationErrors + result.enumerationErrors
    assetsSeen := combined.assetsSeen + result.assetsSeen
    skipSummary := combined.skipSummary.add result.skipSummary
    enumerationComplete := combined.enumerationComplete && result.enumerationComplete }

/-! ## the totals -/

/-- Every field added up over the passes: counts as sums, tasks one after the other, a flag if
one pass has it, completeness if all have. -/
def totals (hasPasses : Bool) (results : List StreamingResult) : StreamingResult where
  downloaded := (results.map (·.downloaded)).sum
  exifFailures := (results.map (·.exifFailures)).sum
  failed := results.flatMap (·.failed)
  authErrors := (results.map (·.authErrors)).sum
  stateWriteFailures := (results.map (·.stateWriteFailures)).sum
  enumerationErrors := (results.map (·.enumerationErrors)).sum
  assetsSeen := (results.map (·.assetsSeen)).sum
  skipSummary := (results.map (·.skipSummary)).foldl .add .empty
  bytesDownloaded := (results.map (·.bytesDownloaded)).sum
  diskBytesWritten := (results.map (·.diskBytesWritten)).sum
  rateLimitObservations := (results.map (·.rateLimitObservations)).sum
  urlExpiredAbort := results.any (·.urlExpiredAbort)
  enumerationComplete := hasPasses && results.all (·.enumerationComplete)
  photosDownloaded := (results.map (·.photosDownloaded)).sum
  videosDownloaded := (results.map (·.videosDownloaded)).sum
  recap := (results.map (·.recap)).foldl .merge .empty

/-- The result has nothing in the fields that the merge of passes leaves out. -/
structure StreamingResult.Unreported (result : StreamingResult) : Prop where
  bytesDownloaded : result.bytesDownloaded = 0
  diskBytesWritten : result.diskBytesWritten = 0
  rateLimitObservations : result.rateLimitObservations = 0
  urlExpiredAbort : result.urlExpiredAbort = false
  photosDownloaded : result.photosDownloaded = 0
  videosDownloaded : result.videosDownloaded = 0
  recap : result.recap.IsEmpty

variable {results : List StreamingResult} {combined : StreamingResult} {hasPasses : Bool}

/-! ### empty recaps -/

section Recap

theorem better_eq_none {prefers : RecapAsset → RecapAsset → Bool} {cur other : Option RecapAsset} :
    RunRecap.better prefers cur other = none ↔ cur = none ∧ other = none := by
  cases other with
  | none => simp [RunRecap.better]
  | some asset =>
      cases cur with
      | none => simp [RunRecap.better]
      | some cur => by_cases h : prefers asset cur <;> simp [RunRecap.better, h]

theorem mergeAlbum_ne_empty (albums : AList (fun _ : String => RecapAsset)) (label : String)
    (asset : RecapAsset) : RunRecap.mergeAlbum albums label asset ≠ ∅ := by
  intro hempty
  have hlabel : label ∈ RunRecap.mergeAlbum albums label asset := by
    rw [RunRecap.mergeAlbum]
    cases hlookup : albums.lookup label with
    | none => simp
    | some cur =>
        have hmem : label ∈ albums := AList.lookup_isSome.1 (by simp [hlookup])
        by_cases hnewer : cur.createdLocal < asset.createdLocal
        · simp [hnewer]
        · simpa [hnewer] using hmem
  simp [hempty] at hlabel

theorem foldl_mergeAlbum_eq_empty {entries : List (Sigma fun _ : String => RecapAsset)}
    {albums : AList (fun _ : String => RecapAsset)} :
    entries.foldl (fun albums e => RunRecap.mergeAlbum albums e.1 e.2) albums = ∅ ↔
      albums = ∅ ∧ entries = [] := by
  induction entries generalizing albums with
  | nil => simp
  | cons e entries ih => simp [ih, mergeAlbum_ne_empty]

theorem isEmpty_merge {recap other : RunRecap} :
    (recap.merge other).IsEmpty ↔ recap.IsEmpty ∧ other.IsEmpty := by
  have hentries : other.albums.entries = [] ↔ other.albums = ∅ := by
    rw [AList.ext_iff]
    rfl
  simp only [RunRecap.IsEmpty, RunRecap.merge, better_eq_none, foldl_mergeAlbum_eq_empty, hentries]
  tauto

theorem isEmpty_foldl_merge (recap : RunRecap) (recaps : List RunRecap) :
    (recaps.foldl .merge recap).IsEmpty ↔ recap.IsEmpty ∧ ∀ r ∈ recaps, r.IsEmpty := by
  induction recaps generalizing recap with
  | nil => simp
  | cons r recaps ih => simp [ih, isEmpty_merge, and_assoc]

theorem isEmpty_iff {recap : RunRecap} : recap.IsEmpty ↔ recap = .empty := by
  cases recap
  simp [RunRecap.IsEmpty, RunRecap.empty]

end Recap

/-! ### the merges -/

theorem foldl_mergeStreamingResult (combined : StreamingResult) (results : List StreamingResult) :
    results.foldl mergeStreamingResult combined =
      { combined with
        downloaded := combined.downloaded + (results.map (·.downloaded)).sum
        exifFailures := combined.exifFailures + (results.map (·.exifFailures)).sum
        failed := combined.failed ++ results.flatMap (·.failed)
        authErrors := combined.authErrors + (results.map (·.authErrors)).sum
        stateWriteFailures :=
          combined.stateWriteFailures + (results.map (·.stateWriteFailures)).sum
        enumerationErrors := combined.enumerationErrors + (results.map (·.enumerationErrors)).sum
        assetsSeen := combined.assetsSeen + (results.map (·.assetsSeen)).sum
        skipSummary := (results.map (·.skipSummary)).foldl .add combined.skipSummary
        enumerationComplete :=
          combined.enumerationComplete && results.all (·.enumerationComplete) } := by
  induction results generalizing combined with
  | nil => simp
  | cons result results ih =>
      rw [List.foldl_cons, ih]
      simp [mergeStreamingResult, Nat.add_assoc, Bool.and_assoc]

theorem unreported_iff {result : StreamingResult} : result.Unreported ↔
    result.bytesDownloaded = 0 ∧ result.diskBytesWritten = 0 ∧ result.rateLimitObservations = 0 ∧
      result.urlExpiredAbort = false ∧ result.photosDownloaded = 0 ∧
        result.videosDownloaded = 0 ∧ result.recap.IsEmpty := by
  constructor
  · rintro ⟨hbytes, hdisk, hrate, habort, hphotos, hvideos, hrecap⟩
    simp_all
  · rintro ⟨hbytes, hdisk, hrate, habort, hphotos, hvideos, hrecap⟩
    exact ⟨hbytes, hdisk, hrate, habort, hphotos, hvideos, hrecap⟩

/-- **The totals of a run split into passes.**  They are those of its passes exactly if no pass
has anything in the fields that the merge leaves out. -/
theorem mergeStreamingResult_totals_iff (hasPasses : Bool) (results : List StreamingResult) :
    results.foldl mergeStreamingResult (.start hasPasses) = totals hasPasses results ↔
      ∀ result ∈ results, result.Unreported := by
  have hrecap : RunRecap.empty = (results.map (·.recap)).foldl .merge .empty ↔
      ∀ result ∈ results, result.recap.IsEmpty := by
    have hfold := isEmpty_foldl_merge .empty (results.map (·.recap))
    rw [isEmpty_iff, isEmpty_iff] at hfold
    rw [eq_comm, hfold]
    simp
  have hsum (count : StreamingResult → Nat) :
      0 = (results.map count).sum ↔ ∀ result ∈ results, count result = 0 := by
    rw [eq_comm, List.sum_eq_zero_iff_forall_eq_nat]
    simp
  simp only [foldl_mergeStreamingResult, totals, StreamingResult.start, StreamingResult.empty,
    unreported_iff, forall_and]
  simp [hrecap, hsum]

/-- A pass that downloaded a photo of ten bytes, and then met an expired URL. -/
def expiredPass : StreamingResult :=
  { StreamingResult.empty with
    downloaded := 1
    assetsSeen := 2
    bytesDownloaded := 10
    diskBytesWritten := 10
    photosDownloaded := 1
    urlExpiredAbort := true
    enumerationComplete := true }

/-- Neither the bytes nor the abort are in what the pass is merged into. -/
theorem merge_loses_abort :
    let merged := [expiredPass].foldl mergeStreamingResult (.start true)
    merged ≠ totals true [expiredPass] ∧
      (merged.bytesDownloaded, merged.photosDownloaded, merged.urlExpiredAbort) = (0, 0, false) ∧
      expiredPass.urlExpiredAbort = true := by
  have hlost : ([expiredPass].foldl mergeStreamingResult (.start true)).urlExpiredAbort = false :=
    rfl
  refine ⟨?_, rfl, rfl⟩
  intro hmerged
  rw [hmerged] at hlost
  exact Bool.noConfusion hlost

end Kei.Download
