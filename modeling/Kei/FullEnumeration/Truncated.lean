import Kei.FullEnumeration.Apart

/-!
# Kei.FullEnumeration.Truncated

Whether a full enumeration notices that its bounds dropped something.

A pass leaves a flag when it comes upon an asset below its lower bound.  The
frontier of recent assets also drops assets that are not among them, and those
leave no flag: an asset as old as the oldest recent one goes unnoticed, and the
token vouches for it.
-/

namespace Kei.FullEnumeration

/-! ## what a pass drops -/

/-- The flag of a stream that was taken to its end. -/
def boundsTruncated (stream : List Item) (config : StreamConfig)
    (frontier : Option RecentFrontier) : Bool :=
  stream.any (fun item => !inBounds (streamCreatedLowerBound config frontier) item)

/-- Some asset of the stream is not handed on. -/
def Drops (stream : List Item) (config : StreamConfig) (frontier : Option RecentFrontier) : Prop :=
  assetsIn (filterStreamToEnumerationBounds stream config frontier) ≠ assetsIn stream

/-- The assets that the loop over the newest ones reads. -/
def newestFrom (config : StreamConfig) (cancelled : Nat → Bool) :
    Nat → List Item → List ListedAsset
  | _, [] => []
  | n, item :: rest =>
      if cancelled n then []
      else
        match item with
        | .error _ => []
        | .ok asset =>
            if (enumerationCreatedLowerBound config).any (fun boundary => asset.created < boundary)
            then []
            else asset :: newestFrom config cancelled (n + 1) rest

/-- A full enumeration within its bounds. -/
structure BoundedCall where
  passes : List AlbumPass
  config : StreamConfig
  controls : DownloadControls
  streams : ZoneStreams
  /-- What the streams yield when a repair opens them again. -/
  streamsAgain : ZoneStreams
  /-- Before which of the newest assets shutdown comes. -/
  cancelled : Nat → Bool
  consumption : Nat → Consumption
  consumptionAgain : Nat → Consumption
  repairTokenGaps : Bool
  base : RunEnv

namespace BoundedCall

variable (call : BoundedCall)

def builtFrontier : Except String (Option RecentFrontier) :=
  buildRecentFrontier call.passes call.config call.streams call.cancelled

/-- The assets that are recent, if there is a frontier. -/
def newest : Option (List ListedAsset) :=
  if shouldUseGlobalRecentFrontier call.passes call.config then
    call.config.recent.map (fun recent =>
      newestFrom call.config call.cancelled 0 (call.streams.libraryWide recent))
  else none

variable (frontier : Option RecentFrontier)

def firstRuns : FullRun :=
  ⟨call.passes, call.config, call.controls, call.streams, frontier, call.repairTokenGaps⟩

def recoveryRuns : FullRun := { call.firstRuns frontier with streams := call.streamsAgain }

/-- What the runs report; the merged one takes the streams of all passes. -/
def env : RunEnv :=
  let indexes := List.range call.passes.length
  { call.base with
    frontierBuilt := true
    firstRun := fun i => (call.firstRuns frontier).passRun (call.consumption i) i
    mergedRun :=
      if indexes.any (fun i => (call.consumption i).failed) then none
      else some {
        enumerationComplete := indexes.all (fun i => (call.consumption i).taken.isNone)
        enumerationErrors := (indexes.map (fun i =>
          errorsIn ((call.firstRuns frontier).takenBy (call.consumption i) i) +
            (call.consumption i).otherErrors)).sum }
    mergedTruncated := fun i => (call.consumption i).taken.isNone &&
      boundsTruncated ((call.firstRuns frontier).stream i) call.config frontier
    mergedReply := fun i => (call.consumption i).reply
    recoveryRun := fun i => (call.recoveryRuns frontier).passRun (call.consumptionAgain i) i }

def download : Option SyncResult :=
  downloadPhotosFullWithTokenPolicy call.passes call.config.toDownloadConfig call.controls
    (call.env frontier) call.repairTokenGaps

/-- The pass has a first run. -/
def RunsFirst (i : Nat) : Prop :=
  Observed call.passes call.config.toDownloadConfig call.controls (call.env frontier) i

/-- The pass is run again in a repair. -/
def RunsAgain (i : Nat) : Prop :=
  RunAgain call.passes call.config.toDownloadConfig call.controls (call.env frontier) i

/-- What is dropped is marked, and with something dropped there is no token. -/
structure Marks : Prop where
  first : ∀ i < call.passes.length,
    Drops ((call.firstRuns frontier).stream i) call.config frontier →
    boundsTruncated ((call.firstRuns frontier).stream i) call.config frontier = true
  again : ∀ i < call.passes.length,
    Drops ((call.recoveryRuns frontier).stream i) call.config frontier →
      boundsTruncated ((call.recoveryRuns frontier).stream i) call.config frontier = true
  token : ∀ result t, call.download frontier = some result → result.syncToken = some t →
    ∀ i,
      (call.RunsFirst frontier i → (call.consumption i).taken = none →
        ¬Drops ((call.firstRuns frontier).stream i) call.config frontier) ∧
      (call.RunsAgain frontier i → (call.consumptionAgain i).taken = none →
        ¬Drops ((call.recoveryRuns frontier).stream i) call.config frontier)

/-- Older than every recent asset, or than the date. -/
def Older (asset : ListedAsset) : Prop :=
  (∃ newest, call.newest = some newest ∧ newest ≠ [] ∧ ∀ b ∈ newest, asset.created < b.created) ∨
    ∃ boundary, enumerationCreatedLowerBound call.config = some boundary ∧
      asset.created < boundary

/-- One of the recent assets, if there is a frontier. -/
def Recent (asset : ListedAsset) : Prop :=
  ∀ newest, call.newest = some newest →
    asset.assetRecordName ∈ newest.map (·.assetRecordName)

/-- The stream lists an asset that is too old, or recent ones only. -/
def Separated (stream : List Item) : Prop :=
  (∃ asset ∈ assetsIn stream, call.Older asset) ∨ ∀ asset ∈ assetsIn stream, call.Recent asset

/-- A repair succeeds with a run that came upon an asset that is too old. -/
structure RepairsOverOlder : Prop where
  outcomeBuilt : call.base.downloadOutcome.isSome = true
  attempted : tokenAttemptAllowed call.controls = true
  agrees : ∃ t, Agrees call.passes call.config.toDownloadConfig call.controls (call.env frontier)
    call.repairTokenGaps t
  older : ∃ i, call.RunsAgain frontier i ∧
    ∃ asset ∈ assetsIn ((call.recoveryRuns frontier).stream i), call.Older asset

end BoundedCall

/-! ## the frontier -/

variable {config : StreamConfig} {frontier : Option RecentFrontier} {stream : List Item}
  {cancelled : Nat → Bool}

/-- Older than the oldest date there is. -/
def OlderThan (created : Int) (oldest : Option Int) : Prop :=
  oldest.isSome = true ∧ ∀ date, oldest = some date → created < date

/-- The frontier holds the names of what was read, and the oldest of its dates. -/
theorem frontierFrom_spec {n : Nat} {start built : RecentFrontier} {items : List Item}
    (h : frontierFrom config cancelled n start items = .ok built) :
    (∀ id, id ∈ built.assetIds ↔
      id ∈ start.assetIds ∨
        id ∈ (newestFrom config cancelled n items).map (·.assetRecordName)) ∧
    ∀ created, OlderThan created built.oldestCreated ↔
      (start.oldestCreated.isSome = true ∨ newestFrom config cancelled n items ≠ []) ∧
        (∀ date, start.oldestCreated = some date → created < date) ∧
        ∀ b ∈ newestFrom config cancelled n items, created < b.created := by
  induction items generalizing n start with
  | nil =>
      unfold frontierFrom at h
      cases h
      simp [newestFrom, OlderThan]
  | cons item rest ih =>
      unfold frontierFrom at h
      unfold newestFrom
      by_cases hcancelled : cancelled n = true
      · rw [if_pos hcancelled] at h
        cases h
        simp [hcancelled, OlderThan]
      · rw [if_neg hcancelled] at h
        rw [if_neg hcancelled]
        cases item with
        | error error => simp at h
        | ok asset =>
            simp only at h ⊢
            by_cases hdate : (enumerationCreatedLowerBound config).any
                (fun boundary => asset.created < boundary) = true
            · rw [if_pos hdate] at h
              cases h
              simp [hdate, OlderThan]
            · rw [if_neg hdate] at h
              rw [if_neg hdate]
              obtain ⟨hids, hdates⟩ := ih h
              constructor
              · intro id
                rw [hids, List.mem_insert_iff, List.map_cons, List.mem_cons]
                tauto
              · intro created
                rw [hdates]
                cases start.oldestCreated with
                | none => simp
                | some oldest => grind

theorem inBounds_stream_eq_false (asset : ListedAsset) :
    inBounds (streamCreatedLowerBound config frontier) (.ok asset) = false ↔
      OlderThan asset.created (frontier.bind (·.oldestCreated)) ∨
        ∃ boundary, enumerationCreatedLowerBound config = some boundary ∧
          asset.created < boundary := by
  unfold inBounds streamCreatedLowerBound
  generalize frontier.bind (·.oldestCreated) = oldest
  generalize enumerationCreatedLowerBound config = bound
  cases oldest <;> cases bound <;> grind [OlderThan]

namespace BoundedCall

variable {call : BoundedCall}

theorem builtFrontier_spec (h : call.builtFrontier = .ok frontier) :
    (frontier = none ↔ call.newest = none) ∧
    ∀ built, frontier = some built → ∃ newest, call.newest = some newest ∧
      (∀ id, id ∈ built.assetIds ↔ id ∈ newest.map (·.assetRecordName)) ∧
      ∀ created, OlderThan created built.oldestCreated ↔
        newest ≠ [] ∧ ∀ b ∈ newest, created < b.created := by
  unfold builtFrontier buildRecentFrontier at h
  unfold newest
  cases hrecent : call.config.recent with
  | none =>
      rw [hrecent] at h
      cases h
      simp
  | some recent =>
      rw [hrecent] at h
      simp only at h
      by_cases hglobal : shouldUseGlobalRecentFrontier call.passes call.config = true
      · rw [if_pos hglobal] at h
        rw [if_pos hglobal]
        cases hfrom : frontierFrom call.config call.cancelled 0 ⟨[], none⟩
            (call.streams.libraryWide recent) with
        | error error =>
            rw [hfrom] at h
            cases h
        | ok built =>
            rw [hfrom] at h
            cases h
            have hspec := frontierFrom_spec hfrom
            simpa using hspec
      · rw [if_neg hglobal] at h
        rw [if_neg hglobal]
        cases h
        simp

theorem inBounds_eq_false (h : call.builtFrontier = .ok frontier) (asset : ListedAsset) :
    inBounds (streamCreatedLowerBound call.config frontier) (.ok asset) = false ↔
      call.Older asset := by
  obtain ⟨hnone, hsome⟩ := builtFrontier_spec h
  rw [inBounds_stream_eq_false]
  unfold Older
  refine or_congr ?_ Iff.rfl
  cases frontier with
  | none => simp [hnone.mp rfl, OlderThan]
  | some built =>
      obtain ⟨newest, hnewest, -, hdates⟩ := hsome built rfl
      simp [hnewest, hdates]

theorem inFrontier_eq_true (h : call.builtFrontier = .ok frontier) (asset : ListedAsset) :
    inFrontier frontier (.ok asset) = true ↔ call.Recent asset := by
  obtain ⟨hnone, hsome⟩ := builtFrontier_spec h
  unfold Recent inFrontier
  cases frontier with
  | none => simp [hnone.mp rfl]
  | some built =>
      obtain ⟨newest, hnewest, hids, -⟩ := hsome built rfl
      simp only [Option.all_some, List.contains_iff_mem, hids, hnewest, Option.some.injEq,
        forall_eq']

theorem boundsTruncated_eq_true (h : call.builtFrontier = .ok frontier) :
    boundsTruncated stream call.config frontier = true ↔
      ∃ asset ∈ assetsIn stream, call.Older asset := by
  unfold boundsTruncated
  simp only [List.any_eq_true, Bool.not_eq_true', FullRun.mem_assetsIn]
  constructor
  · rintro ⟨item, hitem, hout⟩
    cases item with
    | error error => cases hout
    | ok asset => exact ⟨asset, hitem, (inBounds_eq_false h asset).mp hout⟩
  · rintro ⟨asset, hasset, holder⟩
    exact ⟨.ok asset, hasset, (inBounds_eq_false h asset).mpr holder⟩

/-- **What a stream loses**: the assets that are too old or not recent. -/
theorem drops_iff (h : call.builtFrontier = .ok frontier) :
    Drops stream call.config frontier ↔
      ∃ asset ∈ assetsIn stream, call.Older asset ∨ ¬call.Recent asset := by
  constructor
  · intro hdrops
    by_contra hkept
    have hall : ∀ item ∈ stream, inBounds (streamCreatedLowerBound call.config frontier) item =
        true ∧ inFrontier frontier item = true := by
      intro item hitem
      cases item with
      | error error => exact ⟨rfl, rfl⟩
      | ok asset =>
          have hasset : ¬(call.Older asset ∨ ¬call.Recent asset) := fun hlost =>
            hkept ⟨asset, FullRun.mem_assetsIn.mpr hitem, hlost⟩
          rw [not_or, not_not, ← inBounds_eq_false h, ← inFrontier_eq_true h,
            Bool.not_eq_false] at hasset
          exact hasset
    apply hdrops
    unfold filterStreamToEnumerationBounds
    rw [Cuts.filter_takeWhile_eq_self hall]
  · rintro ⟨asset, hasset, hlost⟩ heq
    rw [← heq, FullRun.mem_assetsIn] at hasset
    obtain ⟨hbounds, hfrontier⟩ := Cuts.of_mem_filter_takeWhile hasset
    rw [inFrontier_eq_true h] at hfrontier
    have holder : ¬call.Older asset := by simp [← inBounds_eq_false h, hbounds]
    tauto

theorem marked_iff (h : call.builtFrontier = .ok frontier) :
    (Drops stream call.config frontier → boundsTruncated stream call.config frontier = true) ↔
      call.Separated stream := by
  rw [drops_iff h, boundsTruncated_eq_true h]
  unfold Separated
  constructor
  · intro hmarked
    by_cases hrecent : ∀ asset ∈ assetsIn stream, call.Recent asset
    · exact .inr hrecent
    · simp only [not_forall] at hrecent
      obtain ⟨asset, hasset, hnot⟩ := hrecent
      exact .inl (hmarked ⟨asset, hasset, .inr hnot⟩)
  · rintro (holder | hrecent) ⟨asset, hasset, hlost⟩
    · exact holder
    · have hrecent := hrecent asset hasset
      exact ⟨asset, hasset, hlost.resolve_right (not_not_intro hrecent)⟩

/-! ## the token -/

/-- The first run of a pass that was taken to its end tells whether its flag was left. -/
theorem firstRunOf_truncated {i : Nat} {run : PassRun} (htaken : (call.consumption i).taken = none)
    (hrun : firstRunOf call.passes call.config.toDownloadConfig call.controls
        (call.env frontier) i =
      some run) :
    run.boundsTruncated =
      boundsTruncated ((call.firstRuns frontier).stream i) call.config frontier := by
  unfold firstRunOf at hrun
  by_cases hper : needsPerPass call.passes call.config.toDownloadConfig call.controls = true
  · rw [if_pos hper] at hrun
    simp only [env, FullRun.passRun, htaken] at hrun
    by_cases hfailed : (call.consumption i).failed = true
    · simp [hfailed] at hrun
    · rw [if_neg hfailed] at hrun
      cases hrun
      rfl
  · rw [if_neg hper] at hrun
    obtain ⟨result, -, rfl⟩ := Option.map_eq_some_iff.mp hrun
    simp [env, htaken]

/-- A finished run of a repair was taken to its end, and tells its flag. -/
theorem recoveryRun_truncated {i : Nat} {run : PassRun}
    (hrun : (call.env frontier).recoveryRun i = some run) (hfinished : run.finished = true) :
    (call.consumptionAgain i).taken = none ∧ run.boundsTruncated =
      boundsTruncated ((call.recoveryRuns frontier).stream i) call.config frontier := by
  simp only [env, FullRun.passRun] at hrun
  by_cases hfailed : (call.consumptionAgain i).failed = true
  · simp [hfailed] at hrun
  · rw [if_neg hfailed] at hrun
    cases hrun
    rw [finished_eq_true] at hfinished
    have htaken : (call.consumptionAgain i).taken = none := by simpa using hfinished.1
    exact ⟨htaken, by simp [htaken, boundsTruncated, recoveryRuns, firstRuns]⟩

/-- **Bounds mark what they drop**, and the token is kept back then, exactly when the streams
that list an asset which is not recent list one that is too old, and no repair goes over one. -/
theorem marks_iff (call : BoundedCall) (frontier : Option RecentFrontier)
    (h : call.builtFrontier = .ok frontier) :
    call.Marks frontier ↔
      (∀ i < call.passes.length, call.Separated ((call.firstRuns frontier).stream i) ∧
        call.Separated ((call.recoveryRuns frontier).stream i)) ∧
      ¬call.RepairsOverOlder frontier := by
  constructor
  · intro hmarks
    refine ⟨fun i hi => ⟨(marked_iff h).mp (hmarks.first i hi),
      (marked_iff h).mp (hmarks.again i hi)⟩, ?_⟩
    rintro ⟨houtcome, hallowed, ⟨t, hagrees⟩, i, hagain, asset, hasset, holder⟩
    have hframe : (call.env frontier).frontierBuilt = true ∧
        (call.env frontier).downloadOutcome.isSome = true := ⟨rfl, houtcome⟩
    obtain ⟨result, hresult, htoken⟩ :=
      download_of_agrees hframe.1 hframe.2 hallowed hagain.1 hagrees
    obtain ⟨-, -, run, hrun, hfinished, -⟩ := hagrees.again i hagain
    have htaken := (recoveryRun_truncated hrun hfinished).1
    refine (hmarks.token result t hresult htoken i).2 hagain htaken ?_
    exact (drops_iff h).mpr ⟨asset, hasset, .inl holder⟩
  · rintro ⟨hseparated, hrepair⟩
    refine ⟨fun i hi => (marked_iff h).mpr (hseparated i hi).1,
      fun i hi => (marked_iff h).mpr (hseparated i hi).2, ?_⟩
    intro result t hresult htoken i
    obtain ⟨-, houtcome, hallowed, hagrees⟩ := agrees_of_download hresult htoken
    constructor
    · intro hruns htaken hdrops
      have hflag := (marked_iff h).mpr (hseparated i hruns.1).1 hdrops
      obtain ⟨run, hrun, hfalse⟩ := hagrees.firstRuns i hruns
      rw [firstRunOf_truncated htaken hrun, hflag] at hfalse
      contradiction
    · intro hagain htaken hdrops
      have hflag := (marked_iff h).mpr (hseparated i hagain.1.1).2 hdrops
      exact hrepair ⟨houtcome, hallowed, ⟨t, hagrees⟩, i, hagain,
        (boundsTruncated_eq_true h).mp hflag⟩

/-- One recent asset is asked for; the album also holds another one of the same date. -/
def tied : BoundedCall where
  passes := [⟨.album, "Trips", some "trips", []⟩]
  config := ⟨true, true, some 1, .global, none⟩
  controls := ⟨false, false⟩
  streams := {
    libraryWide := fun n => [.ok ⟨"a", 10⟩, .ok ⟨"b", 10⟩].take n
    pass := fun _ _ => [.ok ⟨"a", 10⟩, .ok ⟨"b", 10⟩]
    panicked := fun _ => false }
  streamsAgain := ⟨fun _ => [], fun _ _ => [], fun _ => false⟩
  cancelled _ := false
  consumption _ := ⟨none, 0, false, .sent (some "zone-1")⟩
  consumptionAgain _ := ⟨none, 0, true, .dropped⟩
  repairTokenGaps := true
  base := { albumRepaired with recoveryRun := fun _ => none }

/-- Two assets of one creation time, and the frontier takes one. -/
theorem marks_iff_tied :
    tied.Marks (some ⟨["a"], some 10⟩) ↔
      (∀ i < 1, tied.Separated ((tied.firstRuns (some ⟨["a"], some 10⟩)).stream i) ∧
        tied.Separated ((tied.recoveryRuns (some ⟨["a"], some 10⟩)).stream i)) ∧
      ¬tied.RepairsOverOlder (some ⟨["a"], some 10⟩) :=
  marks_iff tied (some ⟨["a"], some 10⟩) rfl

/-- The other asset is dropped without a mark, and the token is returned. -/
theorem tie_unmarked :
    tied.builtFrontier = .ok (some ⟨["a"], some 10⟩) ∧
    (assetsIn ((tied.firstRuns (some ⟨["a"], some 10⟩)).bounded 0)).map (·.assetRecordName) =
      ["a"] ∧
    boundsTruncated ((tied.firstRuns (some ⟨["a"], some 10⟩)).stream 0) tied.config
      (some ⟨["a"], some 10⟩) = false ∧
    (tied.download (some ⟨["a"], some 10⟩)).map (·.syncToken) = some (some "zone-1") ∧
    ¬tied.Marks (some ⟨["a"], some 10⟩) := by
  have hdrops : Drops ((tied.firstRuns (some ⟨["a"], some 10⟩)).stream 0) tied.config
      (some ⟨["a"], some 10⟩) := by
    intro heq
    have hlength := congrArg List.length heq
    revert hlength
    decide +kernel
  have hflag : boundsTruncated ((tied.firstRuns (some ⟨["a"], some 10⟩)).stream 0) tied.config
      (some ⟨["a"], some 10⟩) = false := by decide +kernel
  refine ⟨rfl, by decide +kernel, hflag, by decide +kernel, fun hmarks => ?_⟩
  have hmarked := hmarks.first 0 Nat.zero_lt_one hdrops
  rw [hflag] at hmarked
  contradiction

end BoundedCall

end Kei.FullEnumeration
