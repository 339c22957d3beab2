import Kei.Import.Adopted

/-!
# Kei.Import.Tallied

Which versions the counters of an import account for.

Every way out of the loop body adds one to one counter, but for a row that
cannot be written.  So the counters add up to the number of versions that are
looked for if and only if no write fails.
-/

namespace Kei.Import

open Str Download

variable {run : ImportRun} {listing : List String → Listing}

/-! ## the versions -/

/-- A version of an asset. -/
abbrev AssetVersion := PlannedAsset × DerivedPath

/-- The versions of the assets that are not filtered. -/
def versionsOf (run : ImportRun) (assets : List PlannedAsset) : List AssetVersion :=
  assets.flatMap (fun asset => (run.expectedOf asset).map (asset, ·))

/-- The file that is found for a version. -/
def foundFor (run : ImportRun) (listing : List String → Listing) (v : AssetVersion) :
    Option (Path × Metadata) :=
  firstOfSize v.2.size (family run.tree listing run.config.toDownloadConfig
    (ImportRun.candidateOf v.2) (run.expectedOf v.1) v.1.stateId)

/-- A file is found, and the strict verifier takes it. -/
def takes (run : ImportRun) (listing : List String → Listing) (v : AssetVersion) : Bool :=
  (foundFor run listing v).any (fun found => run.verified found.1 v.2.url v.2.size)

/-- The row is there already, for this file. -/
def unchanged (run : ImportRun) (listing : List String → Listing) (v : AssetVersion) : Bool :=
  (foundFor run listing v).any (fun found =>
    run.alreadyImported (v.1.stateId, v.2.versionSize) found.1 found.2)

/-- A dry run counts the file. -/
def wouldAdopt (run : ImportRun) (listing : List String → Listing) (v : AssetVersion) : Bool :=
  run.options.dryRun && takes run listing v

/-- The file is hashed, to write a row for it. -/
def attempts (run : ImportRun) (listing : List String → Listing) (v : AssetVersion) : Bool :=
  !run.options.dryRun && takes run listing v && !unchanged run listing v

/-- The file of a call is hashed, but its row cannot be written. -/
def ImportRun.loses (run : ImportRun) (call : Nat) : Bool :=
  (run.replies.computeSha256 call).isOk && !(run.replies.importAdopt call).isOk

/-- The file of a call cannot be hashed. -/
def ImportRun.unhashed (run : ImportRun) (call : Nat) : Bool :=
  !(run.replies.computeSha256 call).isOk

/-- Among the first calls. -/
def among (calls : Nat) (p : Nat → Bool) : Nat := (List.range calls).countP p

/-- What the counters account for. -/
def ImportStats.accounted (stats : ImportStats) : Nat :=
  stats.matched + stats.unmatched + stats.strictRefused + stats.hashErrors

/-! ## what a stretch of a run counts -/

/-- A stretch of a run counts these versions. -/
structure Tallies (run : ImportRun) (vs : List AssetVersion) (s s' : ImportState) : Prop where
  listing : listingOf run.host s'.dirCache = listingOf run.host s.dirCache
  calls : s'.calls = s.calls + vs.countP (attempts run (listingOf run.host s.dirCache))
  left : s'.stats.unmatched + s'.stats.strictRefused +
      vs.countP (takes run (listingOf run.host s.dirCache)) =
    s.stats.unmatched + s.stats.strictRefused + vs.length
  hashErrors : s'.stats.hashErrors + among s.calls run.unhashed =
    s.stats.hashErrors + among s'.calls run.unhashed
  taken : s'.stats.matched + among s'.calls run.unhashed + among s'.calls run.loses =
    s.stats.matched + among s.calls run.unhashed + among s.calls run.loses +
      vs.countP (takes run (listingOf run.host s.dirCache))
  matched : s'.stats.matched + s.recorded.length = s.stats.matched + s'.recorded.length +
    vs.countP (wouldAdopt run (listingOf run.host s.dirCache))
  kept : ∀ row ∈ s'.kept, row ∈ s.kept ∨ ∃ metadata, run.alreadyImported row.1 row.2 metadata

theorem Tallies.nothing {s s' : ImportState} (hcache : s'.dirCache = s.dirCache)
    (hcalls : s'.calls = s.calls) (hrecorded : s'.recorded = s.recorded)
    (hkept : s'.kept = s.kept)
    (hleft : s'.stats.unmatched + s'.stats.strictRefused =
      s.stats.unmatched + s.stats.strictRefused)
    (herrors : s'.stats.hashErrors = s.stats.hashErrors)
    (hmatched : s'.stats.matched = s.stats.matched) : Tallies run [] s s' where
  listing := by rw [hcache]
  calls := by simp [hcalls]
  left := by simp [hleft]
  hashErrors := by simp [hcalls, herrors]
  taken := by simp [hcalls, hmatched]
  matched := by simp [hrecorded, hmatched]
  kept row h := .inl (hkept ▸ h)

theorem Tallies.trans {vs vs' : List AssetVersion} {s₀ s₁ s₂ : ImportState}
    (h : Tallies run vs s₀ s₁) (h' : Tallies run vs' s₁ s₂) :
    Tallies run (vs ++ vs') s₀ s₂ := by
  obtain ⟨hlisting, hcalls, hleft, herrors, htaken, hmatched, hkept⟩ := h
  obtain ⟨hlisting', hcalls', hleft', herrors', htaken', hmatched', hkept'⟩ := h'
  rw [hlisting] at hcalls' hleft' htaken' hmatched'
  refine ⟨hlisting'.trans hlisting, ?_, ?_, by omega, ?_, ?_, fun row hrow => ?_⟩
  · simp only [List.countP_append]
    omega
  · simp only [List.countP_append, List.length_append]
    omega
  · simp only [List.countP_append]
    omega
  · simp only [List.countP_append]
    omega
  · cases hkept' row hrow with
    | inl hearlier => exact hkept row hearlier
    | inr hlater => exact .inr hlater

theorem among_succ (calls : Nat) (p : Nat → Bool) :
    among (calls + 1) p = among calls p + if p calls then 1 else 0 := by
  simp [among, List.range_succ, List.countP_append, List.countP_singleton]

theorem length_recorded (state : ImportState) :
    state.recorded.length = state.adopted.length + state.kept.length := by
  simp [ImportState.recorded]

theorem adopt_tallies (asset : PlannedAsset) (d : DerivedPath) (path : Path)
    (metadata : Metadata) (state : ImportState)
    (hattempts : attempts run (listingOf run.host state.dirCache) (asset, d) = true) :
    Tallies run [(asset, d)] state (run.adopt asset d path metadata state) := by
  have htakes : takes run (listingOf run.host state.dirCache) (asset, d) = true := by
    unfold attempts at hattempts
    grind
  have hwould : wouldAdopt run (listingOf run.host state.dirCache) (asset, d) = false := by
    unfold attempts at hattempts
    unfold wouldAdopt
    grind
  have hunhashed := among_succ state.calls run.unhashed
  have hloses := among_succ state.calls run.loses
  unfold ImportRun.adopt
  cases hhash : run.replies.computeSha256 state.calls with
  | error err =>
      constructor
      case listing => rfl
      case kept => exact fun _ h => .inl h
      all_goals simp only [List.countP_singleton, hattempts, htakes, hwould, length_recorded]
      all_goals grind [ImportRun.unhashed, ImportRun.loses, Except.toBool]
  | ok checksum =>
      cases hrow : run.replies.importAdopt state.calls with
      | error err =>
          constructor
          case listing => rfl
          case kept => exact fun _ h => .inl h
          all_goals simp only [List.countP_singleton, hattempts, htakes, hwould, length_recorded]
          all_goals grind [ImportRun.unhashed, ImportRun.loses, Except.toBool]
      | ok done =>
          constructor
          case listing => rfl
          case kept => exact fun _ h => .inl h
          all_goals simp only [List.countP_singleton, hattempts, htakes, hwould, length_recorded,
            List.length_append]
          all_goals grind [ImportRun.unhashed, ImportRun.loses, Except.toBool]

/-- What follows once a file is found adds one to one counter, or the row cannot be written. -/
theorem importMatched_tallies (asset : PlannedAsset) (d : DerivedPath) (path : Path)
    (metadata : Metadata) (state : ImportState)
    (hfound : foundFor run (listingOf run.host state.dirCache) (asset, d) =
      some (path, metadata)) :
    Tallies run [(asset, d)] state (run.importMatched asset d path metadata state) := by
  have htakes : takes run (listingOf run.host state.dirCache) (asset, d) =
      run.verified path d.url d.size := by simp [takes, hfound]
  have hunchanged : unchanged run (listingOf run.host state.dirCache) (asset, d) =
      run.alreadyImported (asset.stateId, d.versionSize) path metadata := by
    simp [unchanged, hfound]
  unfold ImportRun.importMatched
  cases hverified : run.verified path d.url d.size with
  | false =>
      constructor
      case listing => rfl
      case kept => exact fun _ h => .inl h
      all_goals simp only [List.countP_singleton, attempts, wouldAdopt, htakes, hverified,
        length_recorded]
      all_goals grind
  | true =>
      cases hdry : run.options.dryRun with
      | true =>
          constructor
          case listing => rfl
          case kept => exact fun _ h => .inl h
          all_goals simp only [List.countP_singleton, attempts, wouldAdopt, htakes, hverified,
            hdry, length_recorded]
          all_goals grind
      | false =>
          cases hthere : run.alreadyImported (asset.stateId, d.versionSize) path metadata with
          | true =>
              constructor
              case listing => rfl
              case kept =>
                intro row hrow
                cases List.mem_append.mp hrow with
                | inl hearlier => exact .inl hearlier
                | inr hnew =>
                    rw [List.mem_singleton.mp hnew]
                    exact .inr ⟨metadata, hthere⟩
              all_goals simp only [List.countP_singleton, attempts, wouldAdopt, htakes, hunchanged,
                hverified, hdry, hthere, length_recorded]
              all_goals grind
          | false =>
              simpa [hthere] using @adopt_tallies run asset d path metadata state
                (by simp [attempts, htakes, hunchanged, hverified, hdry, hthere])

/-- **One version** adds one to one counter, but for a row that cannot be written. -/
theorem importVersion_tallies (asset : PlannedAsset) (state : ImportState) (d : DerivedPath) :
    Tallies run [(asset, d)] state
      (run.importVersion asset (run.expectedOf asset) state d) := by
  obtain ⟨hfound, hlisting⟩ := @resolveMatchPath_spec run.host run.tree state.dirCache
    run.config.toDownloadConfig (ImportRun.candidateOf d) (run.expectedOf asset) asset.stateId
  unfold ImportRun.importVersion
  cases hmatch : resolveMatchPath run.host run.tree run.config.toDownloadConfig
      (ImportRun.candidateOf d) (run.expectedOf asset) asset.stateId state.dirCache with
  | mk found dirCache =>
      rw [hmatch] at hfound hlisting
      replace hfound : foundFor run (listingOf run.host state.dirCache) (asset, d) = found :=
        hfound.symm
      cases found with
      | none =>
          constructor
          case listing => exact hlisting
          case kept => exact fun _ h => .inl h
          all_goals simp only [List.countP_singleton, attempts, wouldAdopt, takes, hfound,
            length_recorded]
          all_goals grind
      | some found =>
          obtain ⟨path, metadata⟩ := found
          have hmatched := @importMatched_tallies run asset d path metadata
            { state with dirCache := dirCache } (by rw [hlisting]; exact hfound)
          obtain ⟨hsame, hcalls, hleft, herrors, htaken, hcounted, hkept⟩ := hmatched
          rw [hlisting] at hsame hcalls hleft htaken hcounted
          exact ⟨hsame, hcalls, hleft, herrors, htaken, hcounted, hkept⟩

/-! ## runs -/

theorem importVersions_tallies (asset : PlannedAsset) (ds : List DerivedPath)
    (state : ImportState) : Tallies run (ds.map (asset, ·)) state
      (ds.foldl (run.importVersion asset (run.expectedOf asset)) state) := by
  induction ds generalizing state with
  | nil => exact Tallies.nothing rfl rfl rfl rfl rfl rfl rfl
  | cons d rest ih =>
      exact (importVersion_tallies asset state d).trans
        (ih (run.importVersion asset (run.expectedOf asset) state d))

theorem importAsset_tallies (asset : PlannedAsset) (state : ImportState) :
    Tallies run (versionsOf run [asset]) state (run.importAsset asset state) := by
  unfold ImportRun.importAsset
  dsimp only
  split
  · next hnone =>
      rw [versionsOf, List.flatMap_singleton, List.isEmpty_iff.mp hnone]
      exact Tallies.nothing rfl rfl rfl rfl rfl rfl rfl
  · obtain ⟨hsame, hcalls, hleft, herrors, htaken, hmatched, hkept⟩ :=
      @importVersions_tallies run asset
      (run.expectedOf asset)
      { state with stats := { state.stats with total := state.stats.total + 1 } }
    rw [versionsOf, List.flatMap_singleton]
    exact ⟨hsame, hcalls, hleft, herrors, htaken, hmatched, hkept⟩

variable {stream : List (Except String PlannedAsset)}

/-- **A run that ends** has counted every version before the first error. -/
theorem importStream_tallies {state state' : ImportState}
    (h : run.importStream stream state = (.ok (), state')) :
    Tallies run (versionsOf run (assetsOf stream)) state state' := by
  induction stream generalizing state with
  | nil =>
      unfold ImportRun.importStream at h
      obtain ⟨-, rfl⟩ := Prod.mk.inj h
      exact Tallies.nothing rfl rfl rfl rfl rfl rfl rfl
  | cons result rest ih =>
      unfold ImportRun.importStream at h
      split at h
      · simp at h
      · cases result with
        | error message => simp at h
        | ok asset =>
            have hboth := (importAsset_tallies asset state).trans (ih h)
            rwa [versionsOf, versionsOf, ← List.flatMap_append] at hboth

variable {dirCache : DirCache} {state : ImportState}

theorem tallies_of_ok {panicked : Bool} {stats : ImportStats}
    (h : run.importAssets stream panicked dirCache = (.ok stats, state)) :
    stats = state.stats ∧ Tallies run (versionsOf run (assetsOf stream)) (.new dirCache) state := by
  unfold ImportRun.importAssets at h
  split at h
  · simp at h
  · next hstream =>
      obtain ⟨hstats, rfl⟩ := Prod.mk.inj h
      split at hstats
      · cases hstats
      · exact ⟨(Except.ok.inj hstats).symm, importStream_tallies hstream⟩

/-! ## dry runs -/

/-- The run that is not dry, with every call answered. -/
def ImportRun.forReal (run : ImportRun) : ImportRun :=
  { run with
    options := { run.options with dryRun := false }
    replies := { run.replies with
      computeSha256 := fun _ => .ok "", importAdopt := fun _ => .ok () } }

theorem importVersion_total (asset : PlannedAsset) (expected : List DerivedPath)
    (state : ImportState) (d : DerivedPath) :
    (run.importVersion asset expected state d).stats.total = state.stats.total := by
  unfold ImportRun.importVersion ImportRun.importMatched ImportRun.adopt
  grind

theorem importAsset_total (asset : PlannedAsset) (state : ImportState) :
    (run.importAsset asset state).stats.total = state.stats.total + 1 := by
  have hversions (expected ds : List DerivedPath) (s : ImportState) :
      (ds.foldl (run.importVersion asset expected) s).stats.total = s.stats.total := by
    induction ds generalizing s with
    | nil => rfl
    | cons d rest ih => exact (ih _).trans (importVersion_total asset expected s d)
  unfold ImportRun.importAsset
  dsimp only
  split
  · rfl
  · exact hversions _ _ _

theorem importStream_ends {run' : ImportRun} {stream : List (Except String PlannedAsset)}
    {s s' t : ImportState} (h : run.importStream stream s = (.ok (), s'))
    (hcancelled : run'.replies.cancelled = run.replies.cancelled)
    (htotal : t.stats.total = s.stats.total) : ∃ t', run'.importStream stream t = (.ok (), t') := by
  induction stream generalizing s t with
  | nil =>
      unfold ImportRun.importStream at h ⊢
      rw [hcancelled, htotal]
      split at h <;> simp_all
  | cons result rest ih =>
      unfold ImportRun.importStream at h ⊢
      rw [hcancelled, htotal]
      split at h
      · simp at h
      · next hgoes =>
          rw [if_neg hgoes]
          cases result with
          | error message => simp at h
          | ok asset =>
              exact ih h (by simp only [importAsset_total, htotal])

theorem importAssets_ends {run' : ImportRun} {stream : List (Except String PlannedAsset)}
    {panicked : Bool} {dirCache : DirCache} {stats : ImportStats} {state : ImportState}
    (h : run.importAssets stream panicked dirCache = (.ok stats, state))
    (hcancelled : run'.replies.cancelled = run.replies.cancelled) :
    ∃ stats' state', run'.importAssets stream panicked dirCache = (.ok stats', state') := by
  unfold ImportRun.importAssets at h
  split at h
  · simp at h
  · next hstream =>
      obtain ⟨t', ht'⟩ :=
        @importStream_ends run run' stream _ _ (.new dirCache) hstream hcancelled rfl
      unfold ImportRun.importAssets
      rw [ht']
      cases panicked with
      | true => simp at h
      | false => exact ⟨_, _, rfl⟩

/-! ## what the counters account for -/

/-- The counters account for every version, and `matched` for rows alone: those of the run, or
those that the run would leave if it were not dry. -/
structure Accounts (run : ImportRun) (stream : List (Except String PlannedAsset))
    (panicked : Bool) (dirCache : DirCache) (stats : ImportStats) (state : ImportState) :
    Prop where
  accounted : stats.accounted = (versionsOf run (assetsOf stream)).length
  rows : run.options.dryRun = false → stats.matched = state.adopted.length + state.kept.length
  kept : ∀ row ∈ state.kept, ∃ metadata, run.alreadyImported row.1 row.2 metadata
  dry : run.options.dryRun = true → state.adopted = [] ∧ state.kept = [] ∧
    ∃ stats' state', run.forReal.importAssets stream panicked dirCache = (.ok stats', state') ∧
      stats.matched = state'.adopted.length + state'.kept.length

/-- The versions whose rows the run has to write. -/
def toWrite (run : ImportRun) (stream : List (Except String PlannedAsset)) (dirCache : DirCache) :
    List AssetVersion :=
  (versionsOf run (assetsOf stream)).filter (attempts run (listingOf run.host dirCache))

theorem among_eq_zero {calls : Nat} {p : Nat → Bool} :
    among calls p = 0 ↔ ∀ n < calls, p n = false := by
  simp [among, List.countP_eq_zero]

theorem among_false (calls : Nat) : among calls (fun _ => false) = 0 :=
  among_eq_zero.mpr (fun _ _ => rfl)

variable {vs : List AssetVersion}

theorem matched_rows (h : Tallies run vs (.new dirCache) state)
    (hdry : run.options.dryRun = false) :
    state.stats.matched = state.adopted.length + state.kept.length := by
  have hmatched := h.matched
  have hwould : vs.countP (wouldAdopt run (listingOf run.host dirCache)) = 0 := by
    simp [List.countP_eq_zero, wouldAdopt, hdry]
  have hnew : (ImportState.new dirCache).recorded.length = 0 := rfl
  have hzero : (ImportState.new dirCache).stats.matched = 0 := rfl
  have hsame : (ImportState.new dirCache).dirCache = dirCache := rfl
  rw [hsame, hwould, hnew, hzero, length_recorded] at hmatched
  omega

theorem matched_of_no_failure (h : Tallies run vs (.new dirCache) state)
    (hhash : among state.calls run.unhashed = 0) (hrow : among state.calls run.loses = 0) :
    state.stats.matched = vs.countP (takes run (listingOf run.host dirCache)) := by
  have htaken := h.taken
  have hcalls : (ImportState.new dirCache).calls = 0 := rfl
  have hzero : (ImportState.new dirCache).stats.matched = 0 := rfl
  have hsame : (ImportState.new dirCache).dirCache = dirCache := rfl
  rw [hhash, hrow, hcalls, hzero, hsame] at htaken
  simpa [among] using htaken

theorem calls_eq (h : Tallies run (versionsOf run (assetsOf stream)) (.new dirCache) state) :
    state.calls = (toWrite run stream dirCache).length := by
  rw [toWrite, ← List.countP_eq_length_filter, h.calls]
  exact Nat.zero_add _

theorem accounted_add_losses (h : Tallies run vs (.new dirCache) state) :
    state.stats.accounted + among state.calls run.loses = vs.length := by
  obtain ⟨-, -, hleft, herrors, htaken, -, -⟩ := h
  simp only [ImportState.new, among, List.range_zero, List.countP_nil] at hleft herrors htaken
  unfold ImportStats.accounted among
  omega

/-- A dry run writes no row and counts those that would be written. -/
theorem dry_rows {panicked : Bool}
    (h : run.importAssets stream panicked dirCache = (.ok state.stats, state))
    (hdry : run.options.dryRun = true) : state.adopted = [] ∧ state.kept = [] ∧
      ∃ stats' state', run.forReal.importAssets stream panicked dirCache = (.ok stats', state') ∧
        state.stats.matched = state'.adopted.length + state'.kept.length := by
  have htallies := (tallies_of_ok h).2
  have hcalls : state.calls = 0 := by
    rw [calls_eq htallies, toWrite, List.length_eq_zero_iff, List.filter_eq_nil_iff]
    simp [attempts, hdry]
  have hmatched := matched_of_no_failure htallies (by rw [hcalls]; rfl) (by rw [hcalls]; rfl)
  have hrecorded : state.recorded.length = 0 := by
    have hboth := htallies.matched
    have hwould : wouldAdopt run (listingOf run.host dirCache) =
        takes run (listingOf run.host dirCache) := by
      funext v
      simp [wouldAdopt, hdry]
    simp only [ImportState.new, hwould, ImportState.recorded, List.map_nil, List.append_nil,
      List.length_nil] at hboth
    simp only [ImportState.recorded]
    omega
  rw [length_recorded] at hrecorded
  refine ⟨List.length_eq_zero_iff.mp (by omega), List.length_eq_zero_iff.mp (by omega), ?_⟩
  obtain ⟨stats', state', hreal⟩ := @importAssets_ends run run.forReal _ _ _ _ _ h rfl
  have hreal' := (tallies_of_ok hreal).2
  refine ⟨stats', state', hreal, ?_⟩
  rw [← matched_rows hreal' rfl, hmatched]
  exact (matched_of_no_failure hreal' (among_false _) (among_false _)).symm

theorem accounted_iff (h : Tallies run (versionsOf run (assetsOf stream)) (.new dirCache) state) :
    state.stats.accounted = (versionsOf run (assetsOf stream)).length ↔
      ∀ call < (toWrite run stream dirCache).length, run.loses call = false := by
  have hlost := accounted_add_losses h
  rw [← calls_eq h, ← among_eq_zero]
  omega

/--
**The counters account for every version exactly once** if and only if every
row that the run has to write is written, or its file cannot be hashed.
-/
theorem importAssets_accounts_iff {stream : List (Except String PlannedAsset)} {panicked : Bool}
    {dirCache : DirCache} {stats : ImportStats} {state : ImportState}
    (h : run.importAssets stream panicked dirCache = (.ok stats, state)) :
    Accounts run stream panicked dirCache stats state ↔
      ∀ call < (toWrite run stream dirCache).length, run.loses call = false := by
  obtain ⟨rfl, htallies⟩ := tallies_of_ok h
  constructor
  · intro haccounts
    exact (accounted_iff htallies).mp haccounts.accounted
  · intro hnone
    refine ⟨(accounted_iff htallies).mpr hnone, matched_rows htallies, fun row hrow => ?_,
      dry_rows h⟩
    exact (htallies.kept row hrow).resolve_left List.not_mem_nil

/-! ## one photo -/

/-- A run with one photo, whose row is written or not. -/
def photoRun (row : Except String Unit) : ImportRun :=
  { plainRun with replies := { allServed with importAdopt := fun _ => row } }

theorem photoRun_ends (row : Except String Unit) :
    (photoRun row).importAssets [.ok (samplePlanned "A")] false .new =
      (.ok ((photoRun row).importAsset (samplePlanned "A") (.new .new)).stats,
        (photoRun row).importAsset (samplePlanned "A") (.new .new)) := rfl

theorem photoRun_toWrite (row : Except String Unit) :
    (toWrite (photoRun row) [.ok (samplePlanned "A")] .new).length = 1 := by
  obtain ⟨d, hd, hvalues⟩ := List.map_eq_singleton_iff.mp plainPhoto_A
  simp only [Prod.mk.injEq] at hvalues
  obtain ⟨path, hpath, -⟩ := @file_oneFile (photoRun row) (listingOf sampleHost .new)
    ["/", "photos", "IMG_0001.JPG"] ⟨10, none⟩
    ⟨("A", d.versionSize), ImportRun.candidateOf d, (photoRun row).expectedOf (samplePlanned "A")⟩
    rfl hvalues.1 hvalues.2.1
  obtain ⟨found, hfound, -⟩ := Option.map_eq_some_iff.mp hpath
  have hversions : versionsOf (photoRun row) (assetsOf [.ok (samplePlanned "A")]) =
      [(samplePlanned "A", d)] := by
    have hexpected : (photoRun row).expectedOf (samplePlanned "A") = [d] := hd
    simp [versionsOf, assetsOf, Except.toOption, hexpected]
  have hattempts : attempts (photoRun row) (listingOf sampleHost .new) (samplePlanned "A", d) =
      true := by
    replace hfound : foundFor (photoRun row) (listingOf sampleHost .new) (samplePlanned "A", d) =
      some found := hfound
    unfold attempts takes unchanged
    rw [hfound]
    rfl
  have hhost : (photoRun row).host = sampleHost := rfl
  rw [toWrite, hversions, hhost, List.filter_cons_of_pos hattempts, List.filter_nil,
    List.length_singleton]

/-- One file that is adopted is counted once. -/
theorem photoRun_accounts : ∃ stats state, (photoRun (.ok ())).importAssets
    [.ok (samplePlanned "A")] false .new = (.ok stats, state) ∧
      Accounts (photoRun (.ok ())) [.ok (samplePlanned "A")] false .new stats state :=
  ⟨_, _, photoRun_ends (.ok ()),
    (importAssets_accounts_iff (photoRun_ends (.ok ()))).mpr (fun _ _ => rfl)⟩

/-- **A row that cannot be written is counted nowhere**, and the import returns its counters. -/
theorem unwritten_row_is_not_counted : ∃ stats state, (photoRun (.error "disk full")).importAssets
    [.ok (samplePlanned "A")] false .new = (.ok stats, state) ∧
      ¬ Accounts (photoRun (.error "disk full")) [.ok (samplePlanned "A")] false .new
        stats state := by
  refine ⟨_, _, photoRun_ends (.error "disk full"), fun haccounts => ?_⟩
  have hall := (accounted_iff (tallies_of_ok (photoRun_ends (.error "disk full"))).2).mp
    haccounts.accounted
  have hlost := hall 0 (by rw [photoRun_toWrite]; exact Nat.one_pos)
  exact absurd hlost (by decide)

end Kei.Import
