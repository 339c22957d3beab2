import Kei.Download.Producer

/-!
# Kei.Download.Counted

What the producer's counters say about the assets it has seen.

Each branch over an asset ends in one counter, except one: when the row of the
asset's master has no owner and the claim of it is not answered, the producer
goes on with the next asset.
-/

namespace Kei.Producer

open Download hiding retryTasks

/-! ## what is counted -/

/-- Assets with an outcome: skipped, forwarded, or malformed; errors of the stream are with
the malformed ones. -/
def Books.accounted (b : Books) : Nat := b.skips.unique + b.assetsForwarded + b.enumErrors

def errorsIn (stream : List Item) : Nat := stream.countP (fun item => item.toOption.isNone)

/-- Every asset seen is skipped, forwarded or malformed. -/
def Books.Accounts (b : Books) (stream : List Item) : Prop :=
  b.assetsSeen + errorsIn stream = b.accounted

/-- No earlier item of the stream is the same asset. -/
def Fresh (stream : List Item) (n : Nat) (asset : PlannedAsset) : Prop :=
  ∀ m < n, ∀ b, stream[m]? = some (.ok b) → b.assetRecordName ≠ asset.assetRecordName

namespace ProducerEnv

variable (env : ProducerEnv) (stream : List Item)

/-- The asset is looked up in the database. -/
def Eligible (asset : PlannedAsset) : Prop :=
  env.hasStateDb = true ∧ env.excludedByAlbum asset = false

def Legacy (asset : PlannedAsset) : Prop :=
  env.ctx.shouldUseLegacyMasterState (env.effectiveAssetLibrary asset) asset = true

/-- The row of the master, by library. -/
def master (asset : PlannedAsset) : String × String :=
  (env.effectiveAssetLibrary asset, asset.recordName)

/-- The asset takes the row of its master, and no earlier sibling has. -/
def TakesLegacy (n : Nat) (asset : PlannedAsset) : Prop :=
  env.Legacy asset ∧ ∀ m < n, ∀ b, stream[m]? = some (.ok b) → Fresh stream m b →
    env.Eligible b → env.Legacy b → env.master b ≠ env.master asset

/-- The asset at `n` must claim the row of its master, and every attempt fails. -/
structure ClaimFails (n : Nat) (asset : PlannedAsset) : Prop where
  fresh : Fresh stream n asset
  eligible : env.Eligible asset
  byMaster : asset.assetRecordName = asset.recordName ∨ env.TakesLegacy stream n asset
  unowned : env.ctx.legacyMasterStateOwners.bind (fun owners =>
    owners (env.effectiveAssetLibrary asset) asset.recordName) = none
  refused : ∀ k < DownloadContext.legacyOwnerClaimMaxAttempts, (env.asset n).claim k = none

end ProducerEnv

/-! ## programs that count nothing -/

/-- The books are `b`. -/
def Shows (b : Books) (s : ProducerState) : Prop := s.toBooks = b

section keeps

variable {env : ProducerEnv} {b : Books}

theorem keeps_countWriteFailures (n : Nat) : Prog.Keeps (Shows b) (countWriteFailures n) :=
  Prog.Keeps.modify (fun _ hs => hs)

theorem keeps_countWriteFailure (fails : Bool) : Prog.Keeps (Shows b) (countWriteFailure fails) :=
  keeps_countWriteFailures fails.toNat

theorem keeps_refreshMetadata (n : Nat) : Prog.Keeps (Shows b) (env.refreshMetadata n) :=
  Prog.Keeps.ite (fun _ => keeps_countWriteFailure _) (fun _ => Prog.Keeps.pure ())

theorem keeps_planAsset (asset : PlannedAsset) : Prog.Keeps (Shows b) (env.planAsset asset) := by
  intro s hs
  unfold ProducerEnv.planAsset
  cases s.taskPlanner.planAsset env.host env.fuel asset env.config.toPassConfig with
  | none => exact hs
  | some planned => exact hs

theorem keeps_sendTask (n k : Nat) (task : DownloadTask) :
    Prog.Keeps (Shows b) (env.sendTask n k task) := by
  refine Prog.Keeps.ite (fun _ => ?_) (fun _ => Prog.Keeps.halt _)
  refine Prog.Keeps.bind (Prog.Keeps.modify (fun _ hs => hs)) (fun _ => ?_)
  exact Prog.Keeps.ite (fun _ => Prog.Keeps.halt _) (fun _ => Prog.Keeps.pure ())

/-- A program that keeps the books and returns a resolved disposition. -/
def Resolves (x : ProducerM AssetDisposition) : Prop :=
  ∀ b, Prog.Triple (Shows b) x (fun disposition s => disposition ≠ .unresolved ∧ Shows b s)
    (fun _ => True)

theorem resolves_pure {disposition : AssetDisposition} (h : disposition ≠ .unresolved) :
    Resolves (pure disposition) := fun _ _ hs => ⟨h, hs⟩

theorem Resolves.after {α : Type} {x : ProducerM α} {f : α → ProducerM AssetDisposition}
    (hx : ∀ b, Prog.Keeps (Shows b) x) (hf : ∀ a, Resolves (f a)) : Resolves (x >>= f) := by
  intro b
  have hweak : Prog.Triple (Shows b) x (fun _ => Shows b) (fun _ => True) :=
    (hx b).weaken_halt (fun _ _ => trivial)
  exact Prog.Triple.bind hweak (fun a => hf a b)

theorem Resolves.ite {c : Prop} [Decidable c] {x y : ProducerM AssetDisposition}
    (hx : c → Resolves x) (hy : ¬c → Resolves y) : Resolves (if c then x else y) :=
  fun b => Prog.Triple.ite (fun h => hx h b) (fun h => hy h b)

theorem resolves_forwardTask (n k : Nat) (task : DownloadTask) :
    Resolves (env.forwardTask n k task) := by
  refine Resolves.after (fun _ => keeps_countWriteFailure _) (fun _ => ?_)
  refine Resolves.after (fun _ => keeps_sendTask n k task) (fun _ => ?_)
  exact resolves_pure (by decide)

theorem resolves_checkDisk (n k : Nat) (task : DownloadTask) :
    Resolves (env.checkDisk n k task) := by
  refine Resolves.after (fun _ _ hs => hs) (fun found => ?_)
  cases found with
  | none => exact resolves_forwardTask n k task
  | some found => exact resolves_pure (by split <;> decide)

theorem resolves_takeTask (n k : Nat) (asset : PlannedAsset) (task : DownloadTask) :
    Resolves (env.takeTask n k asset task) := by
  unfold ProducerEnv.takeTask
  refine Resolves.ite (fun _ => resolves_pure (by decide)) (fun _ => ?_)
  refine Resolves.ite (fun _ => resolves_pure (by decide)) (fun _ => ?_)
  refine Resolves.ite (fun _ => ?_) (fun _ => ?_)
  · refine Resolves.after (fun _ => keeps_countWriteFailure _) (fun _ => ?_)
    cases env.adoptPendingOnDiskTask n k asset task with
    | some adoption =>
        refine Resolves.after (fun _ => keeps_countWriteFailure _) (fun _ => ?_)
        exact resolves_pure (by decide)
    | none =>
        cases env.ctx.shouldDownloadFast task false with
        | none =>
            refine Resolves.ite (fun _ => resolves_pure (by decide)) (fun _ => ?_)
            exact resolves_checkDisk n k task
        | some download =>
            cases download with
            | true => exact resolves_forwardTask n k task
            | false => exact resolves_pure (by decide)
  · refine Resolves.after (fun _ => keeps_sendTask n k task) (fun _ => ?_)
    exact resolves_pure (by decide)

theorem max_ne_unresolved {a b : AssetDisposition} (h : b ≠ .unresolved) :
    a.max b ≠ .unresolved := by
  cases a <;> cases b <;> simp_all [AssetDisposition.max, AssetDisposition.rank]

theorem resolves_takeTasks (n : Nat) (asset : PlannedAsset) (tasks : List DownloadTask) (k : Nat)
    (disposition : AssetDisposition) (h : disposition ≠ .unresolved ∨ tasks ≠ []) :
    Resolves (env.takeTasks n asset k disposition tasks) := by
  induction tasks generalizing k disposition with
  | nil => exact resolves_pure (h.resolve_right (fun hne => hne rfl))
  | cons task tasks ih =>
      intro b
      refine Prog.Triple.bind (resolves_takeTask n k asset task b) (fun taken => ?_)
      refine Prog.Triple.pre (fun _ hs => hs.1) (fun htaken => ?_)
      have hrest := ih (k + 1) (disposition.max taken) (.inl (max_ne_unresolved htaken))
      exact (hrest b).strengthen_pre (fun _ hs => hs.2)

end keeps

/-! ## one asset -/

/-- One more asset is accounted for, and nothing else changes. -/
structure Books.Counted (b b' : Books) : Prop where
  seen : b'.seenAssetRecordNames = b.seenAssetRecordNames
  claimed : b'.claimedLegacyMasterStates = b.claimedLegacyMasterStates
  assetsSeen : b'.assetsSeen = b.assetsSeen
  accounted : b'.accounted = b.accounted + 1

theorem unique_recordFilterReason (s : ProducerSkipSummary) (reason : FilterReason) :
    (s.recordFilterReason reason).unique = s.unique + 1 := by
  cases reason <;>
    simp only [ProducerSkipSummary.recordFilterReason, ProducerSkipSummary.unique,
      ProducerSkipSummary.total] <;> omega

section step

variable {env : ProducerEnv} {b : Books} {n : Nat} {asset : PlannedAsset}

theorem counts_skip {f : ProducerSkipSummary → ProducerSkipSummary}
    (h : (f b.skips).unique = b.skips.unique + 1) :
    Prog.Triple (Shows b) (skip f) (fun _ s => b.Counted s.toBooks) (fun _ => True) := by
  rintro s rfl
  refine ⟨rfl, rfl, rfl, ?_⟩
  simp only [Books.accounted, h]
  omega

theorem counts_enumError :
    Prog.Triple (Shows b) countEnumError (fun _ s => b.Counted s.toBooks) (fun _ => True) := by
  rintro s rfl
  refine ⟨rfl, rfl, rfl, ?_⟩
  simp only [Books.accounted]
  omega

theorem counts_settle {disposition : AssetDisposition} (h : disposition ≠ .unresolved) :
    Prog.Triple (Shows b) (settle disposition) (fun _ s => b.Counted s.toBooks)
      (fun _ => True) := by
  cases disposition with
  | unresolved => exact absurd rfl h
  | forwarded =>
      rintro s rfl
      refine ⟨rfl, rfl, rfl, ?_⟩
      simp only [Books.accounted]
      omega
  | _ =>
      unfold settle
      refine counts_skip ?_
      simp only [ProducerSkipSummary.unique, ProducerSkipSummary.total]
      omega

theorem counts_followPlan (plan : AssetTaskPlan) :
    Prog.Triple (Shows b) (env.followPlan n asset plan) (fun _ s => b.Counted s.toBooks)
      (fun _ => True) := by
  unfold ProducerEnv.followPlan
  cases plan.filterReason with
  | some reason => exact counts_skip (unique_recordFilterReason _ reason)
  | none =>
      cases plan.malformedResource with
      | some resource => exact counts_enumError
      | none =>
          simp only
          by_cases hempty : plan.tasks.isEmpty = true
          · rw [if_pos hempty]
            have hwrites : Prog.Triple (Shows b) (countWriteFailures
                (if env.hasStateDb then (env.asset n).adoptionFailures else 0))
                (fun _ => Shows b) (fun _ => True) := fun _ hs => hs
            refine Prog.Triple.bind hwrites (fun _ => ?_)
            refine Prog.Triple.bind (R := fun _ => Shows b) (Prog.Triple.modify ?_) (fun _ => ?_)
            · intro s hs
              split <;> exact hs
            · refine counts_skip ?_
              simp only [ProducerSkipSummary.unique, ProducerSkipSummary.total]
              omega
          · rw [if_neg hempty]
            have hne : plan.tasks ≠ [] := by simpa using hempty
            have htasks : Resolves (env.takeTasks n asset 0 .unresolved plan.tasks) :=
              resolves_takeTasks n asset plan.tasks 0 .unresolved (.inr hne)
            refine Prog.Triple.bind (htasks b) (fun disposition => ?_)
            refine Prog.Triple.pre (fun _ hs => hs.1) (fun hresolved => ?_)
            exact (counts_settle hresolved).strengthen_pre (fun _ hs => hs.2)

/-- What looking an asset up makes of it and of the masters that were taken. -/
def ProducerEnv.claimResult (env : ProducerEnv) (n : Nat) (asset : PlannedAsset)
    (claimed : List (String × String)) : Option String × List (String × String) :=
  if env.hasStateDb && !env.excludedByAlbum asset then
    env.ctx.selectForDownload (env.effectiveAssetLibrary asset) asset (env.asset n).claim claimed
  else (some asset.stateId, claimed)

theorem claimState_spec :
    Prog.Triple (Shows b) (env.claimState n asset)
      (fun name s =>
        name = (env.ctx.selectForDownload (env.effectiveAssetLibrary asset) asset
          (env.asset n).claim b.claimedLegacyMasterStates).1 ∧
        Shows { b with claimedLegacyMasterStates :=
          (env.ctx.selectForDownload (env.effectiveAssetLibrary asset) asset
            (env.asset n).claim b.claimedLegacyMasterStates).2 } s)
      (fun _ => True) := by
  rintro s rfl
  exact ⟨rfl, rfl⟩

theorem identify_spec :
    Prog.Triple (Shows b) (env.identify n asset)
      (fun found s =>
        found.isSome = (env.claimResult n asset b.claimedLegacyMasterStates).1.isSome ∧
        Shows { b with claimedLegacyMasterStates :=
          (env.claimResult n asset b.claimedLegacyMasterStates).2 } s)
      (fun _ => True) := by
  unfold ProducerEnv.identify ProducerEnv.claimResult
  by_cases hdb : env.hasStateDb = true
  · rw [if_pos hdb]
    have hmapping : Prog.Triple (Shows b) (countWriteFailure (!(env.asset n).mappingWritten))
        (fun _ => Shows b) (fun _ => True) := fun _ hs => hs
    refine Prog.Triple.bind hmapping (fun _ => ?_)
    by_cases hexcluded : env.excludedByAlbum asset = true
    · rw [if_pos hexcluded]
      simp only [hdb, hexcluded]
      exact fun s hs => ⟨rfl, hs⟩
    · rw [if_neg hexcluded]
      simp only [hdb, hexcluded, Bool.true_and, Bool.not_false, if_true]
      refine Prog.Triple.bind claimState_spec (fun name => ?_)
      refine Prog.Triple.pre (fun _ hs => hs.1) (fun hname => ?_)
      rw [← hname]
      cases name with
      | some name => exact fun s hs => ⟨rfl, hs.2⟩
      | none =>
          refine Prog.Triple.bind (R := fun _ s => Shows _ s) (fun s hs => hs.2) (fun _ => ?_)
          exact fun s hs => ⟨rfl, hs⟩
  · rw [if_neg hdb]
    simp only [hdb]
    exact fun s hs => ⟨rfl, hs⟩

/-- What taking an asset does to the books. -/
structure ProducerEnv.Takes (env : ProducerEnv) (n : Nat) (asset : PlannedAsset)
    (b b' : Books) : Prop where
  seen : b'.seenAssetRecordNames = asset.assetRecordName :: b.seenAssetRecordNames
  claimed : b'.claimedLegacyMasterStates =
    (env.claimResult n asset b.claimedLegacyMasterStates).2
  assetsSeen : b'.assetsSeen = b.assetsSeen + 1
  accounted : b'.accounted = b.accounted +
    (env.claimResult n asset b.claimedLegacyMasterStates).1.isSome.toNat

/-- **A new asset** is counted once, unless it cannot be claimed. -/
theorem takeFresh_spec :
    Prog.Triple (Shows b) (env.takeFresh n asset) (fun _ s => env.Takes n asset b s.toBooks)
      (fun _ => True) := by
  let seen : Books := { b with
    seenAssetRecordNames := asset.assetRecordName :: b.seenAssetRecordNames,
    assetsSeen := b.assetsSeen + 1 }
  have hseen : Prog.Triple (Shows b) (Prog.modify (fun s : ProducerState => { s with
      seenAssetRecordNames := asset.assetRecordName :: s.seenAssetRecordNames,
      assetsSeen := s.assetsSeen + 1 }) : ProducerM Unit) (fun _ => Shows seen)
      (fun _ => True) := by
    rintro s rfl
    rfl
  refine Prog.Triple.bind hseen (fun _ => ?_)
  refine Prog.Triple.bind identify_spec (fun found => ?_)
  refine Prog.Triple.pre (fun _ hs => hs.1) (fun hfound => ?_)
  cases found with
  | none =>
      refine Prog.Triple.pure (fun s hs => ?_)
      obtain ⟨-, hbooks⟩ := hs
      rw [show s.toBooks = _ from hbooks]
      refine ⟨rfl, rfl, rfl, ?_⟩
      rw [← hfound]
      rfl
  | some found =>
      let named : Books := { seen with
        claimedLegacyMasterStates := (env.claimResult n asset b.claimedLegacyMasterStates).2 }
      have hrefresh : Prog.Keeps (Shows named) (env.refreshMetadata n) := keeps_refreshMetadata n
      have hplan : Prog.Keeps (Shows named) (env.planAsset found) := keeps_planAsset found
      refine Prog.Triple.bind (hrefresh.conseq (fun _ hs => hs.2) (fun _ _ hs => hs)
        (fun _ _ => trivial)) (fun _ => ?_)
      refine Prog.Triple.bind (hplan.weaken_halt (fun _ _ => trivial)) (fun plan => ?_)
      refine (counts_followPlan plan).weaken_post (fun _ s hs => ?_)
      refine ⟨hs.seen, hs.claimed, hs.assetsSeen, ?_⟩
      rw [hs.accounted, ← hfound]
      rfl

/-- A duplicate is only counted as one. -/
structure Books.Repeats (b b' : Books) : Prop where
  seen : b'.seenAssetRecordNames = b.seenAssetRecordNames
  claimed : b'.claimedLegacyMasterStates = b.claimedLegacyMasterStates
  assetsSeen : b'.assetsSeen = b.assetsSeen
  accounted : b'.accounted = b.accounted

theorem takeAsset_spec :
    Prog.Triple (Shows b) (env.takeAsset n asset)
      (fun _ s =>
        (asset.assetRecordName ∈ b.seenAssetRecordNames → b.Repeats s.toBooks) ∧
        (asset.assetRecordName ∉ b.seenAssetRecordNames → env.Takes n asset b s.toBooks))
      (fun _ => True) := by
  have hread : Prog.Triple (Shows b) (Prog.read (fun s : ProducerState =>
      s.seenAssetRecordNames.contains asset.assetRecordName) : ProducerM Bool)
      (fun seen s => seen = decide (asset.assetRecordName ∈ b.seenAssetRecordNames) ∧ Shows b s)
      (fun _ => True) := by
    rintro s rfl
    exact ⟨List.contains_eq_mem _ _, rfl⟩
  refine Prog.Triple.bind hread (fun seen => ?_)
  refine Prog.Triple.pre (fun _ hs => hs.1) (fun hseen => ?_)
  subst hseen
  by_cases hmem : asset.assetRecordName ∈ b.seenAssetRecordNames
  · rw [if_pos (decide_eq_true hmem)]
    rintro s ⟨-, rfl⟩
    refine ⟨fun _ => ⟨rfl, rfl, rfl, ?_⟩, fun hnot => absurd hmem hnot⟩
    have hunique (skips : ProducerSkipSummary) :
        ({ skips with duplicates := skips.duplicates + 1 } : ProducerSkipSummary).unique =
          skips.unique := by
      simp only [ProducerSkipSummary.unique, ProducerSkipSummary.total]
      omega
    simp only [Books.accounted, hunique]
  · rw [if_neg (by simpa using hmem)]
    exact takeFresh_spec.conseq (fun _ hs => hs.2)
      (fun _ _ hs => ⟨fun h => absurd h hmem, fun _ => hs⟩) (fun _ hs => hs)

end step

/-! ## the run -/

section run

variable {env : ProducerEnv} {stream : List Item} {n : Nat} {b b' : Books} {asset : PlannedAsset}

/-- The books know the assets before the `n`-th item, and the masters they have taken. -/
structure Tracks (env : ProducerEnv) (stream : List Item) (n : Nat) (b : Books) : Prop where
  seen : ∀ name, name ∈ b.seenAssetRecordNames ↔
    ∃ m < n, ∃ a, stream[m]? = some (.ok a) ∧ a.assetRecordName = name
  claimed : ∀ p, p ∈ b.claimedLegacyMasterStates ↔
    ∃ m < n, ∃ a, stream[m]? = some (.ok a) ∧ Fresh stream m a ∧ env.Eligible a ∧
      env.Legacy a ∧ env.master a = p

theorem Tracks.fresh_iff (h : Tracks env stream n b) :
    asset.assetRecordName ∉ b.seenAssetRecordNames ↔ Fresh stream n asset := by
  rw [h.seen]
  unfold Fresh
  grind

theorem Tracks.takesLegacy_iff (h : Tracks env stream n b) :
    env.TakesLegacy stream n asset ↔
      env.Legacy asset ∧ env.master asset ∉ b.claimedLegacyMasterStates := by
  rw [h.claimed]
  unfold ProducerEnv.TakesLegacy
  grind

/-- The row of the master is chosen by the one child that takes it. -/
theorem selected_eq_iff (ctx : DownloadContext) (library : String)
    (claimed : List (String × String)) :
    (ctx.selectAssetStateRecordName library asset claimed).1 = asset.recordName ↔
      asset.assetRecordName = asset.recordName ∨
        (ctx.shouldUseLegacyMasterState library asset = true ∧
          (library, asset.recordName) ∉ claimed) := by
  rw [ctx.selectAssetStateRecordName_eq]
  split
  · next htakes => simp [htakes]
  · next hleaves => simp [hleaves]

theorem selected_claimed (ctx : DownloadContext) (library : String)
    (claimed : List (String × String)) (p : String × String) :
    p ∈ (ctx.selectAssetStateRecordName library asset claimed).2 ↔
      p ∈ claimed ∨ (ctx.shouldUseLegacyMasterState library asset = true ∧
        p = (library, asset.recordName)) := by
  rw [ctx.selectAssetStateRecordName_eq]
  split
  · next htakes => simp [htakes.1, or_comm]
  · next hleaves =>
      simp only [iff_self_or]
      rintro ⟨hlegacy, rfl⟩
      exact not_not.mp (fun hmem => hleaves ⟨hlegacy, hmem⟩)

theorem selectForDownload_snd (ctx : DownloadContext) (library : String)
    (claim : Nat → Option Bool) (claimed : List (String × String)) :
    (ctx.selectForDownload library asset claim claimed).2 =
      (ctx.selectAssetStateRecordName library asset claimed).2 := by
  simp only [DownloadContext.selectForDownload]
  split
  · rfl
  · split <;> rfl

/-- The choice fails when the row of the master has no owner yet and cannot be claimed. -/
theorem selectForDownload_eq_none (ctx : DownloadContext) (library : String)
    (claim : Nat → Option Bool) (claimed : List (String × String)) :
    (ctx.selectForDownload library asset claim claimed).1 = none ↔
      (ctx.selectAssetStateRecordName library asset claimed).1 = asset.recordName ∧
        ctx.legacyMasterStateOwners.bind (fun owners => owners library asset.recordName) = none ∧
        ∀ k < DownloadContext.legacyOwnerClaimMaxAttempts, claim k = none := by
  have hattempts : (List.range DownloadContext.legacyOwnerClaimMaxAttempts).findSome? claim = none ↔
      ∀ k < DownloadContext.legacyOwnerClaimMaxAttempts, claim k = none := by
    rw [List.findSome?_eq_none_iff]
    simp only [List.mem_range]
  rw [← hattempts]
  simp only [DownloadContext.selectForDownload]
  generalize ctx.selectAssetStateRecordName library asset claimed = selected
  generalize (List.range DownloadContext.legacyOwnerClaimMaxAttempts).findSome? claim = answer
  generalize ctx.legacyMasterStateOwners.bind (fun owners => owners library asset.recordName) =
    owner
  by_cases hsame : selected.1 = asset.recordName
  · cases owner with
    | some owner => simp
    | none =>
        cases answer with
        | none => simp [hsame]
        | some granted => cases granted <;> simp [hsame]
  · simp [hsame]

theorem eligible_iff :
    (env.hasStateDb && !env.excludedByAlbum asset) = true ↔ env.Eligible asset := by
  unfold ProducerEnv.Eligible
  simp

/-- An asset that was not seen before is left uncounted when its claim fails. -/
theorem Tracks.claimFails_iff (h : Tracks env stream n b) (hfresh : Fresh stream n asset) :
    (env.claimResult n asset b.claimedLegacyMasterStates).1 = none ↔
      env.ClaimFails stream n asset := by
  unfold ProducerEnv.claimResult
  by_cases heligible : env.Eligible asset
  · rw [if_pos (eligible_iff.mpr heligible), selectForDownload_eq_none, selected_eq_iff]
    have htakes : env.TakesLegacy stream n asset ↔
        env.Legacy asset ∧ env.master asset ∉ b.claimedLegacyMasterStates := h.takesLegacy_iff
    constructor
    · rintro ⟨hmaster, howner, hrefused⟩
      exact ⟨hfresh, heligible, hmaster.imp_right htakes.mpr, howner, hrefused⟩
    · intro hfails
      exact ⟨hfails.byMaster.imp_right htakes.mp, hfails.unowned, hfails.refused⟩
  · rw [if_neg (fun heq => heligible (eligible_iff.mp heq))]
    simp only [reduceCtorEq, false_iff]
    exact fun hfails => heligible hfails.eligible

theorem mem_claimResult (p : String × String) (claimed : List (String × String)) :
    p ∈ (env.claimResult n asset claimed).2 ↔
      p ∈ claimed ∨ (env.Eligible asset ∧ env.Legacy asset ∧ env.master asset = p) := by
  unfold ProducerEnv.claimResult
  by_cases heligible : env.Eligible asset
  · rw [if_pos (eligible_iff.mpr heligible), selectForDownload_snd, selected_claimed]
    simp only [heligible, true_and, ProducerEnv.Legacy, ProducerEnv.master, eq_comm]
  · rw [if_neg (fun heq => heligible (eligible_iff.mp heq))]
    simp [heligible]

/-! ## the step -/

theorem Tracks.error {error : String} (h : Tracks env stream n b)
    (hitem : stream[n]? = some (.error error))
    (hseen : b'.seenAssetRecordNames = b.seenAssetRecordNames)
    (hclaimed : b'.claimedLegacyMasterStates = b.claimedLegacyMasterStates) :
    Tracks env stream (n + 1) b' := by
  refine ⟨fun name => ?_, fun p => ?_⟩
  · rw [hseen, h.seen]
    grind
  · rw [hclaimed, h.claimed]
    grind

theorem Tracks.duplicate (h : Tracks env stream n b) (hitem : stream[n]? = some (.ok asset))
    (hdup : asset.assetRecordName ∈ b.seenAssetRecordNames) (hbooks : b.Repeats b') :
    Tracks env stream (n + 1) b' := by
  have hstale : ¬Fresh stream n asset := by
    rw [← h.fresh_iff]
    exact not_not_intro hdup
  refine ⟨fun name => ?_, fun p => ?_⟩
  · rw [hbooks.seen]
    have hseen := h.seen name
    have hmem := h.seen asset.assetRecordName
    grind
  · rw [hbooks.claimed, h.claimed]
    grind

theorem Tracks.fresh (h : Tracks env stream n b) (hitem : stream[n]? = some (.ok asset))
    (hfresh : Fresh stream n asset) (hbooks : env.Takes n asset b b') :
    Tracks env stream (n + 1) b' := by
  refine ⟨fun name => ?_, fun p => ?_⟩
  · rw [hbooks.seen, List.mem_cons, h.seen]
    grind
  · rw [hbooks.claimed, mem_claimResult, h.claimed]
    grind

theorem errorsIn_ok : errorsIn [.ok asset] = 0 := rfl

theorem errorsIn_error (error : String) : errorsIn [.error error] = 1 := rfl

theorem errorsIn_cons (item : Item) (rest : List Item) :
    errorsIn (item :: rest) = errorsIn [item] + errorsIn rest := by
  unfold errorsIn
  rw [← List.countP_append]
  rfl

/-- What one item does to the books: it is accounted for, unless its claim fails. -/
structure Advances (env : ProducerEnv) (stream : List Item) (n : Nat) (item : Item)
    (b b' : Books) : Prop where
  tracks : Tracks env stream (n + 1) b'
  balance : ∃ lost, b'.assetsSeen + errorsIn [item] + b.accounted =
      b'.accounted + b.assetsSeen + lost ∧
    (lost = 0 ↔ ∀ asset, item = .ok asset → ¬env.ClaimFails stream n asset)

variable {s s' : ProducerState}

/-- **One asset** of the stream. -/
theorem takeAsset_advances (h : Tracks env stream n s.toBooks)
    (hitem : stream[n]? = some (.ok asset)) (hrun : env.takeAsset n asset s = (.ok (), s')) :
    Advances env stream n (.ok asset) s.toBooks s'.toBooks := by
  obtain ⟨hduplicate, hnew⟩ := (takeAsset_spec (b := s.toBooks)).ok rfl hrun
  by_cases hdup : asset.assetRecordName ∈ s.seenAssetRecordNames
  · have hbooks := hduplicate hdup
    have hstale : ¬Fresh stream n asset := by
      rw [← h.fresh_iff]
      exact not_not_intro hdup
    refine ⟨h.duplicate hitem hdup hbooks, 0, ?_, ?_⟩
    · have hseen := hbooks.assetsSeen
      have haccounted := hbooks.accounted
      rw [errorsIn_ok]
      omega
    · simp only [true_iff]
      intro a ha
      cases ha
      exact fun hfails => hstale hfails.fresh
  · have hbooks := hnew hdup
    have hfresh := h.fresh_iff.mp hdup
    have hfails := h.claimFails_iff hfresh
    refine ⟨h.fresh hitem hfresh hbooks,
      1 - (env.claimResult n asset s.claimedLegacyMasterStates).1.isSome.toNat, ?_, ?_⟩
    · have hseen := hbooks.assetsSeen
      have haccounted := hbooks.accounted
      have hle := Bool.toNat_le (env.claimResult n asset s.claimedLegacyMasterStates).1.isSome
      rw [errorsIn_ok]
      omega
    · simp only [Except.ok.injEq, forall_eq', ← hfails]
      cases (env.claimResult n asset s.claimedLegacyMasterStates).1 <;> simp

theorem countEnumError_advances {error : String} (h : Tracks env stream n s.toBooks)
    (hitem : stream[n]? = some (.error error)) (hrun : countEnumError s = (.ok (), s')) :
    Advances env stream n (.error error) s.toBooks s'.toBooks := by
  have hbooks := (counts_enumError (b := s.toBooks)).ok rfl hrun
  refine ⟨h.error hitem hbooks.seen hbooks.claimed, 0, ?_, by simp⟩
  have hseen := hbooks.assetsSeen
  have haccounted := hbooks.accounted
  rw [errorsIn_error]
  omega

/-- **The rest of the stream**, once it is taken to its end. -/
theorem produceFrom_balance (rest : List Item) (h : Tracks env stream n s.toBooks)
    (hrest : stream.drop n = rest) (hrun : env.produceFrom n rest s = (.ok true, s')) :
    ∃ lost, s'.assetsSeen + errorsIn rest + s.accounted = s'.accounted + s.assetsSeen + lost ∧
      (lost = 0 ↔ ∀ m asset, n ≤ m → stream[m]? = some (.ok asset) →
        ¬env.ClaimFails stream m asset) := by
  induction rest generalizing n s with
  | nil =>
      cases hrun
      have hend : stream.length ≤ n := List.drop_eq_nil_iff.mp hrest
      refine ⟨0, by simp [errorsIn, Nat.add_comm], ?_⟩
      simp only [true_iff]
      intro m asset hm hasset
      rw [List.getElem?_eq_none (Nat.le_trans hend hm)] at hasset
      contradiction
  | cons item rest ih =>
      have hitem : stream[n]? = some item := by
        rw [← List.head?_drop, hrest]
        rfl
      have hdrop : stream.drop (n + 1) = rest := by
        rw [← List.tail_drop, hrest]
        rfl
      rw [ProducerEnv.produceFrom] at hrun
      by_cases hcancelled : env.cancelled n = true
      · rw [if_pos hcancelled] at hrun
        cases hrun
      · rw [if_neg hcancelled] at hrun
        -- one step, then the rest
        obtain ⟨mid, hadvances, hrun⟩ : ∃ mid, Advances env stream n item s.toBooks mid.toBooks ∧
            env.produceFrom (n + 1) rest mid = (.ok true, s') := by
          cases item with
          | ok asset =>
              cases hstep : env.takeAsset n asset s with
              | mk result mid =>
                  cases result with
                  | error stop =>
                      simp only [Prog.run_bind_error hstep] at hrun
                      cases hrun
                  | ok value =>
                      simp only [Prog.run_bind_ok hstep] at hrun
                      exact ⟨mid, takeAsset_advances h hitem hstep, hrun⟩
          | error error =>
              exact ⟨_, countEnumError_advances h hitem rfl, hrun⟩
        obtain ⟨lost, hbalance, hlost⟩ := hadvances.balance
        obtain ⟨more, hmore, hrestlost⟩ := ih hadvances.tracks hdrop hrun
        refine ⟨lost + more, ?_, ?_⟩
        · have hcount := errorsIn_cons item rest
          omega
        · rw [Nat.add_eq_zero_iff, hlost, hrestlost]
          constructor
          · rintro ⟨hfirst, hlater⟩ m asset hm hasset
            rcases Nat.eq_or_lt_of_le hm with rfl | hm
            · rw [hitem] at hasset
              exact hfirst asset (Option.some.inj hasset)
            · exact hlater m asset hm hasset
          · intro hall
            refine ⟨fun asset hasset => hall n asset (Nat.le_refl n) (hasset ▸ hitem), ?_⟩
            exact fun m asset hm => hall m asset (Nat.le_of_succ_le hm)

/-- **Every asset is accounted for**, in a run to the end of the stream, exactly when no claim of
a legacy row fails. -/
theorem produce_accounts_iff (env : ProducerEnv) (stream : List Item) (s : ProducerState)
    (h : env.produce stream = (.ok true, s)) :
    s.toBooks.Accounts stream ↔
      ∀ n asset, stream[n]? = some (.ok asset) → ¬env.ClaimFails stream n asset := by
  have hstart : Tracks env stream 0 ProducerEnv.initial.toBooks := by
    constructor <;> simp [ProducerEnv.initial]
  obtain ⟨lost, hbalance, hlost⟩ := produceFrom_balance stream hstart rfl h
  have hzero : ProducerEnv.initial.accounted = 0 ∧ ProducerEnv.initial.assetsSeen = 0 :=
    ⟨rfl, rfl⟩
  have haccounts : s.toBooks.Accounts stream ↔ lost = 0 := by
    unfold Books.Accounts
    omega
  rw [haccounts, hlost]
  simp

end run

/-! ## an asset counted nowhere -/

/-- A child whose checksum is the one of its master's row. -/
def legacyChild : PlannedAsset :=
  { samplePlanned "master" with
    assetRecordName := "child"
    versions := [(.original, ⟨1, "https://cvws.icloud-content.com/a", "public.jpeg", "AAAA"⟩)] }

/-- A database that does not answer the claims. -/
def refusingEnv : ProducerEnv where
  host := sampleHost
  fuel := 1
  config :=
    { samplePass with
      livePhotoMode := .imageOnly, maxDownloadAttempts := 0, retryOnly := false,
      refreshMetadata := false, liveResolution_isLive := isLive_liveOriginal }
  ctx :=
    { downloadedIds := fun _ id => if id = "master" then [.original] else []
      downloadedChecksums := fun _ id _ => if id = "master" then some "AAAA" else none
      pendingIds := fun _ _ => []
      pendingChecksums := fun _ _ _ => none
      knownIds := fun _ => []
      attemptCounts := fun _ _ => none
      legacyMasterStateOwners := some (fun _ _ => none)
      assetMasterMappings := some (fun _ _ => none) }
  hasStateDb := true
  cancelled _ := false
  asset _ :=
    { mappingWritten := true, claim := fun _ => none, metadataDrift := false, retryMarker := false,
      refreshed := some 0, adoptionFailures := 0,
      task := fun _ => ⟨true, none, true, false, true, false⟩ }

/-- The asset is seen, and neither skipped, forwarded nor malformed. -/
theorem unclaimed_not_counted :
    ∃ s, refusingEnv.produce [.ok legacyChild] = (.ok true, s) ∧ s.assetsSeen = 1 ∧
      s.accounted = 0 ∧ ¬s.toBooks.Accounts [.ok legacyChild] :=
  ⟨_, rfl, rfl, rfl, fun haccounts => Nat.one_ne_zero haccounts⟩

/-- The books balance unless a claim fails, as here. -/
theorem produce_accounts_refused :
    ∃ s, refusingEnv.produce [.ok legacyChild] = (.ok true, s) ∧
      (s.toBooks.Accounts [.ok legacyChild] ↔
        ∀ n asset, ([.ok legacyChild] : List Item)[n]? = some (.ok asset) →
          ¬refusingEnv.ClaimFails [.ok legacyChild] n asset) :=
  ⟨_, rfl, produce_accounts_iff refusingEnv [.ok legacyChild] _ rfl⟩

end Kei.Producer
