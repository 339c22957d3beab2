import Kei.Download.CatalogPaths
import Kei.Download.Passes
import Mathlib.Data.Finset.Card

/-!
# Kei.Download.Outcome

The outcome of a run after its streaming phase.

Tasks that failed there are looked for in a new enumeration, planned again, and
given to a cleanup pass.  The count of failures is then that of the cleanup
pass alone: a task that the enumeration does not bring back, or that the pass
leaves out, is no longer counted.
-/

namespace Kei.Passes

open Download Workers

def keyOf (task : PublishedTask) : RetryTaskKey := .from task.toDownloadTask

def keys (tasks : List PublishedTask) : Finset RetryTaskKey := (tasks.map keyOf).toFinset

theorem mem_keys {tasks : List PublishedTask} {key : RetryTaskKey} :
    key ∈ keys tasks ↔ ∃ task ∈ tasks, keyOf task = key := by simp [keys]

/-! ## planning failed tasks again -/

/-- A pass as it is enumerated again; its listing may fail. -/
structure CleanupListing where
  photos : Option (List PlannedAsset)
  config : Download.PassConfig

structure Reenumeration where
  host : Download.Host
  /-- The number of names to try for a file. -/
  fuel : Nat
  configsBuilt : Bool
  passes : List CleanupListing
  /-- What the checks of the shutdown token see, one after the other. -/
  cancelled : Nat → Bool

/-- The keys that are still looked for, and the tasks that were found. -/
structure Refreshing where
  pendingKeys : Finset RetryTaskKey
  tasks : List PublishedTask
  taskPlanner : TaskPlanner
  checks : Nat

def takeMatchingRetryTasks : List DownloadTask → Refreshing → Refreshing
  | [], s => s
  | task :: tasks, s =>
      if RetryTaskKey.from task ∈ s.pendingKeys then
        let s := { s with
          pendingKeys := s.pendingKeys.erase (.from task)
          tasks := s.tasks ++ [⟨task, .noReplace⟩] }
        if s.pendingKeys = ∅ then s else takeMatchingRetryTasks tasks s
      else takeMatchingRetryTasks tasks s

/-- The state id of the failed task of an asset record; of two, the later. -/
def retryStateId (failedTasks : List PublishedTask) (assetRecordName : String) : Option String :=
  (failedTasks.reverse.find? (fun task => task.assetRecordName = assetRecordName)).map (·.assetId)

namespace Reenumeration

variable (env : Reenumeration) (failedTasks : List PublishedTask)

/-- Plan the assets of a pass; `none` when the planner ran out of fuel. -/
def planAssets (config : Download.PassConfig) : List PlannedAsset → Refreshing → Option Refreshing
  | [], s => some s
  | asset :: assets, s =>
      if s.pendingKeys = ∅ ∨ env.cancelled s.checks then some s
      else
        let s := { s with checks := s.checks + 1 }
        match retryStateId failedTasks asset.assetRecordName with
        | none => planAssets config assets s
        | some stateId => do
            let asset := { asset with stateRecordName := some stateId }
            let (plan, taskPlanner) ← s.taskPlanner.planAsset env.host env.fuel asset config
            let s := { s with taskPlanner := taskPlanner }
            if plan.filterReason.isSome then planAssets config assets s
            else planAssets config assets (takeMatchingRetryTasks plan.tasks s)

def planPasses : List CleanupListing → Refreshing → Option Refreshing
  | [], s => some s
  | pass :: passes, s =>
      if s.pendingKeys = ∅ ∨ env.cancelled s.checks then some s
      else do
        let assets ← pass.photos
        let s ← env.planAssets failedTasks pass.config assets { s with checks := s.checks + 1 }
        planPasses passes s

/-- `build_retry_download_tasks`; `none` is an error. -/
def buildRetryDownloadTasks : Option (List PublishedTask) :=
  if failedTasks.isEmpty then some []
  else if !env.configsBuilt then none
  else (env.planPasses failedTasks env.passes ⟨keys failedTasks, [], .new, 0⟩).map (·.tasks)

end Reenumeration

/-! ## the outcome -/

inductive DownloadOutcome where
  | success
  | sessionExpired (authErrorCount : Nat)
  | partialFailure (failedCount : Nat)
  deriving DecidableEq

def producerEnumerationIncompleteReason : String := "producer_enumeration_incomplete"

structure SyncStats where
  assetsSeen : Nat
  downloaded : Nat
  failed : Nat
  skipped : ProducerSkipSummary
  bytesDownloaded : Nat
  diskBytesWritten : Nat
  exifFailures : Nat
  stateWriteFailures : Nat
  enumerationErrors : Nat
  enumerationIncomplete : Bool
  syncTokenBlocked : Bool
  syncTokenBlockedReason : Option String
  interrupted : Bool
  rateLimited : Nat
  photosDownloaded : Nat
  videosDownloaded : Nat
  recap : RunRecap

def markProducerEnumerationIncomplete (stats : SyncStats) (incomplete : Bool) : SyncStats :=
  if incomplete then
    { stats with
      enumerationIncomplete := true
      syncTokenBlocked := true
      syncTokenBlockedReason :=
        some (stats.syncTokenBlockedReason.getD producerEnumerationIncompleteReason) }
  else stats

def authErrorThreshold : Nat := 3

def cleanupConcurrency : Nat := 5

structure OutcomeInput where
  streaming : StreamingResult
  dryRun : Bool
  /-- The shutdown token, as it is read for the enumeration and for the report. -/
  cancelledBefore : Bool
  cancelledAfter : Bool
  reenumeration : Reenumeration
  config : PassConfig
  cleanup : PassEnv

namespace OutcomeInput

variable (inp : OutcomeInput)

def failedTasks : List PublishedTask := inp.streaming.failed

/-- `producer_enumeration_incomplete`. -/
def enumerationIncomplete : Bool :=
  !inp.streaming.enumerationComplete && 0 < inp.streaming.assetsSeen && !inp.cancelledBefore &&
    !inp.streaming.urlExpiredAbort

def cleanupConfig : PassConfig := { inp.config with concurrency := cleanupConcurrency }

/-- The stats before the cleanup, of a run with this many failures. -/
def streamingStats (failed : Nat) (interrupted : Bool) : SyncStats where
  assetsSeen := inp.streaming.assetsSeen
  downloaded := inp.streaming.downloaded
  failed := failed
  skipped := inp.streaming.skipSummary
  bytesDownloaded := inp.streaming.bytesDownloaded
  diskBytesWritten := inp.streaming.diskBytesWritten
  exifFailures := inp.streaming.exifFailures
  stateWriteFailures := inp.streaming.stateWriteFailures
  enumerationErrors := inp.streaming.enumerationErrors
  enumerationIncomplete := inp.enumerationIncomplete
  syncTokenBlocked := false
  syncTokenBlockedReason := none
  interrupted := interrupted
  rateLimited := inp.streaming.rateLimitObservations
  photosDownloaded := inp.streaming.photosDownloaded
  videosDownloaded := inp.streaming.videosDownloaded
  recap := inp.streaming.recap

def emptyStats : SyncStats :=
  ⟨0, 0, 0, .empty, 0, 0, 0, 0, 0, false, false, none, false, 0, 0, 0, .empty⟩

/-- Success, unless something failed. -/
def outcomeOf (failedCount : Nat) : DownloadOutcome :=
  if 0 < failedCount then .partialFailure failedCount else .success

/-- What is reported when nothing was downloaded and nothing failed. -/
def nothingNew : DownloadOutcome × SyncStats :=
  let stats := { emptyStats with
    assetsSeen := inp.streaming.assetsSeen
    skipped := inp.streaming.skipSummary
    exifFailures := inp.streaming.exifFailures
    stateWriteFailures := inp.streaming.stateWriteFailures
    enumerationErrors := inp.streaming.enumerationErrors
    interrupted := inp.cancelledAfter }
  (outcomeOf (inp.streaming.stateWriteFailures + inp.streaming.exifFailures +
      inp.streaming.skipSummary.retryExhausted + inp.streaming.enumerationErrors +
      inp.streaming.urlExpiredAbort.toNat + inp.enumerationIncomplete.toNat),
    markProducerEnumerationIncomplete stats inp.enumerationIncomplete)

def dryRunOutcome : DownloadOutcome × SyncStats :=
  let stats := { emptyStats with
    assetsSeen := inp.streaming.assetsSeen
    downloaded := inp.streaming.downloaded
    enumerationErrors := inp.streaming.enumerationErrors
    skipped := inp.streaming.skipSummary
    interrupted := inp.cancelledAfter }
  (outcomeOf (inp.streaming.enumerationErrors + inp.enumerationIncomplete.toNat),
    markProducerEnumerationIncomplete stats inp.enumerationIncomplete)

def expiredOutcome : DownloadOutcome × SyncStats :=
  (.partialFailure (inp.failedTasks.length + inp.streaming.stateWriteFailures +
      inp.streaming.enumerationErrors + inp.streaming.exifFailures +
      inp.streaming.skipSummary.retryExhausted + 1),
    markProducerEnumerationIncomplete
      (inp.streamingStats inp.failedTasks.length inp.cancelledAfter) inp.enumerationIncomplete)

def nothingFailed : DownloadOutcome × SyncStats :=
  (outcomeOf (inp.streaming.stateWriteFailures + inp.streaming.enumerationErrors +
      inp.streaming.exifFailures + inp.streaming.skipSummary.retryExhausted +
      inp.enumerationIncomplete.toNat),
    markProducerEnumerationIncomplete
      { inp.streamingStats 0 inp.cancelledAfter with enumerationIncomplete := false }
      inp.enumerationIncomplete)

/-- What is reported after a cleanup pass. -/
def cleanedUp (passResult : PassResult) : DownloadOutcome × SyncStats :=
  let failed := passResult.failed.length
  let exifFailures := inp.streaming.exifFailures + passResult.exifFailures
  let stateWriteFailures := inp.streaming.stateWriteFailures + passResult.stateWriteFailures
  let totalAuthErrors := inp.streaming.authErrors + passResult.authErrors
  let stats := { inp.streamingStats failed inp.cancelledAfter with
    bytesDownloaded := inp.streaming.bytesDownloaded + passResult.bytesDownloaded
    diskBytesWritten := inp.streaming.diskBytesWritten + passResult.diskBytesWritten
    exifFailures := exifFailures
    stateWriteFailures := stateWriteFailures
    rateLimited := inp.streaming.rateLimitObservations + passResult.rateLimitObservations
    photosDownloaded := inp.streaming.photosDownloaded + passResult.photosDownloaded
    videosDownloaded := inp.streaming.videosDownloaded + passResult.videosDownloaded
    recap := inp.streaming.recap.merge passResult.recap }
  if authErrorThreshold ≤ totalAuthErrors then
    (.sessionExpired totalAuthErrors,
      { stats with enumerationIncomplete := false, interrupted := true })
  else
    (outcomeOf (failed + stateWriteFailures + exifFailures + inp.streaming.enumerationErrors +
        inp.streaming.skipSummary.retryExhausted + inp.enumerationIncomplete.toNat),
      markProducerEnumerationIncomplete
        { stats with downloaded := inp.streaming.downloaded + passResult.downloaded }
        inp.enumerationIncomplete)

/-- The cleanup pass over the tasks that were planned again. -/
def cleanupPass : Option PassResult :=
  (inp.reenumeration.buildRetryDownloadTasks inp.failedTasks).bind
    (runDownloadPass inp.cleanupConfig inp.cleanup)

/-- The run is over before a cleanup pass. -/
def endsEarly : Option (DownloadOutcome × SyncStats) :=
  if authErrorThreshold ≤ inp.streaming.authErrors then
    some (.sessionExpired inp.streaming.authErrors,
      inp.streamingStats inp.failedTasks.length true)
  else if inp.streaming.downloaded = 0 ∧ inp.failedTasks = [] then some inp.nothingNew
  else if inp.dryRun then some inp.dryRunOutcome
  else if inp.streaming.urlExpiredAbort then some inp.expiredOutcome
  else if inp.failedTasks = [] then some inp.nothingFailed
  else none

/-- `build_download_outcome`; `none` is an error, or a cleanup pass that is not over. -/
def buildDownloadOutcome : Option (DownloadOutcome × SyncStats) :=
  match inp.endsEarly with
  | some result => some result
  | none => inp.cleanupPass.map inp.cleanedUp

end OutcomeInput

/-! ## the tasks that are planned again -/

/-- The keys that are looked for are those that are left and those of the tasks, each once. -/
structure Refreshing.Sound (wanted : Finset RetryTaskKey) (s : Refreshing) : Prop where
  nodup : (s.tasks.map keyOf).Nodup
  apart : ∀ key ∈ s.pendingKeys, key ∉ keys s.tasks
  wanted : ∀ key, key ∈ wanted ↔ key ∈ s.pendingKeys ∨ key ∈ keys s.tasks

namespace Refreshing

variable {wanted : Finset RetryTaskKey} {s : Refreshing}

theorem Sound.take (h : s.Sound wanted) {task : DownloadTask}
    (hkey : RetryTaskKey.from task ∈ s.pendingKeys) :
    Sound wanted { s with
      pendingKeys := s.pendingKeys.erase (.from task)
      tasks := s.tasks ++ [⟨task, .noReplace⟩] } := by
  have hkeys (key : RetryTaskKey) : key ∈ keys (s.tasks ++ [⟨task, .noReplace⟩]) ↔
      key ∈ keys s.tasks ∨ RetryTaskKey.from task = key := by
    simp [mem_keys, or_and_right, exists_or, keyOf]
  have hnew : RetryTaskKey.from task ∉ keys s.tasks := h.apart _ hkey
  constructor
  · rw [List.map_append]
    refine List.nodup_append.2 ⟨h.nodup, by simp, ?_⟩
    intro key hkey' key' hkey'' heq
    simp only [List.map_cons, List.map_nil, List.mem_singleton] at hkey''
    subst heq hkey''
    exact hnew (List.mem_toFinset.2 hkey')
  · intro key hpending
    obtain ⟨hne, hpending⟩ := Finset.mem_erase.1 hpending
    rw [hkeys]
    rintro (hold | heq)
    · exact h.apart key hpending hold
    · exact hne heq.symm
  · intro key
    rw [h.wanted key, hkeys, Finset.mem_erase]
    grind

theorem Sound.takeMatching (h : s.Sound wanted) (tasks : List DownloadTask) :
    (takeMatchingRetryTasks tasks s).Sound wanted := by
  induction tasks generalizing s with
  | nil => exact h
  | cons task tasks ih =>
      rw [takeMatchingRetryTasks]
      by_cases hkey : RetryTaskKey.from task ∈ s.pendingKeys
      · rw [if_pos hkey]
        by_cases hempty : s.pendingKeys.erase (.from task) = ∅
        · rw [if_pos hempty]
          exact h.take hkey
        · rw [if_neg hempty]
          exact ih (h.take hkey)
      · rw [if_neg hkey]
        exact ih h

theorem Sound.elsewhere {s' : Refreshing} (h : s.Sound wanted)
    (hkeys : s'.pendingKeys = s.pendingKeys) (htasks : s'.tasks = s.tasks) :
    s'.Sound wanted := by
  constructor
  · rw [htasks]
    exact h.nodup
  · rw [hkeys, htasks]
    exact h.apart
  · rw [hkeys, htasks]
    exact h.wanted

end Refreshing

namespace Reenumeration

variable {env : Reenumeration} {failedTasks : List PublishedTask} {wanted : Finset RetryTaskKey}

theorem planAssets_sound {config : Download.PassConfig} {assets : List PlannedAsset}
    {s s' : Refreshing} (hs : s.Sound wanted)
    (h : env.planAssets failedTasks config assets s = some s') : s'.Sound wanted := by
  induction assets generalizing s with
  | nil =>
      rw [planAssets, Option.some.injEq] at h
      exact h ▸ hs
  | cons asset assets ih =>
      rw [planAssets] at h
      by_cases hstop : s.pendingKeys = ∅ ∨ env.cancelled s.checks = true
      · rw [if_pos hstop, Option.some.injEq] at h
        exact h ▸ hs
      · rw [if_neg hstop] at h
        cases hid : retryStateId failedTasks asset.assetRecordName with
        | none =>
            simp only [hid] at h
            apply ih _ h
            exact hs.elsewhere rfl rfl
        | some stateId =>
            simp only [hid, Option.bind_eq_bind, Option.bind_eq_some_iff] at h
            obtain ⟨⟨plan, taskPlanner⟩, -, hrest⟩ := h
            by_cases hfiltered : plan.filterReason.isSome
            · rw [if_pos hfiltered] at hrest
              apply ih _ hrest
              exact hs.elsewhere rfl rfl
            · rw [if_neg hfiltered] at hrest
              apply ih _ hrest
              apply Refreshing.Sound.takeMatching
              exact hs.elsewhere rfl rfl

theorem planPasses_sound {passes : List CleanupListing} {s s' : Refreshing}
    (hs : s.Sound wanted) (h : env.planPasses failedTasks passes s = some s') :
    s'.Sound wanted := by
  induction passes generalizing s with
  | nil =>
      rw [planPasses, Option.some.injEq] at h
      exact h ▸ hs
  | cons pass passes ih =>
      rw [planPasses] at h
      by_cases hstop : s.pendingKeys = ∅ ∨ env.cancelled s.checks = true
      · rw [if_pos hstop, Option.some.injEq] at h
        exact h ▸ hs
      · rw [if_neg hstop] at h
        simp only [Option.bind_eq_bind, Option.bind_eq_some_iff] at h
        obtain ⟨assets, -, planned, hplanned, hrest⟩ := h
        apply ih _ hrest
        apply planAssets_sound _ hplanned
        exact hs.elsewhere rfl rfl

theorem buildRetryDownloadTasks_keys {tasks : List PublishedTask}
    (h : env.buildRetryDownloadTasks failedTasks = some tasks) :
    (tasks.map keyOf).Nodup ∧ keys tasks ⊆ keys failedTasks := by
  have hstart : Refreshing.Sound (keys failedTasks) ⟨keys failedTasks, [], .new, 0⟩ :=
    ⟨by simp, by simp [keys], by simp [keys]⟩
  rw [buildRetryDownloadTasks] at h
  by_cases hempty : failedTasks.isEmpty
  · rw [if_pos hempty, Option.some.injEq] at h
    simp [← h, keys]
  · by_cases hbuilt : env.configsBuilt
    · rw [if_neg hempty, if_neg (by simp [hbuilt]), Option.map_eq_some_iff] at h
      obtain ⟨s, hs, rfl⟩ := h
      have hsound := planPasses_sound hstart hs
      exact ⟨hsound.nodup, fun key hkey => (hsound.wanted key).2 (.inr hkey)⟩
    · simp [hempty, hbuilt] at h

end Reenumeration

/-! ## lost tasks -/

/-- The keys of the failed tasks that a pass did not download. -/
def lostKeys (failedTasks downloadedTasks : List PublishedTask) : Finset RetryTaskKey :=
  keys failedTasks \ keys downloadedTasks

/-- The pass over some of the failed tasks counts as failed what it did not download exactly if
it has all of them and leaves none out. -/
theorem card_lostKeys_le_iff {failedTasks tasks downloaded failed left : List PublishedTask}
    (hperm : (downloaded ++ failed ++ left).Perm tasks) (hnodup : (tasks.map keyOf).Nodup)
    (hsub : keys tasks ⊆ keys failedTasks) :
    (lostKeys failedTasks downloaded).card ≤ failed.length ↔
      keys failedTasks ⊆ keys tasks ∧ left = [] := by
  have hnodup' : ((downloaded ++ failed ++ left).map keyOf).Nodup :=
    (hperm.map keyOf).nodup_iff.2 hnodup
  simp only [List.map_append, List.append_assoc] at hnodup'
  obtain ⟨-, hrest, hdownloaded⟩ := List.nodup_append.1 hnodup'
  obtain ⟨hfailed, -, hleft⟩ := List.nodup_append.1 hrest
  have hcard : (keys failed).card = failed.length := by
    rw [keys, List.toFinset_card_of_nodup hfailed, List.length_map]
  have hkeys (key : RetryTaskKey) : key ∈ keys tasks ↔
      key ∈ keys downloaded ∨ key ∈ keys failed ∨ key ∈ keys left := by
    simp only [mem_keys, ← hperm.mem_iff, List.mem_append, or_and_right, exists_or, or_assoc]
  have hlost : keys failed ⊆ lostKeys failedTasks downloaded := by
    intro key hkey
    rw [lostKeys, Finset.mem_sdiff]
    refine ⟨hsub ((hkeys key).2 (.inr (.inl hkey))), fun hkey' => ?_⟩
    obtain ⟨task, htask, rfl⟩ := mem_keys.1 hkey
    obtain ⟨task', htask', heq⟩ := mem_keys.1 hkey'
    exact hdownloaded _ (List.mem_map.2 ⟨task', htask', rfl⟩) _
      (List.mem_append_left _ (List.mem_map.2 ⟨task, htask, rfl⟩)) heq
  constructor
  · intro hle
    have heq : keys failed = lostKeys failedTasks downloaded :=
      Finset.eq_of_subset_of_card_le hlost (hcard ▸ hle)
    have hall : ∀ key ∈ keys failedTasks, key ∈ keys downloaded ∨ key ∈ keys failed := by
      intro key hkey
      by_cases hdone : key ∈ keys downloaded
      · exact .inl hdone
      · exact .inr (heq ▸ Finset.mem_sdiff.2 ⟨hkey, hdone⟩)
    refine ⟨fun key hkey => (hkeys key).2 ((hall key hkey).imp_right .inl), ?_⟩
    rw [List.eq_nil_iff_forall_not_mem]
    intro task htask
    have hkey : keyOf task ∈ left.map keyOf := List.mem_map.2 ⟨task, htask, rfl⟩
    have hmem : keyOf task ∈ keys failedTasks :=
      hsub ((hkeys _).2 (.inr (.inr (mem_keys.2 ⟨task, htask, rfl⟩))))
    cases hall _ hmem with
    | inl hdone =>
        exact hdownloaded _ (List.mem_toFinset.1 hdone) _ (List.mem_append_right _ hkey) rfl
    | inr hfail =>
        exact hleft _ (List.mem_toFinset.1 hfail) _ hkey rfl
  · rintro ⟨hall, rfl⟩
    rw [← hcard]
    apply Finset.card_le_card
    intro key hkey
    obtain ⟨hkey, hdone⟩ := Finset.mem_sdiff.1 hkey
    have hmem := (hkeys key).1 (hall hkey)
    simp only [hdone, false_or] at hmem
    exact hmem.elim id (by simp [keys])

theorem lostKeys_nil (failedTasks : List PublishedTask) :
    lostKeys failedTasks [] = keys failedTasks := by simp [lostKeys, keys]

theorem card_keys_le (tasks : List PublishedTask) : (keys tasks).card ≤ tasks.length := by
  rw [keys, ← tasks.length_map (f := keyOf)]
  exact List.toFinset_card_le _

theorem keys_eq_empty {tasks : List PublishedTask} : keys tasks = ∅ ↔ tasks = [] := by
  simp [keys]

/-! ## what the outcome accounts for -/

@[simp] theorem failed_mark (stats : SyncStats) (incomplete : Bool) :
    (markProducerEnumerationIncomplete stats incomplete).failed = stats.failed := by
  cases incomplete <;> rfl

namespace OutcomeInput

theorem outcomeOf_eq_success {failedCount : Nat} :
    outcomeOf failedCount = .success ↔ failedCount = 0 := by
  rw [outcomeOf]
  by_cases h : 0 < failedCount
  · simp [h, Nat.ne_of_gt h]
  · simp [Nat.eq_zero_of_not_pos h]

variable (inp : OutcomeInput)

def downloadedInCleanup : List PublishedTask :=
  match inp.endsEarly with
  | some _ => []
  | none => (inp.cleanupPass.map (·.downloadedTasks)).getD []

/-- The failed tasks that were not downloaded in the cleanup are counted, and there is none of
them in a success. -/
structure Accounts (result : DownloadOutcome × SyncStats) : Prop where
  counted : (lostKeys inp.failedTasks inp.downloadedInCleanup).card ≤ result.2.failed
  success : result.1 = .success →
    ∀ task ∈ inp.failedTasks, keyOf task ∈ keys inp.downloadedInCleanup

/-- Nothing ends the run before its cleanup. -/
structure CleansUp : Prop where
  authErrors : inp.streaming.authErrors < authErrorThreshold
  downloads : inp.dryRun = false
  urlExpiredAbort : inp.streaming.urlExpiredAbort = false
  failed : inp.failedTasks ≠ []

/-- No failed task gets lost: a dry run has none, and a cleanup plans all of them again and is
not disturbed. -/
structure KeepsTasks : Prop where
  dryRun : inp.streaming.authErrors < authErrorThreshold → inp.dryRun → inp.failedTasks = []
  planned : inp.CleansUp → ∀ tasks,
    inp.reenumeration.buildRetryDownloadTasks inp.failedTasks = some tasks →
      (passPool inp.cleanupConfig inp.cleanup tasks).isOver →
        keys inp.failedTasks ⊆ keys tasks ∧ Undisturbed inp.cleanupConfig inp.cleanup tasks

variable {inp : OutcomeInput}

theorem endsEarly_eq_none : inp.endsEarly = none ↔ inp.CleansUp := by
  have hcleansUp : inp.CleansUp ↔ inp.streaming.authErrors < authErrorThreshold ∧
      inp.dryRun = false ∧ inp.streaming.urlExpiredAbort = false ∧ inp.failedTasks ≠ [] :=
    ⟨fun h => ⟨h.authErrors, h.downloads, h.urlExpiredAbort, h.failed⟩,
      fun h => ⟨h.1, h.2.1, h.2.2.1, h.2.2.2⟩⟩
  rw [hcleansUp, endsEarly]
  by_cases hauth : authErrorThreshold ≤ inp.streaming.authErrors
  · simp [hauth]
  · have hlt : inp.streaming.authErrors < authErrorThreshold := Nat.lt_of_not_le hauth
    rw [if_neg hauth, and_iff_right hlt]
    by_cases hfailed : inp.failedTasks = [] <;>
      by_cases hdownloaded : inp.streaming.downloaded = 0 <;> cases hdry : inp.dryRun <;>
        cases habort : inp.streaming.urlExpiredAbort <;> simp [hfailed, hdownloaded]

/-- Without a cleanup the failed tasks are counted, but not in a dry run. -/
theorem accounts_endsEarly {result : DownloadOutcome × SyncStats}
    (h : inp.endsEarly = some result) : inp.Accounts result ↔
      (inp.streaming.authErrors < authErrorThreshold → inp.dryRun → inp.failedTasks = []) := by
  have hdownloaded : inp.downloadedInCleanup = [] := by simp [downloadedInCleanup, h]
  have hcard := card_keys_le inp.failedTasks
  have haccounts : inp.Accounts result ↔ (keys inp.failedTasks).card ≤ result.2.failed ∧
      (result.1 = .success → inp.failedTasks = []) := by
    have hnone : (∀ task ∈ inp.failedTasks, keyOf task ∈ keys []) ↔ inp.failedTasks = [] := by
      simp [keys, List.eq_nil_iff_forall_not_mem]
    rw [← hnone, ← hdownloaded, ← lostKeys_nil, ← hdownloaded]
    exact ⟨fun h => ⟨h.counted, h.success⟩, fun h => ⟨h.1, h.2⟩⟩
  rw [haccounts]
  rw [endsEarly] at h
  by_cases hauth : authErrorThreshold ≤ inp.streaming.authErrors
  · rw [if_pos hauth, Option.some.injEq] at h
    subst h
    simp [streamingStats, hcard, Nat.not_lt.2 hauth]
  · rw [if_neg hauth] at h
    by_cases hempty : inp.failedTasks = []
    · simp [hempty, keys]
    · rw [if_neg (by simp [hempty])] at h
      by_cases hdry : inp.dryRun
      · rw [if_pos hdry, Option.some.injEq] at h
        subst h
        simp [dryRunOutcome, emptyStats, keys_eq_empty, hempty, hdry, Nat.lt_of_not_le hauth]
      · by_cases habort : inp.streaming.urlExpiredAbort
        · rw [if_neg hdry, if_pos habort, Option.some.injEq] at h
          subst h
          simp [expiredOutcome, streamingStats, hcard, hdry]
        · simp [hdry, habort, hempty] at h

/-- After a cleanup pass the failed tasks are accounted for exactly if all were planned again
and the pass was not disturbed. -/
theorem accounts_cleanedUp (h : inp.CleansUp) {tasks : List PublishedTask}
    {passResult : PassResult}
    (htasks : inp.reenumeration.buildRetryDownloadTasks inp.failedTasks = some tasks)
    (hpass : runDownloadPass inp.cleanupConfig inp.cleanup tasks = some passResult) :
    inp.Accounts (inp.cleanedUp passResult) ↔
      keys inp.failedTasks ⊆ keys tasks ∧ Undisturbed inp.cleanupConfig inp.cleanup tasks := by
  obtain ⟨hnodup, hsub⟩ := Reenumeration.buildRetryDownloadTasks_keys htasks
  have hdownloaded : inp.downloadedInCleanup = passResult.downloadedTasks := by
    simp [downloadedInCleanup, endsEarly_eq_none.2 h, cleanupPass, htasks, hpass]
  have hfailed : (inp.cleanedUp passResult).2.failed = passResult.failed.length := by
    rw [cleanedUp]
    split <;> simp [streamingStats]
  have hsuccess : (inp.cleanedUp passResult).1 = .success → passResult.failed.length = 0 := by
    rw [cleanedUp]
    split
    · simp
    · simp only [outcomeOf_eq_success]
      omega
  rw [← leftOut_eq_nil_iff (runDownloadPass_eq_some hpass).1,
    ← card_lostKeys_le_iff (runDownloadPass_perm hpass) hnodup hsub, ← hfailed, ← hdownloaded]
  constructor
  · exact fun haccounts => haccounts.counted
  · intro hcounted
    refine ⟨hcounted, fun hresult task htask => ?_⟩
    rw [hfailed, hsuccess hresult, Nat.le_zero, Finset.card_eq_zero] at hcounted
    exact Finset.sdiff_eq_empty_iff_subset.1 hcounted (mem_keys.2 ⟨task, htask, rfl⟩)

/-- **The failed tasks of the streaming phase.**  Whatever the outcome, it counts those that were
not downloaded after all, exactly if none of them gets lost. -/
theorem buildDownloadOutcome_accounts_iff (inp : OutcomeInput) :
    (∀ result, inp.buildDownloadOutcome = some result → inp.Accounts result) ↔
      inp.KeepsTasks := by
  cases hearly : inp.endsEarly with
  | some result =>
      have hcleansUp : ¬inp.CleansUp := by simp [← endsEarly_eq_none, hearly]
      have hkeeps : inp.KeepsTasks ↔
          (inp.streaming.authErrors < authErrorThreshold → inp.dryRun → inp.failedTasks = []) :=
        ⟨fun h => h.dryRun, fun h => ⟨h, fun h' => absurd h' hcleansUp⟩⟩
      rw [hkeeps, ← accounts_endsEarly hearly]
      simp [buildDownloadOutcome, hearly]
  | none =>
      have hcleansUp : inp.CleansUp := endsEarly_eq_none.1 hearly
      have hresult (result : DownloadOutcome × SyncStats) :
          inp.buildDownloadOutcome = some result ↔ ∃ tasks passResult,
            inp.reenumeration.buildRetryDownloadTasks inp.failedTasks = some tasks ∧
              runDownloadPass inp.cleanupConfig inp.cleanup tasks = some passResult ∧
                inp.cleanedUp passResult = result := by
        simp [buildDownloadOutcome, hearly, cleanupPass, Option.bind_eq_some_iff]
      constructor
      · intro h
        refine ⟨fun _ hdry => ?_, fun _ tasks htasks hover => ?_⟩
        · simp [hcleansUp.downloads] at hdry
        · obtain ⟨passResult, hpass⟩ : ∃ passResult,
              runDownloadPass inp.cleanupConfig inp.cleanup tasks = some passResult := by
            simp [runDownloadPass, hover]
          exact (accounts_cleanedUp hcleansUp htasks hpass).1
            (h _ ((hresult _).2 ⟨tasks, passResult, htasks, hpass, rfl⟩))
      · intro h result hsome
        obtain ⟨tasks, passResult, htasks, hpass, rfl⟩ := (hresult result).1 hsome
        exact (accounts_cleanedUp hcleansUp htasks hpass).2
          (h.planned hcleansUp tasks htasks (runDownloadPass_eq_some hpass).1)

end OutcomeInput

/-! ### a failed task that is not listed again -/

def imagesOnly : Download.PassConfig :=
  { samplePass with
    livePhotoMode := .imageOnly, liveResolution_isLive := Download.isLive_liveOriginal }

def failedTask : PublishedTask where
  url := "https://cvws.icloud-content.com/a"
  downloadPath := "/photos/a.JPG"
  checksum := "AAAA"
  assetId := "a"
  assetRecordName := "a"
  library := "PrimarySync"
  size := 1
  createdLocal := ⟨0, 0⟩
  versionSize := .original
  mediaType := .photo
  publication := .noReplace

/-- One of two downloads failed, and the new enumeration does not list its photo. -/
def unlistedInput : OutcomeInput where
  streaming := { StreamingResult.empty with
    downloaded := 1, failed := [failedTask], assetsSeen := 2, enumerationComplete := true }
  dryRun := false
  cancelledBefore := false
  cancelledAfter := false
  reenumeration := ⟨sampleHost, 1, true, [⟨some [], imagesOnly⟩], fun _ => false⟩
  config := ⟨10, false, "PrimarySync", false, 0⟩
  cleanup := ⟨none, [], 0⟩

/-- The run is a success, and the photo is neither downloaded nor counted. -/
theorem unlisted_not_counted :
    ∃ result, unlistedInput.buildDownloadOutcome = some result ∧ result.1 = .success ∧
      result.2.failed = 0 ∧ unlistedInput.failedTasks = [failedTask] ∧
        unlistedInput.downloadedInCleanup = [] ∧ ¬unlistedInput.Accounts result := by
  refine ⟨_, rfl, rfl, rfl, rfl, rfl, fun haccounts => ?_⟩
  have hdownloaded := haccounts.success rfl failedTask (List.mem_singleton.2 rfl)
  exact absurd hdownloaded (by simp [show unlistedInput.downloadedInCleanup = [] from rfl, keys])

end Kei.Passes
