import Kei.Download.Outcome

/-!
# Kei.Download.UrlRetry

New URLs for the tasks of an incremental run.

URLs that are too old are replaced before the downloads start, and URLs that
expire are replaced once, for a second pass.  Both times the assets are read
again and planned again, and a task is known by its key.
-/

namespace Kei.Passes

open Download Workers
open FullEnumeration (AlbumPass)

/-! ## planning tasks with new URLs -/

/-- The asset that a task was planned for, and the pass. -/
structure UrlRetrySource where
  assetRecordName : String
  passIndex : Nat

structure UrlRefresh where
  host : Download.Host
  /-- The number of names to try for a file. -/
  fuel : Nat
  passes : List AlbumPass
  passConfigs : List Download.PassConfig
  retrySources : RetryTaskKey → Option UrlRetrySource
  /-- What a scan of a pass's zone finds of the given names; `none` is an error. -/
  hydrateMatchingAssets : Nat → List String → Option (List PlannedAsset)
  /-- What the checks of the shutdown token see, one after the other. -/
  cancelled : Nat → Bool
  /-- The orders in which the hash tables are iterated. -/
  hydratorOrder : List Nat → List Nat
  hydratorOrder_perm : ∀ indices, (hydratorOrder indices).Perm indices
  passOrder : List Nat → List Nat
  passOrder_perm : ∀ indices, (passOrder indices).Perm indices

namespace UrlRefresh

variable (env : UrlRefresh) (failedTasks : List PublishedTask)

/-- The passes that failed tasks of an asset were planned for. -/
def passIndices (assetRecordName : String) : List Nat :=
  ((failedTasks.filterMap (fun task => env.retrySources (keyOf task))).filter
    (fun source => source.assetRecordName = assetRecordName)).map (·.passIndex) |>.eraseDups

/-- The keys of `pass_indices_by_asset`. -/
def assetRecordNames : List String :=
  ((failedTasks.filterMap (fun task => env.retrySources (keyOf task))).map
    (·.assetRecordName)).eraseDups

/-- The pass that an asset is read from: the first one that is not for unfiled assets. -/
def retryHydratorPassIndex (passIndices : List Nat) : Option Nat :=
  ((passIndices.filter (fun index =>
      (env.passes[index]?).any (fun pass => pass.kind ≠ .unfiled))).min?).or
    (if env.passes.isEmpty then none else some 0)

def hydratorOf (assetRecordName : String) : Option Nat :=
  env.retryHydratorPassIndex (env.passIndices failedTasks assetRecordName)

/-- The keys of `missing_by_hydrator`. -/
def hydrators : List Nat :=
  ((env.assetRecordNames failedTasks).filterMap (env.hydratorOf failedTasks)).eraseDups

/-- What the refresh carries along: the assets that were found, and those that were planned. -/
structure State extends Refreshing where
  hydrated : List String
  planned : List String

/-- A plan; a search for a free name that runs out of fuel gives no task. -/
def planAsset (taskPlanner : TaskPlanner) (asset : PlannedAsset) (config : Download.PassConfig) :
    AssetTaskPlan × TaskPlanner :=
  (taskPlanner.planAsset env.host env.fuel asset config).getD (⟨[], none, none⟩, taskPlanner)

/-- Plan an asset for its passes. -/
def planForPasses (asset : PlannedAsset) : List Nat → Refreshing → Refreshing
  | [], s => s
  | passIndex :: passIndices, s =>
      match env.passConfigs[passIndex]? with
      | none => planForPasses asset passIndices s
      | some config =>
          let (plan, taskPlanner) := env.planAsset s.taskPlanner asset config
          let s := { s with taskPlanner := taskPlanner }
          if plan.filterReason.isSome then planForPasses asset passIndices s
          else
            let s := takeMatchingRetryTasks plan.tasks s
            if s.pendingKeys = ∅ ∨ env.cancelled s.checks then s
            else planForPasses asset passIndices { s with checks := s.checks + 1 }

def planHydrated (s : State) (asset : PlannedAsset) : State :=
  let name := asset.assetRecordName
  let s := { s with hydrated := name :: s.hydrated }
  if name ∈ s.planned ∨ name ∉ env.assetRecordNames failedTasks then s
  else
    let s := { s with planned := name :: s.planned }
    match retryStateId failedTasks name with
    | none => s
    | some stateId =>
        let passIndices := env.passOrder (env.passIndices failedTasks name)
        let asset := { asset with stateRecordName := some stateId }
        { s with toRefreshing := env.planForPasses asset passIndices s.toRefreshing }

def hydratePass (s : State) (passIndex : Nat) : State :=
  let missing := (env.assetRecordNames failedTasks).filter (fun name =>
    env.hydratorOf failedTasks name = some passIndex && !s.hydrated.contains name)
  if missing = [] ∨ s.pendingKeys = ∅ ∨ env.cancelled s.checks then s
  else
    let s := { s with checks := s.checks + 1 }
    if (env.passes[passIndex]?).isSome then
      match env.hydrateMatchingAssets passIndex missing with
      | none => s
      | some assets => assets.foldl (env.planHydrated failedTasks) s
    else s

/-- `build_incremental_expired_url_retry_tasks`. -/
def buildTasks : List PublishedTask :=
  if failedTasks.isEmpty then []
  else
    let s : State := ⟨⟨keys failedTasks, [], .new, 1⟩, [], []⟩
    if env.assetRecordNames failedTasks = [] ∨ env.cancelled 0 then []
    else ((env.hydratorOrder (env.hydrators failedTasks)).foldl
      (env.hydratePass failedTasks) s).tasks

end UrlRefresh

/-! ### the keys of the new tasks -/

namespace UrlRefresh

variable {env : UrlRefresh} {failedTasks : List PublishedTask} {wanted : Finset RetryTaskKey}

theorem planForPasses_sound {s : Refreshing} (h : s.Sound wanted) (asset : PlannedAsset)
    (passIndices : List Nat) : (env.planForPasses asset passIndices s).Sound wanted := by
  induction passIndices generalizing s with
  | nil => exact h
  | cons passIndex passIndices ih =>
      rw [planForPasses]
      cases hconfig : env.passConfigs[passIndex]? with
      | none => exact ih h
      | some config =>
          have htaken (taskPlanner : TaskPlanner) (tasks : List DownloadTask) :
              (takeMatchingRetryTasks tasks { s with taskPlanner := taskPlanner }).Sound
                wanted := by
            apply Refreshing.Sound.takeMatching
            exact h.elsewhere rfl rfl
          dsimp only
          split
          · apply ih
            exact h.elsewhere rfl rfl
          · split
            · exact htaken _ _
            · apply ih
              exact (htaken _ _).elsewhere rfl rfl

theorem planHydrated_sound {s : State} (h : s.Sound wanted) (asset : PlannedAsset) :
    (env.planHydrated failedTasks s asset).Sound wanted := by
  rw [planHydrated]
  split
  · exact h
  · cases retryStateId failedTasks asset.assetRecordName with
    | none => exact h
    | some stateId => exact planForPasses_sound h _ _

theorem hydratePass_sound {s : State} (h : s.Sound wanted) (passIndex : Nat) :
    (env.hydratePass failedTasks s passIndex).Sound wanted := by
  rw [hydratePass]
  split
  · exact h
  · have hchecked : Refreshing.Sound wanted { s.toRefreshing with checks := s.checks + 1 } :=
      h.elsewhere rfl rfl
    split
    · cases env.hydrateMatchingAssets passIndex _ with
      | none => exact hchecked
      | some assets =>
          have hfold (s' : State) (h' : s'.Sound wanted) :
              (assets.foldl (env.planHydrated failedTasks) s').Sound wanted := by
            induction assets generalizing s' with
            | nil => exact h'
            | cons asset assets ih => exact ih _ (planHydrated_sound h' asset)
          exact hfold _ hchecked
    · exact hchecked

theorem buildTasks_keys (env : UrlRefresh) (failedTasks : List PublishedTask) :
    ((env.buildTasks failedTasks).map keyOf).Nodup ∧
      keys (env.buildTasks failedTasks) ⊆ keys failedTasks := by
  have hstart : Refreshing.Sound (keys failedTasks) ⟨keys failedTasks, [], .new, 1⟩ :=
    ⟨by simp, by simp [keys], by simp [keys]⟩
  have hfold (indices : List Nat) (s : State) (h : s.Sound (keys failedTasks)) :
      (indices.foldl (env.hydratePass failedTasks) s).Sound (keys failedTasks) := by
    induction indices generalizing s with
    | nil => exact h
    | cons index indices ih => exact ih _ (hydratePass_sound h index)
  rw [buildTasks]
  split
  · simp [keys]
  · split
    · simp [keys]
    · have hsound := hfold (env.hydratorOrder (env.hydrators failedTasks))
        ⟨⟨keys failedTasks, [], .new, 1⟩, [], []⟩ hstart
      exact ⟨hsound.nodup, fun key hkey => (hsound.wanted key).2 (.inr hkey)⟩

end UrlRefresh

/-! ## old URLs -/

/-- `refreshed_by_key`: of two tasks with one key, the later. -/
def byKey (tasks : List PublishedTask) (key : RetryTaskKey) : Option PublishedTask :=
  tasks.reverse.find? (fun task => keyOf task = key)

/-- Put new tasks in the places of the old ones; each is used once. -/
def replaceRefreshed : List PublishedTask → (RetryTaskKey → Option PublishedTask) →
    List PublishedTask
  | [], _ => []
  | task :: tasks, refreshedByKey =>
      match refreshedByKey (keyOf task) with
      | some refreshed =>
          refreshed :: replaceRefreshed tasks (Function.update refreshedByKey (keyOf task) none)
      | none => task :: replaceRefreshed tasks refreshedByKey

/-- `refresh_stale_incremental_tasks_before_download`; the age of the URLs is not known if there
are none. -/
def refreshStaleIncrementalTasksBeforeDownload (env : UrlRefresh) (cancelled : Bool)
    (urlAge : Option Nat) (refreshAfter : Nat) (tasks : List PublishedTask) :
    List PublishedTask :=
  if tasks.isEmpty || cancelled then tasks
  else
    match urlAge with
    | none => tasks
    | some urlAge =>
        if urlAge < refreshAfter then tasks
        else
          let refreshedTasks := env.buildTasks tasks
          if refreshedTasks.isEmpty then tasks
          else replaceRefreshed tasks (byKey refreshedTasks)

theorem getElem?_replaceRefreshed (tasks : List PublishedTask)
    (refreshedByKey : RetryTaskKey → Option PublishedTask) (i : Nat) :
    (replaceRefreshed tasks refreshedByKey)[i]? = tasks[i]?.map (fun task =>
      if keyOf task ∈ (tasks.take i).map keyOf then task
      else (refreshedByKey (keyOf task)).getD task) := by
  induction tasks generalizing refreshedByKey i with
  | nil => simp [replaceRefreshed]
  | cons task tasks ih =>
      rw [replaceRefreshed]
      cases hfresh : refreshedByKey (keyOf task) with
      | none | some =>
          cases i with
          | zero => simp [hfresh]
          | succ i =>
              simp only [List.getElem?_cons_succ, ih, List.take_succ_cons, List.map_cons,
                List.mem_cons]
              congr 1
              funext later
              by_cases hkey : keyOf later = keyOf task
              · simp [hkey, hfresh]
              · simp [hkey, Function.update_of_ne]

theorem byKey_eq_some {tasks : List PublishedTask} {key : RetryTaskKey} {task : PublishedTask}
    (h : byKey tasks key = some task) : task ∈ tasks ∧ keyOf task = key := by
  have hmem := List.mem_of_find?_eq_some h
  have hkey := List.find?_some h
  simp only [List.mem_reverse, decide_eq_true_eq] at hmem hkey
  exact ⟨hmem, hkey⟩

theorem byKey_of_nodup {tasks : List PublishedTask} (hnodup : (tasks.map keyOf).Nodup)
    {task : PublishedTask} (htask : task ∈ tasks) : byKey tasks (keyOf task) = some task := by
  cases hfound : byKey tasks (keyOf task) with
  | none =>
      have hnone := List.find?_eq_none.1 hfound task (List.mem_reverse.2 htask)
      simp at hnone
  | some found =>
      obtain ⟨hmem, hkey⟩ := byKey_eq_some hfound
      rw [List.inj_on_of_nodup_map hnodup hmem htask hkey]

/-- The URLs are old enough to be replaced, and nothing stops it. -/
def IsStale (cancelled : Bool) (urlAge : Option Nat) (refreshAfter : Nat) : Prop :=
  cancelled = false ∧ ∃ age, urlAge = some age ∧ refreshAfter ≤ age

/-- The refresh leaves the tasks alone, or puts the new ones in their places. -/
theorem refreshStale_eq (env : UrlRefresh) (cancelled : Bool) (urlAge : Option Nat)
    (refreshAfter : Nat) (tasks : List PublishedTask) :
    refreshStaleIncrementalTasksBeforeDownload env cancelled urlAge refreshAfter tasks =
        replaceRefreshed tasks (byKey (env.buildTasks tasks)) ∨
      (refreshStaleIncrementalTasksBeforeDownload env cancelled urlAge refreshAfter tasks = tasks ∧
        (IsStale cancelled urlAge refreshAfter → env.buildTasks tasks = [])) := by
  unfold refreshStaleIncrementalTasksBeforeDownload
  by_cases hempty : tasks = []
  · simp [hempty, UrlRefresh.buildTasks]
  · cases cancelled with
    | true => simp [IsStale]
    | false =>
        cases urlAge with
        | none => simp [hempty, IsStale]
        | some age =>
            by_cases hage : age < refreshAfter
            · simp [hempty, IsStale, hage]
            · cases hbuilt : env.buildTasks tasks <;> simp [hempty, hage]

/-- **Refreshed tasks.**  The refresh keeps the sequence of keys.  A task that changes is the
first of its key, and gives way to a task that was planned again for this key; and if the URLs
are stale every such task gives way. -/
theorem refreshStale_keeps_keys (env : UrlRefresh) (cancelled : Bool) (urlAge : Option Nat)
    (refreshAfter : Nat) (tasks : List PublishedTask) :
    let result := refreshStaleIncrementalTasksBeforeDownload env cancelled urlAge refreshAfter tasks
    result.map keyOf = tasks.map keyOf ∧
      (∀ i task, tasks[i]? = some task → result[i]? ≠ some task →
        keyOf task ∉ (tasks.take i).map keyOf ∧
          ∃ refreshed ∈ env.buildTasks tasks, keyOf refreshed = keyOf task ∧
            result[i]? = some refreshed) ∧
      (IsStale cancelled urlAge refreshAfter → ∀ i task, tasks[i]? = some task →
        keyOf task ∉ (tasks.take i).map keyOf →
          ∀ refreshed ∈ env.buildTasks tasks, keyOf refreshed = keyOf task →
            result[i]? = some refreshed) := by
  intro result
  have hnodup := (env.buildTasks_keys tasks).1
  cases refreshStale_eq env cancelled urlAge refreshAfter tasks with
  | inl hreplaced =>
      have hget (i : Nat) : result[i]? = tasks[i]?.map (fun task =>
          if keyOf task ∈ (tasks.take i).map keyOf then task
          else (byKey (env.buildTasks tasks) (keyOf task)).getD task) := by
        rw [← getElem?_replaceRefreshed, ← hreplaced]
      refine ⟨?_, ?_, ?_⟩
      · apply List.ext_getElem?
        intro i
        rw [List.getElem?_map, List.getElem?_map, hget, Option.map_map]
        congr 1
        funext task
        cases hfresh : byKey (env.buildTasks tasks) (keyOf task) with
        | none => simp [hfresh]
        | some refreshed =>
            have hkey := (byKey_eq_some hfresh).2
            by_cases hseen : keyOf task ∈ (tasks.take i).map keyOf <;>
              simp only [Function.comp_apply, hseen, hfresh, if_true, if_false, Option.getD_some,
                hkey]
      · intro i task htask hchanged
        rw [hget, htask, Option.map_some] at hchanged ⊢
        by_cases hseen : keyOf task ∈ (tasks.take i).map keyOf
        · exact absurd (by rw [if_pos hseen]) hchanged
        · rw [if_neg hseen] at hchanged ⊢
          cases hfresh : byKey (env.buildTasks tasks) (keyOf task) with
          | none => simp [hfresh] at hchanged
          | some refreshed =>
              obtain ⟨hmem, hkey⟩ := byKey_eq_some hfresh
              exact ⟨hseen, refreshed, hmem, hkey, rfl⟩
      · intro _ i task htask hseen refreshed hmem hkey
        rw [hget, htask, Option.map_some, if_neg hseen, ← hkey, byKey_of_nodup hnodup hmem]
        rfl
  | inr hkept =>
      have hsame : result = tasks := hkept.1
      have hstale := hkept.2
      refine ⟨by rw [hsame], ?_, ?_⟩
      · intro i task htask hchanged
        rw [hsame] at hchanged
        exact absurd htask hchanged
      · intro hold i task _ _ refreshed hmem
        simp [hstale hold] at hmem

/-- A photo as the zone has it now. -/
def currentAsset (name checksum : String) : PlannedAsset :=
  { samplePlanned name with
    filename := some (name ++ ".jpg")
    versions := [(.original, ⟨1, "https://cvws.icloud-content.com/new", "public.jpeg",
      checksum⟩)] }

/-- A zone with two photos, of which `a` was edited since its task was planned. -/
def editedZone : UrlRefresh where
  host := sampleHost
  fuel := 1
  passes := [⟨.unfiled, "", none, []⟩]
  passConfigs := [imagesOnly]
  retrySources key := some ⟨key.assetId, 0⟩
  hydrateMatchingAssets _ names :=
    some ([currentAsset "a" "BBBB", currentAsset "b" "CCCC"].filter (·.recordName ∈ names))
  cancelled _ := false
  hydratorOrder indices := indices
  hydratorOrder_perm _ := .rfl
  passOrder indices := indices
  passOrder_perm _ := .rfl

/-- Two tasks with one key: their keys stay, and the first of them gives way. -/
theorem refreshStale_keeps_keys_edited :
    (refreshStaleIncrementalTasksBeforeDownload editedZone false (some 600) 300
        [failedTask, failedTask]).map keyOf = [keyOf failedTask, keyOf failedTask] ∧
      ∀ refreshed ∈ editedZone.buildTasks [failedTask, failedTask],
        keyOf refreshed = keyOf failedTask →
          (refreshStaleIncrementalTasksBeforeDownload editedZone false (some 600) 300
            [failedTask, failedTask])[0]? = some refreshed := by
  obtain ⟨hkeys, -, hreplaced⟩ :=
    refreshStale_keeps_keys editedZone false (some 600) 300 [failedTask, failedTask]
  refine ⟨hkeys, fun refreshed hmem hkey => ?_⟩
  exact hreplaced ⟨rfl, 600, rfl, by decide⟩ 0 failedTask rfl (by simp) refreshed hmem hkey

/-- The task of the photo gets a new URL and also a new checksum. -/
theorem refreshStale_changes_checksum :
    let result := refreshStaleIncrementalTasksBeforeDownload editedZone false (some 600) 300
      [failedTask]
    result.map (·.url) = ["https://cvws.icloud-content.com/new"] ∧
      result.map (·.checksum) = ["BBBB"] ∧ failedTask.checksum = "AAAA" := by
  decide +kernel

/-! ## expired URLs -/

def mergeExpiredUrlRetryResult (passResult : PassResult)
    (expiredRetryCandidates : List PublishedTask) (refreshedKeys : Finset RetryTaskKey)
    (retryResult : PassResult) : PassResult :=
  let stillFailed := expiredRetryCandidates.filter (fun task => keyOf task ∉ refreshedKeys)
  { passResult with
    failed := stillFailed ++ retryResult.failed
    downloaded := passResult.downloaded + retryResult.downloaded
    downloadedTasks := passResult.downloadedTasks ++ retryResult.downloadedTasks
    authErrors := passResult.authErrors + retryResult.authErrors
    exifFailures := passResult.exifFailures + retryResult.exifFailures
    stateWriteFailures := passResult.stateWriteFailures + retryResult.stateWriteFailures
    bytesDownloaded := passResult.bytesDownloaded + retryResult.bytesDownloaded
    diskBytesWritten := passResult.diskBytesWritten + retryResult.diskBytesWritten
    rateLimitObservations := passResult.rateLimitObservations + retryResult.rateLimitObservations
    photosDownloaded := passResult.photosDownloaded + retryResult.photosDownloaded
    videosDownloaded := passResult.videosDownloaded + retryResult.videosDownloaded
    recap := passResult.recap.merge retryResult.recap
    urlExpiredAbort := retryResult.urlExpiredAbort || !stillFailed.isEmpty }

/-- What the downloads of an incremental run meet. -/
structure IncrementalDownload where
  config : PassConfig
  first : PassEnv
  /-- The shutdown token, as it is read between the passes. -/
  cancelled : Bool
  refresh : UrlRefresh
  retry : PassEnv

namespace IncrementalDownload

variable (run : IncrementalDownload) (plannedTasks : List PublishedTask)

/-- The expired URLs of a pass are replaced. -/
def retries (passResult : PassResult) : Bool :=
  passResult.urlExpiredAbort && passResult.authErrors < authErrorThreshold && !run.cancelled

def expiredRetryCandidates (passResult : PassResult) : List PublishedTask :=
  plannedTasks.filter (fun task => keyOf task ∉ keys passResult.downloadedTasks)

def retryTasks (passResult : PassResult) : List PublishedTask :=
  run.refresh.buildTasks (expiredRetryCandidates plannedTasks passResult)

/-- The result of the second pass merged into that of the first. -/
def retryExpired (passResult : PassResult) : Option PassResult :=
  let candidates := expiredRetryCandidates plannedTasks passResult
  let retryTasks := run.retryTasks plannedTasks passResult
  if !retryTasks.isEmpty then
    (runDownloadPass run.config run.retry retryTasks).map
      (mergeExpiredUrlRetryResult passResult candidates (keys retryTasks))
  else if !candidates.isEmpty then some { passResult with failed := candidates }
  else some passResult

/-- The download phase; `none` while a pass is not over. -/
def download : Option PassResult :=
  (runDownloadPass run.config run.first plannedTasks).bind (fun passResult =>
    if run.retries passResult then run.retryExpired plannedTasks passResult else some passResult)

/-! ### tasks that disappear -/

/-- The caller's own shutdown was requested at some time. -/
def ShutdownRequested : Prop :=
  Event.stop ∈ run.first.events ∨ run.cancelled = true ∨ (∃ n, run.refresh.cancelled n = true) ∨
    Event.stop ∈ run.retry.events

/-- Every planned task is in the lists of the result, by its key. -/
def Accounted (result : PassResult) : Prop :=
  ∀ task ∈ plannedTasks,
    keyOf task ∈ keys result.downloadedTasks ∨ keyOf task ∈ keys result.failed

/-- The pass whose failures are final refuses no start and has no task interrupted: the second one
if the first is retried, else the first. -/
structure KeepsAll : Prop where
  first : ∀ passResult, runDownloadPass run.config run.first plannedTasks = some passResult →
    run.retries passResult = false → Undisturbed run.config run.first plannedTasks
  retry : ∀ passResult, runDownloadPass run.config run.first plannedTasks = some passResult →
    run.retries passResult = true →
      (passPool run.config run.retry (run.retryTasks plannedTasks passResult)).isOver →
        Undisturbed run.config run.retry (run.retryTasks plannedTasks passResult)

variable {run : IncrementalDownload} {plannedTasks : List PublishedTask}

theorem keys_append (tasks tasks' : List PublishedTask) :
    keys (tasks ++ tasks') = keys tasks ∪ keys tasks' := by simp [keys]

variable {passResult : PassResult}

theorem accounted_of_undisturbed
    (h : runDownloadPass run.config run.first plannedTasks = some passResult)
    (hundisturbed : Undisturbed run.config run.first plannedTasks) :
    Accounted plannedTasks passResult := by
  have hnil := (leftOut_eq_nil_iff (runDownloadPass_eq_some h).1).2 hundisturbed
  have hperm := runDownloadPass_perm h
  intro task htask
  rw [← hperm.mem_iff, hnil, List.append_nil, List.mem_append] at htask
  exact htask.imp (fun h => mem_keys.2 ⟨task, h, rfl⟩) (fun h => mem_keys.2 ⟨task, h, rfl⟩)

/-- Where each task has its own key, a task that is left out is in neither list. -/
theorem undisturbed_of_accounted
    (h : runDownloadPass run.config run.first plannedTasks = some passResult)
    (hnodup : (plannedTasks.map keyOf).Nodup) (haccounted : Accounted plannedTasks passResult) :
    Undisturbed run.config run.first plannedTasks := by
  rw [← leftOut_eq_nil_iff (runDownloadPass_eq_some h).1, List.eq_nil_iff_forall_not_mem]
  intro left hleft
  have hperm := runDownloadPass_perm h
  have hnodup' := (hperm.map keyOf).nodup_iff.2 hnodup
  rw [List.map_append] at hnodup'
  have hapart := (List.nodup_append.1 hnodup').2.2
  have hends : keyOf left ∈
      (passResult.downloadedTasks ++ passResult.failed).map keyOf := by
    rw [List.map_append, List.mem_append]
    exact (haccounted left (hperm.mem_iff.1 (List.mem_append_right _ hleft))).imp
      (fun h => List.mem_map.2 (mem_keys.1 h)) (fun h => List.mem_map.2 (mem_keys.1 h))
  exact hapart _ hends _ (List.mem_map.2 ⟨left, hleft, rfl⟩) rfl

theorem mem_keys_filter {tasks : List PublishedTask} {taken : Finset RetryTaskKey}
    {key : RetryTaskKey} :
    key ∈ keys (tasks.filter (fun task => keyOf task ∉ taken)) ↔
      key ∈ keys tasks ∧ key ∉ taken := by
  simp only [mem_keys, List.mem_filter, decide_eq_true_eq]
  constructor
  · rintro ⟨task, ⟨htask, hleft⟩, rfl⟩
    exact ⟨⟨task, htask, rfl⟩, hleft⟩
  · rintro ⟨⟨task, htask, rfl⟩, hleft⟩
    exact ⟨task, ⟨htask, hleft⟩, rfl⟩

theorem keyOf_mem_candidates {key : RetryTaskKey} :
    key ∈ keys (expiredRetryCandidates plannedTasks passResult) ↔
      key ∈ keys plannedTasks ∧ key ∉ keys passResult.downloadedTasks :=
  mem_keys_filter

theorem accounted_merged {passResult retryResult : PassResult}
    (h : runDownloadPass run.config run.retry (run.retryTasks plannedTasks passResult) =
      some retryResult) :
    Accounted plannedTasks (mergeExpiredUrlRetryResult passResult
        (expiredRetryCandidates plannedTasks passResult)
        (keys (run.retryTasks plannedTasks passResult)) retryResult) ↔
      Undisturbed run.config run.retry (run.retryTasks plannedTasks passResult) := by
  obtain ⟨hnodup, hsub⟩ :=
    run.refresh.buildTasks_keys (expiredRetryCandidates plannedTasks passResult)
  have hperm := runDownloadPass_perm h
  rw [← leftOut_eq_nil_iff (runDownloadPass_eq_some h).1]
  simp only [Accounted, mergeExpiredUrlRetryResult, keys_append, Finset.mem_union, mem_keys_filter]
  constructor
  · intro haccounted
    rw [List.eq_nil_iff_forall_not_mem]
    intro left hleft
    -- it is in the second pass, and so it was a candidate
    have hretry : keyOf left ∈ keys (run.retryTasks plannedTasks passResult) :=
      mem_keys.2 ⟨left, hperm.mem_iff.1 (List.mem_append_right _ hleft), rfl⟩
    obtain ⟨hplanned, hdownloaded⟩ := keyOf_mem_candidates.1 (hsub hretry)
    obtain ⟨task, htask, hkey⟩ := mem_keys.1 hplanned
    have hnodup' := (hperm.map keyOf).nodup_iff.2 hnodup
    rw [List.map_append] at hnodup'
    have hapart := (List.nodup_append.1 hnodup').2.2
    have hnot : keyOf left ∉ keys retryResult.downloadedTasks ∧
        keyOf left ∉ keys retryResult.failed := by
      have hends : keyOf left ∉ (retryResult.downloadedTasks ++ retryResult.failed).map keyOf :=
        fun hmem => hapart _ hmem _ (List.mem_map.2 ⟨left, hleft, rfl⟩) rfl
      simpa [keys, not_or] using hends
    have hcases := haccounted task htask
    rw [hkey] at hcases
    simp [hdownloaded, hretry, hnot] at hcases
  · intro hleft task htask
    rw [hleft, List.append_nil] at hperm
    by_cases hdownloaded : keyOf task ∈ keys passResult.downloadedTasks
    · exact .inl (.inl hdownloaded)
    · have hcandidate : keyOf task ∈ keys (expiredRetryCandidates plannedTasks passResult) :=
        keyOf_mem_candidates.2 ⟨mem_keys.2 ⟨task, htask, rfl⟩, hdownloaded⟩
      by_cases hretry : keyOf task ∈ keys (run.retryTasks plannedTasks passResult)
      · obtain ⟨fresh, hfresh, hkey⟩ := mem_keys.1 hretry
        rw [← hperm.mem_iff, List.mem_append] at hfresh
        rw [← hkey]
        exact hfresh.imp (fun h => .inr (mem_keys.2 ⟨fresh, h, rfl⟩))
          (fun h => .inr (mem_keys.2 ⟨fresh, h, rfl⟩))
      · exact .inr (.inl ⟨hcandidate, hretry⟩)

theorem accounted_unrefreshed :
    Accounted plannedTasks
      { passResult with failed := expiredRetryCandidates plannedTasks passResult } := by
  intro task htask
  by_cases hdownloaded : keyOf task ∈ keys passResult.downloadedTasks
  · exact .inl hdownloaded
  · exact .inr (keyOf_mem_candidates.2 ⟨mem_keys.2 ⟨task, htask, rfl⟩, hdownloaded⟩)

theorem accounted_retried (passResult : PassResult) :
    (∀ result, run.retryExpired plannedTasks passResult = some result →
        Accounted plannedTasks result) ↔
      ((passPool run.config run.retry (run.retryTasks plannedTasks passResult)).isOver →
        Undisturbed run.config run.retry (run.retryTasks plannedTasks passResult)) := by
  rw [retryExpired]
  by_cases hempty : run.retryTasks plannedTasks passResult = []
  · have hundisturbed (hover : (passPool run.config run.retry []).isOver) :
        Undisturbed run.config run.retry [] := by
      obtain ⟨retryResult, hretry⟩ : ∃ retryResult,
          runDownloadPass run.config run.retry [] = some retryResult := by
        simp [runDownloadPass, hover]
      have hnil := (runDownloadPass_perm hretry).eq_nil
      rw [List.append_eq_nil_iff] at hnil
      exact (leftOut_eq_nil_iff hover).1 hnil.2
    refine iff_of_true ?_ (hempty ▸ hundisturbed)
    intro result hresult
    rw [if_neg (by simp [hempty])] at hresult
    by_cases hcandidates : expiredRetryCandidates plannedTasks passResult = []
    · rw [if_neg (by simp [hcandidates]), Option.some.injEq] at hresult
      intro task htask
      by_cases hdownloaded : keyOf task ∈ keys passResult.downloadedTasks
      · exact .inl (hresult ▸ hdownloaded)
      · have hmem := keyOf_mem_candidates.2 ⟨mem_keys.2 ⟨task, htask, rfl⟩, hdownloaded⟩
        simp [hcandidates, keys] at hmem
    · rw [if_pos (by simp [hcandidates]), Option.some.injEq] at hresult
      rw [← hresult]
      exact accounted_unrefreshed
  · rw [if_pos (by simp [hempty])]
    cases hretry :
        runDownloadPass run.config run.retry (run.retryTasks plannedTasks passResult) with
    | none =>
        have hrunning : ¬(passPool run.config run.retry
            (run.retryTasks plannedTasks passResult)).isOver := by
          intro hover
          simp [runDownloadPass, hover] at hretry
        simp [hrunning]
    | some retryResult =>
        have hover := (runDownloadPass_eq_some hretry).1
        rw [← accounted_merged hretry]
        simp [hover]

/-- **No task disappears**, unless the shutdown was requested, if the pass whose failures are final
is not disturbed, and where each task has its own key only then. -/
theorem download_accounts (run : IncrementalDownload) (plannedTasks : List PublishedTask) :
    (run.ShutdownRequested ∨ run.KeepsAll plannedTasks →
      ∀ result, run.download plannedTasks = some result →
        run.ShutdownRequested ∨ Accounted plannedTasks result) ∧
    ((plannedTasks.map keyOf).Nodup →
      (∀ result, run.download plannedTasks = some result →
        run.ShutdownRequested ∨ Accounted plannedTasks result) →
      run.ShutdownRequested ∨ run.KeepsAll plannedTasks) := by
  by_cases hshutdown : run.ShutdownRequested
  · simp [hshutdown]
  · simp only [hshutdown, false_or]
    cases hfirst : runDownloadPass run.config run.first plannedTasks with
    | none =>
        have hkeeps : run.KeepsAll plannedTasks := by constructor <;> simp [hfirst]
        simp [download, hfirst, hkeeps]
    | some passResult =>
        cases hretries : run.retries passResult with
        | false =>
            have hdownload : run.download plannedTasks = some passResult := by
              simp [download, hfirst, hretries]
            constructor
            · rintro hkeeps result hresult
              obtain rfl := Option.some.inj (hdownload.symm.trans hresult)
              exact accounted_of_undisturbed hfirst (hkeeps.first passResult hfirst hretries)
            · intro hnodup haccounted
              have hundisturbed :=
                undisturbed_of_accounted hfirst hnodup (haccounted passResult hdownload)
              constructor <;> simp_all
        | true =>
            have hkeeps : run.KeepsAll plannedTasks ↔
                ((passPool run.config run.retry (run.retryTasks plannedTasks passResult)).isOver →
                  Undisturbed run.config run.retry
                    (run.retryTasks plannedTasks passResult)) := by
              constructor
              · exact fun h => h.retry passResult hfirst hretries
              · intro h
                constructor <;> simp_all
            have hdownload : run.download plannedTasks = run.retryExpired plannedTasks passResult :=
              by simp [download, hfirst, hretries]
            rw [hkeeps, ← accounted_retried, hdownload]
            exact ⟨id, fun _ => id⟩

end IncrementalDownload

/-! ### URLs that expire again -/

def secondTask : PublishedTask :=
  { failedTask with
    url := "https://cvws.icloud-content.com/b"
    downloadPath := "/photos/b.JPG"
    checksum := "CCCC"
    assetId := "b"
    assetRecordName := "b" }

/-- One task after the other; the URL of the first has expired, so the second is not started. -/
def expiringPass : PassEnv where
  store := none
  events := [.start, .finish 0 ⟨.error .expiredUrl "410", 0, 0⟩, .start]
  rateLimitObservations := 0

/-- Both tasks get new URLs, and the new ones expire as well. -/
def expiringAgain : IncrementalDownload where
  config := ⟨1, false, "PrimarySync", false, 0⟩
  first := expiringPass
  cancelled := false
  refresh := editedZone
  retry := expiringPass

/-- Both tasks are downloaded with their new URLs. -/
def expiringOnce : IncrementalDownload :=
  { expiringAgain with
    retry :=
      { expiringPass with
        events := [.start, .finish 0 ⟨.ok true "x" none, 1, 1⟩, .start,
          .finish 0 ⟨.ok true "y" none, 1, 1⟩] } }

/-- The first pass stops at the first URL, and the second one is not disturbed. -/
theorem download_accounts_expiringOnce :
    (expiringOnce.download [failedTask, secondTask]).isSome ∧
      ∀ result, expiringOnce.download [failedTask, secondTask] = some result →
        expiringOnce.ShutdownRequested ∨
          IncrementalDownload.Accounted [failedTask, secondTask] result := by
  refine ⟨by decide +kernel, (expiringOnce.download_accounts _).1 (.inr ⟨?_, ?_⟩)⟩
  · intro passResult hfirst hretries
    have hretried : (runDownloadPass expiringOnce.config expiringOnce.first
        [failedTask, secondTask]).map expiringOnce.retries = some true := by decide +kernel
    rw [hfirst, Option.map_some, hretries] at hretried
    cases hretried
  · intro passResult hfirst _ hover
    have hleft : (runDownloadPass expiringOnce.config expiringOnce.first
        [failedTask, secondTask]).map (fun passResult =>
          (leftOut expiringOnce.config expiringOnce.retry
            (expiringOnce.retryTasks [failedTask, secondTask] passResult)).map keyOf) =
        some [] := by decide +kernel
    rw [hfirst, Option.map_some, Option.some.injEq, List.map_eq_nil_iff] at hleft
    exact (leftOut_eq_nil_iff hover).1 hleft

/-- The second photo is neither downloaded nor failed, and nobody requested a shutdown. -/
theorem expiring_again_disappears :
    ¬expiringAgain.ShutdownRequested ∧
      ∃ result, expiringAgain.download [failedTask, secondTask] = some result ∧
        result.downloadedTasks.map keyOf = [] ∧ result.failed.map keyOf = [keyOf failedTask] ∧
          ¬IncrementalDownload.Accounted [failedTask, secondTask] result := by
  have hlists : (expiringAgain.download [failedTask, secondTask]).map (fun result =>
      (result.downloadedTasks.map keyOf, result.failed.map keyOf)) =
        some ([], [keyOf failedTask]) := by decide +kernel
  obtain ⟨result, hresult, heq⟩ := Option.map_eq_some_iff.1 hlists
  obtain ⟨hdownloaded, hfailed⟩ := Prod.mk.inj heq
  refine ⟨?_, result, hresult, hdownloaded, hfailed, fun haccounted => ?_⟩
  · simp [IncrementalDownload.ShutdownRequested, expiringAgain, expiringPass, editedZone]
  · have hsecond := haccounted secondTask (by simp)
    simp only [keys, hdownloaded, hfailed] at hsecond
    revert hsecond
    decide

end Kei.Passes
