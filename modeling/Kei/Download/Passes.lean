import Kei.Download.Totals
import Kei.Lib.Workers

/-!
# Kei.Download.Passes

A download pass over tasks that are known.

The tasks are worked on as the items of a bounded pool.  Whoever consumes a
finished download stops the pool after an expired URL, and after the store has
refused too many writes; the caller's shutdown stops it from outside.  A task
that was interrupted, and one that was not started, is in no list of the result.
-/

namespace Kei.Passes

open Download Workers

/-! ## the pass -/

/-- How a task ends, with the bytes of its download. -/
structure TaskEnd where
  result : TaskResult
  bytesDownloaded : Nat
  diskBytes : Nat

namespace TaskEnd

def isDownloaded (e : TaskEnd) : Bool :=
  match e.result with
  | .ok .. => true
  | .error .. => false

def isInterrupted (e : TaskEnd) : Bool :=
  match e.result with
  | .error .interrupted _ => true
  | _ => false

def isFailed (e : TaskEnd) : Bool := !e.isDownloaded && !e.isInterrupted

end TaskEnd

structure PassConfig where
  concurrency : Nat
  friendly : Bool
  library : String
  markCaptureRepairAfterDownload : Bool
  now : Int

structure PassResult where
  downloaded : Nat
  downloadedTasks : List PublishedTask
  exifFailures : Nat
  failed : List PublishedTask
  authErrors : Nat
  stateWriteFailures : Nat
  bytesDownloaded : Nat
  diskBytesWritten : Nat
  rateLimitObservations : Nat
  urlExpiredAbort : Bool
  photosDownloaded : Nat
  videosDownloaded : Nat
  recap : RunRecap

def PassResult.empty : PassResult where
  downloaded := 0
  downloadedTasks := []
  exifFailures := 0
  failed := []
  authErrors := 0
  stateWriteFailures := 0
  bytesDownloaded := 0
  diskBytesWritten := 0
  rateLimitObservations := 0
  urlExpiredAbort := false
  photosDownloaded := 0
  videosDownloaded := 0
  recap := .empty

def isPhotoLike (mediaType : MediaType) : Bool :=
  mediaType = .photo || mediaType = .livePhotoImage

def isVideoLike (mediaType : MediaType) : Bool :=
  mediaType = .video || mediaType = .livePhotoVideo

def toRecapAsset (task : PublishedTask) : RecapAsset :=
  ⟨(fileName task.downloadPath).getD "", task.size, task.createdLocal.millis⟩

/-- `RunRecap::observe`. -/
def observe (recap : RunRecap) (passLabel : String) (asset : RecapAsset) : RunRecap where
  biggest := if recap.biggest.all (fun cur => cur.bytes < asset.bytes) then some asset
    else recap.biggest
  oldest := if recap.oldest.all (fun cur => asset.createdLocal < cur.createdLocal) then some asset
    else recap.oldest
  albums := RunRecap.mergeAlbum recap.albums passLabel asset

/-- What the pass has so far, and the writes that are put off; there may be no store. -/
structure Consuming where
  result : PassResult
  store : Option (Consumer × PassState)

/-- Let the store see the end of a task, and say whether its breaker is open. -/
def Consuming.record (config : PassConfig) (store : Option (Consumer × PassState))
    (task : PublishedTask) (result : TaskResult) : Option (Consumer × PassState) × Bool :=
  match store with
  | none => (none, false)
  | some (consumer, state) =>
      let (consumer, state) := consumeResult config.now config.markCaptureRepairAfterDownload
        consumer task result state
      (some (consumer, state), consumer.stateWriteCircuitOpen)

/-- One finished task, and whether the pass is stopped. -/
def consume (config : PassConfig) (state : Consuming) (task : PublishedTask) (e : TaskEnd) :
    Consuming × Bool :=
  let result := state.result
  match e.result with
  | .ok exifOk _ _ =>
      let (store, open_) := Consuming.record config state.store task e.result
      (⟨{ result with
          downloaded := result.downloaded + 1
          downloadedTasks := result.downloadedTasks ++ [task]
          bytesDownloaded := result.bytesDownloaded + e.bytesDownloaded
          diskBytesWritten := result.diskBytesWritten + e.diskBytes
          photosDownloaded := result.photosDownloaded + (isPhotoLike task.mediaType).toNat
          videosDownloaded := result.videosDownloaded + (isVideoLike task.mediaType).toNat
          recap := if config.friendly then observe result.recap config.library (toRecapAsset task)
            else result.recap
          exifFailures := result.exifFailures + (!exifOk).toNat }, store⟩, open_)
  | .error .interrupted _ => (state, false)
  | .error errorClass _ =>
      let (store, _) := Consuming.record config state.store task e.result
      (⟨{ result with
          authErrors := result.authErrors + (decide (errorClass = .sessionExpired)).toNat
          urlExpiredAbort := result.urlExpiredAbort || errorClass = .expiredUrl
          failed := result.failed ++ [task] }, store⟩, errorClass = .expiredUrl)

def passRules (config : PassConfig) : Rules Consuming PublishedTask TaskEnd :=
  ⟨config.concurrency, consume config⟩

/-- What a pass meets: the store, what happens and in which order, and the requests that the
provider slowed down. -/
structure PassEnv where
  store : Option PassState
  events : List (Event TaskEnd)
  rateLimitObservations : Nat

def PassEnv.consuming (env : PassEnv) : Consuming :=
  ⟨.empty, env.store.map (fun state => (⟨[], false⟩, state))⟩

variable (config : PassConfig) (env : PassEnv) (tasks : List PublishedTask)

/-- The pool after the events. -/
def passPool : Pool Consuming PublishedTask TaskEnd :=
  (Pool.new env.consuming tasks).run (passRules config) env.events

/-- `run_download_pass`; `none` while it is not over. -/
def runDownloadPass : Option PassResult :=
  let pool := passPool config env tasks
  if pool.isOver then
    let stateWriteFailures :=
      match pool.consumer.store with
      | none => 0
      | some (consumer, state) => (consumer.finish config.now state).1
    some { pool.consumer.result with
      stateWriteFailures := stateWriteFailures
      rateLimitObservations := env.rateLimitObservations }
  else none

/-! ## what is left out -/

/-- The finished tasks that ended in this way. -/
def endedAs (p : TaskEnd → Bool) (finished : List (PublishedTask × TaskEnd)) :
    List PublishedTask := (finished.filter (fun e => p e.2)).map (·.1)

/-- The tasks of a pass that were interrupted or never started. -/
def leftOut : List PublishedTask :=
  endedAs TaskEnd.isInterrupted (passPool config env tasks).finished ++
    (passPool config env tasks).waiting

/-- No start is refused and no task is interrupted. -/
structure Undisturbed : Prop where
  admits : (Pool.new env.consuming tasks).Admits (passRules config) env.events
  uninterrupted : ∀ e ∈ (passPool config env tasks).finished, e.2.isInterrupted = false

variable {config : PassConfig} {env : PassEnv} {tasks : List PublishedTask}

theorem consume_result (config : PassConfig) (state : Consuming) (task : PublishedTask)
    (e : TaskEnd) :
    (consume config state task e).1.result.downloadedTasks =
        state.result.downloadedTasks ++ (if e.isDownloaded then [task] else []) ∧
      (consume config state task e).1.result.failed =
        state.result.failed ++ (if e.isFailed then [task] else []) := by
  obtain ⟨result, bytes, diskBytes⟩ := e
  cases result with
  | ok exifOk localChecksum downloadChecksum =>
      simp [consume, TaskEnd.isFailed, TaskEnd.isDownloaded]
  | error errorClass error =>
      cases errorClass <;>
        simp [consume, TaskEnd.isFailed, TaskEnd.isDownloaded, TaskEnd.isInterrupted]

theorem consumed_result (config : PassConfig) (state : Consuming)
    (finished : List (PublishedTask × TaskEnd)) :
    ((passRules config).consumed state finished).result.downloadedTasks =
        state.result.downloadedTasks ++ endedAs TaskEnd.isDownloaded finished ∧
      ((passRules config).consumed state finished).result.failed =
        state.result.failed ++ endedAs TaskEnd.isFailed finished := by
  induction finished generalizing state with
  | nil => simp [Rules.consumed, endedAs]
  | cons e finished ih =>
      obtain ⟨hdownloaded, hfailed⟩ := ih (consume config state e.1 e.2).1
      obtain ⟨hdownloaded', hfailed'⟩ := consume_result config state e.1 e.2
      rw [hdownloaded', List.append_assoc] at hdownloaded
      rw [hfailed', List.append_assoc] at hfailed
      constructor
      · refine hdownloaded.trans ?_
        cases hend : e.2.isDownloaded <;> simp [endedAs, hend]
      · refine hfailed.trans ?_
        cases hend : e.2.isFailed <;> simp [endedAs, hend]

theorem endedAs_perm (finished : List (PublishedTask × TaskEnd)) :
    (endedAs TaskEnd.isDownloaded finished ++ endedAs TaskEnd.isFailed finished ++
      endedAs TaskEnd.isInterrupted finished).Perm (finished.map (·.1)) := by
  let rest := finished.filter (fun e => !e.2.isDownloaded)
  have hfailed : rest.filter (fun e => !e.2.isInterrupted) =
      finished.filter (fun e => e.2.isFailed) := by
    rw [List.filter_filter]
    apply List.filter_congr
    intro e _
    rw [TaskEnd.isFailed, Bool.and_comm]
  have hinterrupted : rest.filter (fun e => !!e.2.isInterrupted) =
      finished.filter (fun e => e.2.isInterrupted) := by
    rw [List.filter_filter]
    apply List.filter_congr
    intro e _
    obtain ⟨task, ⟨result, bytes, diskBytes⟩⟩ := e
    cases result with
    | ok exifOk localChecksum downloadChecksum => rfl
    | error errorClass error => cases errorClass <;> rfl
  have hrest := List.filter_append_perm (fun e => !e.2.isInterrupted) rest
  rw [hfailed, hinterrupted] at hrest
  have hall := List.filter_append_perm (fun e => e.2.isDownloaded) finished
  have hsplit := ((hrest.append_left _).trans hall).map (·.1)
  simpa [endedAs, List.append_assoc] using hsplit

theorem runDownloadPass_eq_some {result : PassResult}
    (h : runDownloadPass config env tasks = some result) :
    (passPool config env tasks).isOver ∧
      result.downloadedTasks =
        endedAs TaskEnd.isDownloaded (passPool config env tasks).finished ∧
      result.failed = endedAs TaskEnd.isFailed (passPool config env tasks).finished := by
  rw [runDownloadPass] at h
  by_cases hover : (passPool config env tasks).isOver
  · rw [if_pos hover, Option.some.injEq] at h
    have hconsumer : (passPool config env tasks).consumer = _ :=
      consumer_run env.consuming tasks env.events
    obtain ⟨hdownloaded, hfailed⟩ :=
      consumed_result config env.consuming (passPool config env tasks).finished
    rw [passPool] at hdownloaded hfailed
    rw [← hconsumer] at hdownloaded hfailed
    subst h
    exact ⟨hover, hdownloaded, hfailed⟩
  · simp [if_neg hover] at h

/-- **Where the tasks are.**  A task is downloaded, failed, or left out. -/
theorem runDownloadPass_perm {result : PassResult}
    (h : runDownloadPass config env tasks = some result) :
    (result.downloadedTasks ++ result.failed ++ leftOut config env tasks).Perm tasks := by
  obtain ⟨hover, hdownloaded, hfailed⟩ := runDownloadPass_eq_some h
  have hends := endedAs_perm (passPool config env tasks).finished
  have htasks := (hends.append_right (passPool config env tasks).waiting).trans
    (finished_perm hover)
  simpa [hdownloaded, hfailed, leftOut, List.append_assoc] using htasks

theorem leftOut_eq_nil_iff (hover : (passPool config env tasks).isOver) :
    leftOut config env tasks = [] ↔ Undisturbed config env tasks := by
  have hadmits : (Pool.new env.consuming tasks).Admits (passRules config) env.events ↔
      (passPool config env tasks).waiting = [] := admits_iff hover
  have huninterrupted : endedAs TaskEnd.isInterrupted (passPool config env tasks).finished = [] ↔
      ∀ e ∈ (passPool config env tasks).finished, e.2.isInterrupted = false := by
    simp [endedAs]
  rw [leftOut, List.append_eq_nil_iff, ← hadmits, huninterrupted]
  exact ⟨fun h => ⟨h.2, h.1⟩, fun h => ⟨h.2, h.1⟩⟩

end Kei.Passes
