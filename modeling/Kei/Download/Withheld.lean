import Kei.Download.Plannable
import Kei.Download.Siblings

/-!
# Kei.Download.Withheld

Pending targets whose task was planned and then withheld.

A target that a pass planned a task for must not be excluded by policy.  The
exclusion is what is left when everything else was taken away, and a task that
the planner finds no path for is taken away nowhere.  As long as there is room
for every task, a planned target that is still pending when its asset is settled
is one whose adoption was not recorded, and that one is kept.
-/

namespace Kei.Download

open Prog

/-! ## room for a task -/

/-- There is a path for the task: the recorded path of a file that is replaced is not claimed, and
for any other task fewer names are taken than there are ordinals to try beside the recorded one. -/
def Placement.HasRoom (host : Host) (p : Placement) : Prop :=
  match p.repair with
  | some _ => (p.planner.release host p.task.downloadPath p.task.size).claimedPaths
      (normalize host p.localPath) = none
  | none => ∃ dir, parent p.localPath = some dir ∧ (fileName p.localPath).isSome ∧
      ∃ claimed : Finset String, (∀ key, p.planner.claimedPaths key ≠ none → key ∈ claimed) ∧
        (listingOf host p.planner.dirCache dir).length + claimed.card + 4 < 2 ^ 64

/-- With room there is a path. -/
theorem reserveRetryPath_isSome {host : Host} {p : Placement} (h : p.HasRoom host) :
    (reserveRetryPath host p.task p.localPath p.repair p.planner).1.isSome := by
  unfold Placement.HasRoom at h
  unfold reserveRetryPath
  cases hrepair : p.repair with
  | some fingerprint =>
      rw [hrepair] at h
      simp [TaskPlanner.claimRecordedRepairPath, h]
  | none =>
      rw [hrepair] at h
      obtain ⟨dir, hdir, hname, claimed, hclaimed, hroom⟩ := h
      have hfound : (p.planner.resolveRecordedRetryPath host p.localPath p.task.downloadPath
          p.task.size p.task.assetId).1.isSome :=
        TaskPlanner.resolveRecordedRetryPath_isSome hdir hname hclaimed hroom
      obtain ⟨path, hpath⟩ := Option.isSome_iff_exists.mp hfound
      cases hresolved : p.planner.resolveRecordedRetryPath host p.localPath p.task.downloadPath
          p.task.size p.task.assetId with
      | mk found planner =>
          rw [hresolved] at hpath
          cases hpath
          rfl

/-- A task that gets a path keeps its target. -/
theorem reserveRetryPath_target {host : Host} {task : DownloadTask} {localPath : Path}
    {repair : Option ExistingFileFingerprint} {planner : TaskPlanner} {placed : PublishedTask}
    (h : placed ∈ (reserveRetryPath host task localPath repair planner).1) :
    PendingRetryTarget.fromTask placed.toDownloadTask = .fromTask task := by
  unfold reserveRetryPath at h
  split at h
  · split at h
    · cases h
    · cases h
      rfl
  · split at h
    · cases h
    · cases h
      rfl

/-! ## what programs keep -/

theorem keeps_storeCall {I : PlanningState → Prop} (succeeds : Bool) :
    Keeps I (storeCall succeeds) := by
  cases succeeds with
  | true => exact Keeps.pure ()
  | false => exact Keeps.halt _

theorem keeps_storeCallIf {I : PlanningState → Prop} (pending : Bool)
    (target : PendingRetryTarget) (succeeds : Bool) :
    Keeps I (storeCallIf pending target succeeds) :=
  Keeps.bind (Keeps.read _) (fun _ =>
    Keeps.ite (fun _ => keeps_storeCall succeeds) (fun _ => Keeps.pure ()))

section programs

variable (host : Host) (evidence : PendingRetryTarget → Option PendingRetryEvidence)
  (job : RetryJob) (passIndex : Nat) (config : RetryPassConfig) {I : PlanningState → Prop}

theorem keeps_placeRetryTask (hI : ∀ s planner asked, I s →
      I { s with taskPlanner := planner, asked := asked })
    (inspect : Path → FileInspection) (task : DownloadTask) :
    Keeps I (placeRetryTask host evidence inspect config task) := by
  unfold placeRetryTask
  split
  · exact Keeps.pure _
  · split
    · exact Keeps.pure _
    · split
      · exact Keeps.halt _
      · exact fun s hs => hI s _ _ hs

/-- What the planner does not touch is kept, if the notes of the tasks that are left out keep it. -/
theorem keeps_retryTasks (hI : ∀ s planner asked, I s →
      I { s with taskPlanner := planner, asked := asked })
    (hdropped : ∀ target, Keeps I (note [.dropped target]))
    (hwithheld : ∀ target, Keeps I (note [.withheld target])) (inspect : Path → FileInspection)
    (tasks : List DownloadTask) : Keeps I (retryTasks host evidence inspect config tasks) := by
  induction tasks with
  | nil => exact Keeps.pure []
  | cons task tasks ih =>
      refine Keeps.bind (Keeps.read _) (fun setAside => Keeps.ite (fun _ => ?_) (fun _ => ?_))
      · exact Keeps.bind (hdropped _) (fun _ => ih)
      · refine Keeps.bind (keeps_placeRetryTask host evidence config hI inspect task)
          (fun placed => ?_)
        cases placed with
        | none => exact Keeps.bind (hwithheld _) (fun _ => ih)
        | some placed => exact Keeps.bind ih (fun _ => Keeps.pure _)

theorem keeps_clearQueued (targets : List PendingRetryTarget) :
    Keeps I (clearQueued job passIndex targets) := by
  induction targets with
  | nil => exact Keeps.pure ()
  | cons target targets ih => exact Keeps.bind (keeps_storeCallIf _ target _) (fun _ => ih)

/-- What does not look at the malformed targets is kept when they are noted. -/
theorem keeps_noteMalformed (hI : ∀ s malformed, I s → I { s with malformedTargets := malformed })
    (plan : AssetTaskPlan) : Keeps I (noteMalformed job plan) :=
  Keeps.ite (fun _ => Keeps.modify (fun s hs => hI s _ hs)) (fun _ => Keeps.pure ())

theorem keeps_setVerifications (targets : List PendingRetryTarget) :
    Keeps I (setVerifications job targets) := by
  induction targets with
  | nil => exact Keeps.pure ()
  | cons target targets ih => exact Keeps.bind (keeps_storeCallIf _ target _) (fun _ => ih)

end programs

/-! ## one asset -/

/-- There was room for all that the planner was asked for. -/
def RetryState.Roomy (host : Host) (s : RetryState) : Prop := ∀ p ∈ s.asked, p.HasRoom host

/-- No task was withheld, and no excluded target had a task planned for it. -/
structure RetryState.Kept (s : RetryState) : Prop where
  placed : ∀ target, .withheld target ∉ s.log
  unplanned : ∀ target, .excluded target ∈ s.log → .planned target ∉ s.log

/-- The planned and the excluded targets are those of the assets so far. -/
structure Apart (ids : List String) (s : RetryState) : Prop extends s.Kept where
  planned : ∀ target, .planned target ∈ s.log → target.assetId ∈ ids
  excluded : ∀ target, .excluded target ∈ s.log → target.assetId ∈ ids

/-- While an asset is planned after others: a planned target of it is `outstanding`, or it is set
aside, or it has left the queue. -/
structure Fair (ids : List String) (stateId : String) (outstanding : List PendingRetryTarget)
    (s : PlanningState) : Prop extends s.Kept where
  planned : ∀ target, .planned target ∈ s.log → target.assetId ∈ ids ∨
    target.assetId = stateId ∧ (target ∈ s.pendingTargets →
      target ∈ outstanding ∨ target ∈ s.stateWriteFailedTargets)
  excluded : ∀ target, .excluded target ∈ s.log → target.assetId ∈ ids

/-- The event neither plans nor withholds nor excludes. -/
def RetryEvent.isQuiet : RetryEvent → Bool
  | .adopted _ | .dropped _ | .queued _ => true
  | .planned _ | .withheld _ | .excluded _ => false

namespace Fair

variable {ids : List String} {stateId : String} {outstanding : List PendingRetryTarget}
  {s s' : PlanningState}

/-- Targets may leave the queue or be set aside. -/
theorem step (h : Fair ids stateId outstanding s) {events : List RetryEvent}
    (hlog : s'.log = s.log ++ events) (hquiet : ∀ e ∈ events, e.isQuiet = true)
    (hpending : ∀ target ∈ s'.pendingTargets, target ∈ s.pendingTargets)
    (hfailed : ∀ target ∈ s.stateWriteFailedTargets, target ∈ s'.stateWriteFailedTargets) :
    Fair ids stateId outstanding s' := by
  have hold {e : RetryEvent} (he : e ∈ s'.log) (hloud : e.isQuiet = false) : e ∈ s.log := by
    rw [hlog] at he
    refine (List.mem_append.mp he).resolve_right fun hnew => ?_
    rw [hquiet e hnew] at hloud
    cases hloud
  exact {
    placed := fun target htarget => h.placed target (hold htarget rfl),
    unplanned := fun target htarget hplanned =>
      h.unplanned target (hold htarget rfl) (hold hplanned rfl),
    planned := fun target hplanned => (h.planned target (hold hplanned rfl)).imp_right
      fun hown => ⟨hown.1, fun hin => (hown.2 (hpending target hin)).imp_right (hfailed target)⟩,
    excluded := fun target htarget => h.excluded target (hold htarget rfl) }

/-- What has left the queue or is set aside is not outstanding. -/
theorem settle {target : PendingRetryTarget} (h : Fair ids stateId (target :: outstanding) s)
    (hgone : target ∈ s.pendingTargets → target ∈ s.stateWriteFailedTargets) :
    Fair ids stateId outstanding s :=
  { h with
    planned := fun t hplanned => (h.planned t hplanned).imp_right fun hown =>
      ⟨hown.1, fun hin => (hown.2 hin).elim (fun hout => by
        rcases List.mem_cons.mp hout with rfl | hout
        · exact .inr (hgone hin)
        · exact .inl hout) .inr⟩ }

theorem of_subset {outstanding' : List PendingRetryTarget} (h : Fair ids stateId outstanding s)
    (hsub : outstanding ⊆ outstanding') : Fair ids stateId outstanding' s :=
  { h with
    planned := fun t hplanned => (h.planned t hplanned).imp_right fun hown =>
      ⟨hown.1, fun hin => (hown.2 hin).imp_left (@hsub t)⟩ }

/-- A new plan is outstanding. -/
theorem plan {targets : List PendingRetryTarget} (h : Fair ids stateId [] s)
    (hnew : stateId ∉ ids) (htargets : ∀ target ∈ targets, target.assetId = stateId)
    (hlog : s'.log = s.log ++ targets.map .planned)
    (hpending : s'.pendingTargets = s.pendingTargets)
    (hfailed : s'.stateWriteFailedTargets = s.stateWriteFailedTargets) :
    Fair ids stateId targets s' where
  placed target htarget := h.placed target (by simpa [hlog] using htarget)
  unplanned target htarget hplanned := by
    have hexcluded : .excluded target ∈ s.log := by simpa [hlog] using htarget
    simp only [hlog, List.mem_append, List.mem_map, RetryEvent.planned.injEq,
      exists_eq_right] at hplanned
    rcases hplanned with hplanned | htarget
    · exact h.unplanned target hexcluded hplanned
    · exact hnew (htargets target htarget ▸ h.excluded target hexcluded)
  planned target hplanned := by
    simp only [hlog, List.mem_append, List.mem_map, RetryEvent.planned.injEq,
      exists_eq_right] at hplanned
    rw [hpending, hfailed]
    rcases hplanned with hplanned | htarget
    · exact (h.planned target hplanned).imp_right fun hown =>
        ⟨hown.1, fun hin => (hown.2 hin).imp_left fun hout => nomatch hout⟩
    · exact .inr ⟨htargets target htarget, fun _ => .inl htarget⟩
  excluded target htarget := h.excluded target (by simpa [hlog] using htarget)

end Fair

section asset

variable (host : Host) (fuel : Nat) (evidence : PendingRetryTarget → Option PendingRetryEvidence)
  (job : RetryJob) (passIndex : Nat) (config : RetryPassConfig) (ids : List String)

/-- The asset is planned fairly, as long as there is room. -/
def FairIn (outstanding : List PendingRetryTarget) (s : PlanningState) : Prop :=
  s.Roomy host → Fair ids job.stateId outstanding s

/-- What is kept of a run wherever it stops. -/
def KeptIn (s : RetryState) : Prop := s.Roomy host → s.Kept

variable {outstanding : List PendingRetryTarget}

theorem fair_adoptTarget (plannedTasks : List DownloadTask) (target : PendingRetryTarget) :
    Keeps (FairIn host job ids outstanding)
      (adoptTarget host evidence job passIndex config plannedTasks target) := by
  unfold adoptTarget
  split
  · exact Keeps.pure ()
  · dsimp only
    split
    · exact Keeps.pure ()
    · refine Keeps.bind (Keeps.modify (fun s hs hroomy => ?_)) (fun _ =>
        Keeps.bind (Keeps.modify (fun s hs hroomy => ?_)) (fun _ => keeps_storeCall _))
      · exact (hs hroomy).step (List.append_nil _).symm (by simp)
          (fun _ hin => List.mem_of_mem_filter hin) (fun _ h => h)
      · exact (hs hroomy).step rfl (by simp [RetryEvent.isQuiet]) (fun _ h => h) (fun _ h => h)
    · exact Keeps.modify (fun s hs hroomy => (hs hroomy).step (List.append_nil _).symm (by simp)
        (fun _ h => h) (fun _ h => List.mem_append_left _ h))

theorem fair_adoptTargets (plannedTasks : List DownloadTask)
    (targets : List PendingRetryTarget) :
    Keeps (FairIn host job ids outstanding)
      (adoptTargets host evidence job passIndex config plannedTasks targets) := by
  induction targets with
  | nil => exact Keeps.pure ()
  | cons target targets ih =>
      exact Keeps.bind (fair_adoptTarget host evidence job passIndex config ids _ target)
        (fun _ => ih)

/-- A task keeps its target, and one that gets no path had no room. -/
theorem placeRetryTask_spec (inspect : Path → FileInspection) (task : DownloadTask) :
    Triple (FairIn host job ids outstanding) (placeRetryTask host evidence inspect config task)
      (fun placed s => FairIn host job ids outstanding s ∧
        (placed = none → ¬s.Roomy host) ∧
        ∀ p ∈ placed, PendingRetryTarget.fromTask p.toDownloadTask = .fromTask task)
      (KeptIn host ·.toRetryState) := by
  unfold placeRetryTask
  split
  · exact Triple.pure (fun s hs => by simp [hs])
  · split
    · exact Triple.pure (fun s hs => by simp [hs])
    · split
      · exact Triple.halt (fun _ hs hroomy => (hs hroomy).toKept)
      · next localPath _ _ repair _ =>
          intro s hs
          have hasked {p : Placement} (hp : p ∈ s.asked) :
              p ∈ s.asked ++ [⟨s.taskPlanner, task, localPath, repair⟩] :=
            List.mem_append_left _ hp
          refine ⟨fun hroomy => (hs fun p hp => hroomy p (hasked hp)).step
            (List.append_nil _).symm (by simp) (fun _ h => h) (fun _ h => h), ?_, ?_⟩
          · intro hnone hroomy
            have hsome := reserveRetryPath_isSome
              (hroomy ⟨s.taskPlanner, task, localPath, repair⟩ (by simp))
            rw [hnone] at hsome
            cases hsome
          · exact fun p hp => reserveRetryPath_target hp

/-- The tasks that were placed are still outstanding, besides the `others`. -/
theorem fair_retryTasks (inspect : Path → FileInspection) (tasks : List DownloadTask)
    (others : List PendingRetryTarget) :
    Triple (FairIn host job ids (tasks.map .fromTask ++ others))
      (retryTasks host evidence inspect config tasks)
      (fun placed => FairIn host job ids
        (placed.map (fun task => .fromTask task.toDownloadTask) ++ others))
      (KeptIn host ·.toRetryState) := by
  induction tasks generalizing others with
  | nil => exact Triple.pure (fun s hs => hs)
  | cons task tasks ih =>
      refine Triple.bind (R := fun setAside s =>
        FairIn host job ids ((task :: tasks).map .fromTask ++ others) s ∧
          setAside = s.stateWriteFailedTargets.contains (.fromTask task))
        (fun s hs => ⟨hs, rfl⟩) (fun setAside => Triple.ite (fun hset => ?_) (fun _ => ?_))
      · refine Triple.bind (Triple.modify fun s hs hroomy => ?_) (fun _ => ih others)
        have hfailed := List.contains_iff_mem.mp (hs.2 ▸ hset)
        exact ((hs.1 hroomy).settle fun _ => hfailed).step rfl (by simp [RetryEvent.isQuiet])
          (fun _ h => h) (fun _ h => h)
      · refine Triple.bind (Triple.strengthen_pre
          (placeRetryTask_spec host evidence job config ids inspect task) (fun s hs => hs.1))
          (fun placed => ?_)
        cases placed with
        | none =>
            refine Triple.bind (Triple.modify fun s hs hroomy => ?_) (fun _ => ih others)
            exact absurd hroomy (hs.2.1 rfl)
        | some placed =>
            refine Triple.pre (fun s hs => hs.2.2 placed rfl) (fun htarget => ?_)
            refine Triple.bind (Triple.strengthen_pre (ih (.fromTask task :: others))
              (fun s hs hroomy => (hs.1 hroomy).of_subset (by grind)))
              (fun rest => Triple.pure (fun s hs hroomy => (hs hroomy).of_subset (by grind)))

omit host fuel evidence job passIndex config ids in
theorem asked_takeMatching (placed : List PublishedTask) (s : PlanningState) :
    (takeMatchingPendingRetryTasks placed s).asked = s.asked := by
  induction placed generalizing s with
  | nil => rfl
  | cons task tasks ih =>
      unfold takeMatchingPendingRetryTasks
      dsimp only
      split
      · split
        · rfl
        · exact ih _
      · exact ih s

omit host fuel evidence job passIndex config in
theorem fair_takeMatching (placed : List PublishedTask) {s : PlanningState} {stateId : String}
    (hs : Fair ids stateId (placed.map (fun task => .fromTask task.toDownloadTask)) s) :
    Fair ids stateId [] (takeMatchingPendingRetryTasks placed s) := by
  induction placed generalizing s with
  | nil => exact hs
  | cons task tasks ih =>
      unfold takeMatchingPendingRetryTasks
      dsimp only
      split
      · have hleft : Fair ids stateId
            ((task :: tasks).map (fun task => .fromTask task.toDownloadTask))
            { s with
              pendingTargets := s.pendingTargets.filter
                (fun t => t ≠ .fromTask task.toDownloadTask)
              tasks := s.tasks ++ [task]
              log := s.log ++ [.queued (.fromTask task.toDownloadTask)] } :=
          hs.step rfl (by simp [RetryEvent.isQuiet]) (fun _ hin => List.mem_of_mem_filter hin)
            (fun _ h => h)
        have hqueued := hleft.settle (by simp)
        split
        · next hempty =>
            exact { hqueued with
              planned := fun t hplanned => (hqueued.planned t hplanned).imp_right fun hown =>
                ⟨hown.1, fun hin => absurd (List.isEmpty_iff.mp hempty ▸ hin) List.not_mem_nil⟩ }
        · exact ih hqueued
      · next hpending =>
          exact ih (hs.settle fun hin => absurd (List.contains_iff_mem.mpr hin) hpending)

theorem fair_takePlan (plan : AssetTaskPlan) :
    Triple (FairIn host job ids (plan.tasks.map .fromTask))
      (takePlan host evidence job passIndex config plan)
      (fun _ => FairIn host job ids []) (KeptIn host ·.toRetryState) := by
  have hkept {outstanding : List PendingRetryTarget} (s : PlanningState)
      (hs : FairIn host job ids outstanding s) : KeptIn host s.toRetryState :=
    fun hroomy => (hs hroomy).toKept
  refine Triple.bind (Triple.weaken_halt (keeps_noteMalformed job
    (I := FairIn host job ids (plan.tasks.map .fromTask)) (fun s _ hs hroomy =>
      (hs hroomy).step (List.append_nil _).symm (by simp) (fun _ h => h) (fun _ h => h))
    plan) hkept) (fun _ => ?_)
  refine Triple.bind (Triple.strengthen_pre (fair_retryTasks host evidence job config ids
    (job.replies.inspect passIndex) plan.tasks []) (fun s hs => by simpa using hs))
    (fun placed => ?_)
  refine Triple.bind Triple.read (fun queued => ?_)
  refine Triple.bind (R := fun _ => FairIn host job ids [])
    (Triple.modify (fun s hs hroomy => ?_)) (fun _ =>
      Triple.weaken_halt (keeps_clearQueued job passIndex queued) hkept)
  rw [RetryState.Roomy, asked_takeMatching] at hroomy
  exact fair_takeMatching ids placed (by simpa using hs hroomy)

variable {ids}

theorem planPass_spec (hnew : job.stateId ∉ ids) (hown : job.asset.stateId = job.stateId) :
    Triple (FairIn host job ids []) (planPass host fuel job config)
      (fun plan s => FairIn host job ids (plan.tasks.map .fromTask) s ∧
        (plan.filterReason.isSome → plan.tasks = [])) (KeptIn host ·.toRetryState) := by
  intro s hs
  unfold planPass
  cases hplan : s.taskPlanner.planAsset host fuel job.asset config.toPassConfig with
  | none => exact fun hroomy => (hs hroomy).toKept
  | some planned =>
      obtain ⟨plan, planner⟩ := planned
      have hids := planAsset_assetId hplan
      refine ⟨fun hroomy => (hs hroomy).plan hnew (fun target htarget => ?_)
        (by simp [Function.comp_def]) rfl rfl, fun hreason => ?_⟩
      · obtain ⟨task, htask, rfl⟩ := List.mem_map.mp htarget
        exact (hids task htask).trans hown
      · unfold TaskPlanner.planAsset at hplan
        split at hplan
        · cases hplan
          rfl
        · obtain ⟨_, _, hrest⟩ := Option.bind_eq_some_iff.mp hplan
          cases hrest
          cases hreason

theorem fair_runPass (hnew : job.stateId ∉ ids) (hown : job.asset.stateId = job.stateId) :
    Triple (FairIn host job ids []) (runPass host fuel evidence job passIndex config)
      (fun _ => FairIn host job ids []) (KeptIn host ·.toRetryState) := by
  refine Triple.bind (planPass_spec host fuel job config hnew hown) (fun plan => ?_)
  refine Triple.bind Triple.read (fun targets => ?_)
  refine Triple.pre (fun s hs => hs.2) (fun hfiltered => ?_)
  refine Triple.bind (Triple.conseq (fair_adoptTargets host evidence job passIndex config ids
    plan.tasks targets) (fun s hs => hs.1) (fun _ _ hs => hs)
    (fun s hs hroomy => (hs hroomy).toKept)) (fun _ => ?_)
  refine Triple.ite (fun _ => fair_takePlan host evidence job passIndex config ids plan)
    (fun hreason => Triple.pure (fun s hs => ?_))
  have htasks := hfiltered (by simpa [Option.isSome_iff_ne_none] using hreason)
  simpa [htasks] using hs

theorem fair_runPasses (hnew : job.stateId ∉ ids) (hown : job.asset.stateId = job.stateId)
    (passes : List (RetryPassConfig × Nat)) :
    Triple (FairIn host job ids []) (runPasses host fuel evidence job passes)
      (fun _ => FairIn host job ids []) (KeptIn host ·.toRetryState) := by
  induction passes with
  | nil => exact Triple.pure (fun s hs => hs)
  | cons pass passes ih =>
      exact Triple.bind (fair_runPass host fuel evidence job pass.2 pass.1 hnew hown)
        (fun _ => ih)

/-! ## the exclusion -/

/-- The assets so far are apart, as long as there is room. -/
def ApartIn (ids : List String) (s : RetryState) : Prop := s.Roomy host → Apart ids s

/-- A target that is to be excluded had no task planned for it. -/
theorem unplanned_of_deferred {s : PlanningState} (h : Fair ids job.stateId [] s)
    (hnew : job.stateId ∉ ids) {target : PendingRetryTarget}
    (htarget : target ∈ deferredTargets job.stateId s) :
    target.assetId = job.stateId ∧ .planned target ∉ s.log := by
  simp only [deferredTargets, pendingOf, List.mem_filter, Bool.and_eq_true, Bool.not_eq_true',
    decide_eq_true_eq] at htarget
  obtain ⟨⟨hpending, hid⟩, -, hkept⟩ := htarget
  refine ⟨hid, fun hplanned => ?_⟩
  rcases h.planned target hplanned with hearlier | ⟨-, hown⟩
  · exact hnew (hid ▸ hearlier)
  · rcases hown hpending with hout | hfailed
    · cases hout
    · rw [List.contains_iff_mem.mpr hfailed] at hkept
      cases hkept

theorem apart_excludeTargets (targets : List PendingRetryTarget) :
    Triple (fun s => s.Roomy host → Apart (job.stateId :: ids) s.toRetryState ∧
        ∀ target ∈ targets, target.assetId = job.stateId ∧ .planned target ∉ s.log)
      (excludeTargets job targets)
      (fun _ s => ApartIn host (job.stateId :: ids) s.toRetryState)
      (KeptIn host ·.toRetryState) := by
  induction targets with
  | nil => exact Triple.pure (fun s hs hroomy => (hs hroomy).1)
  | cons target targets ih =>
      unfold excludeTargets
      split
      · exact Triple.halt (fun s hs hroomy => (hs hroomy).1.toKept)
      · refine Triple.bind (Triple.modify fun s hs hroomy => ?_) (fun _ => ih)
        obtain ⟨hapart, htargets⟩ := hs hroomy
        obtain ⟨⟨hid, hunplanned⟩, hrest⟩ := List.forall_mem_cons.mp htargets
        refine ⟨⟨⟨fun t ht => ?_, fun t ht hplanned => ?_⟩, fun t ht => ?_, fun t ht => ?_⟩,
          fun t ht => ⟨(hrest t ht).1, ?_⟩⟩
        · exact hapart.placed t (by simpa [RetryState.exclude] using ht)
        · have hwas : .planned t ∈ s.log := by simpa [RetryState.exclude] using hplanned
          have hcases : .excluded t ∈ s.log ∨ t = target := by
            simpa [RetryState.exclude] using ht
          rcases hcases with hexcluded | rfl
          · exact hapart.unplanned t hexcluded hwas
          · exact hunplanned hwas
        · exact hapart.planned t (by simpa [RetryState.exclude] using ht)
        · have hcases : .excluded t ∈ s.log ∨ t = target := by
            simpa [RetryState.exclude] using ht
          rcases hcases with hexcluded | rfl
          · exact hapart.excluded t hexcluded
          · exact List.mem_cons.mpr (.inl hid)
        · simpa [RetryState.exclude] using (hrest t ht).2
      · exact Triple.strengthen_pre ih (fun s hs hroomy =>
          ⟨(hs hroomy).1, (List.forall_mem_cons.mp (hs hroomy).2).2⟩)

theorem apart_settleAsset (hnew : job.stateId ∉ ids) :
    Triple (FairIn host job ids []) (settleAsset job)
      (fun _ s => ApartIn host (job.stateId :: ids) s.toRetryState)
      (KeptIn host ·.toRetryState) := by
  have hkept (s : PlanningState) (hs : ApartIn host (job.stateId :: ids) s.toRetryState) :
      KeptIn host s.toRetryState := fun hroomy => (hs hroomy).toKept
  refine Triple.bind (R := fun targets s => s.Roomy host →
    Apart (job.stateId :: ids) s.toRetryState ∧
      ∀ target ∈ targets, target.assetId = job.stateId ∧ .planned target ∉ s.log)
    (fun s hs hroomy => ?_) (fun targets => Triple.bind (apart_excludeTargets host job targets)
      (fun _ => Triple.weaken_halt (Keeps.bind (Keeps.read _) (fun _ =>
        Keeps.bind (keeps_setVerifications job _) (fun _ =>
          Keeps.bind (Keeps.read _) (fun _ => keeps_setVerifications job _)))) hkept))
  have hfair := hs hroomy
  exact ⟨{ toKept := hfair.toKept
           planned := fun t ht => (hfair.planned t ht).elim (List.mem_cons_of_mem _)
             (fun hown => List.mem_cons.mpr (.inl hown.1))
           excluded := fun t ht => List.mem_cons_of_mem _ (hfair.excluded t ht) },
    fun t ht => unplanned_of_deferred job hfair hnew ht⟩

/-- One asset after the others: its targets come to theirs. -/
theorem apart_planResolvedAsset (hnew : job.stateId ∉ ids)
    (hown : job.asset.stateId = job.stateId) (passConfigs : List RetryPassConfig)
    {s : RetryState} (hs : ApartIn host ids s) :
    match planResolvedAsset host fuel evidence passConfigs job s with
    | (.ok _, s') => ApartIn host (job.stateId :: ids) s'
    | (.error _, s') => KeptIn host s' := by
  have hspec : Triple (FairIn host job ids [])
      (planAssetForRetry host fuel evidence passConfigs job)
      (fun _ s => ApartIn host (job.stateId :: ids) s.toRetryState)
      (KeptIn host ·.toRetryState) :=
    Triple.bind (fair_runPasses host fuel evidence job hnew hown _)
      (fun _ => apart_settleAsset host job hnew)
  have hstart : FairIn host job ids [] ⟨s, [], []⟩ := fun hroomy =>
    { toKept := (hs hroomy).toKept
      planned := fun t ht => .inl ((hs hroomy).planned t ht)
      excluded := (hs hroomy).excluded }
  have hrun := hspec _ hstart
  unfold planResolvedAsset
  cases hresult : planAssetForRetry host fuel evidence passConfigs job ⟨s, [], []⟩ with
  | mk result s' =>
      rw [hresult] at hrun
      cases result with
      | ok u => exact hrun
      | error stop => exact hrun

end asset

/-! ## the whole plan -/

namespace PendingRetryInput

variable (input : PendingRetryInput)

/-- The answers are about distinct state ids, and an asset is planned under its own. -/
structure Orderly : Prop where
  distinct : (input.resolutions.map (·.stateId)).Nodup
  own : ∀ record ∈ input.resolutions, ∀ asset, record.resolution = .present asset →
    asset.stateId = record.stateId

/-- The property: an excluded target had no task planned for it, and a target with a withheld
task that was neither adopted nor queued is reported if it is still pending. -/
structure KeepsPlanned : Prop where
  excluded : ∀ target, .excluded target ∈ input.build.2.log →
    .planned target ∉ input.build.2.log
  reported : ∀ plan, input.build.1 = .ok plan → ∀ target,
    .withheld target ∈ input.build.2.log → .adopted target ∉ input.build.2.log →
      .queued target ∉ input.build.2.log →
      (input.stillPending.any (fun pending => pending target)) →
      target ∈ plan.unmatchedTargets

/-- The assets of these state ids were planned, apart from each other. -/
def At (ids : List String) (run : PlanRun) : Prop :=
  run.jobs.map (·.stateId) = ids ∧ ApartIn input.host ids run.toRetryState

variable {input} {ids : List String}

/-- The program goes on from the assets of the ids, and leaves what is kept. -/
abbrev PlansOn (input : PendingRetryInput) (ids : List String) (program : PlanM α)
    (Q : α → List String → Prop) : Prop :=
  Triple (input.At ids) program (fun a run => ∃ ids', Q a ids' ∧ input.At ids' run)
    (KeptIn input.host ·.toRetryState)

theorem kept_of_at (run : PlanRun) (h : input.At ids run) : KeptIn input.host run.toRetryState :=
  fun hroomy => (h.2 hroomy).toKept

theorem plansOn_recordOutcome (succeeds : Bool) :
    input.PlansOn ids (recordOutcome succeeds) (fun _ ids' => ids' = ids) := by
  cases succeeds with
  | true => exact Triple.pure (fun run h => ⟨ids, rfl, h⟩)
  | false => exact Triple.halt kept_of_at

theorem plansOn_planJob {job : RetryJob} (hnew : job.stateId ∉ ids)
    (hown : job.asset.stateId = job.stateId) :
    input.PlansOn ids (input.planJob job) (fun _ ids' => ids' = ids ++ [job.stateId]) := by
  intro run hrun
  have hstep := apart_planResolvedAsset input.host input.fuel input.evidence job hnew hown
    input.passConfigs hrun.2
  unfold planJob
  cases hresult : planResolvedAsset input.host input.fuel input.evidence input.passConfigs job
      run.toRetryState with
  | mk result s =>
      rw [hresult] at hstep
      cases result with
      | error stop => exact hstep
      | ok u =>
          refine ⟨_, rfl, by simp [hrun.1], fun hroomy => ?_⟩
          have hapart := hstep hroomy
          exact { hapart with
            planned := fun t ht => by simpa [or_comm] using hapart.planned t ht
            excluded := fun t ht => by simpa [or_comm] using hapart.excluded t ht }

theorem plansOn_bind {x : PlanM α} {f : α → PlanM β} {Q : α → List String → Prop}
    {R : β → List String → Prop} (hx : input.PlansOn ids x Q)
    (hf : ∀ a ids', Q a ids' → input.PlansOn ids' (f a) R) : input.PlansOn ids (x >>= f) R :=
  Triple.bind hx fun a => Triple.exists_pre fun ids' =>
    Triple.pre (fun _ h => h.1) fun hq => Triple.strengthen_pre (hf a ids' hq) fun _ h => h.2

/-- The names that the lookup leaves are other than those of the assets that were planned. -/
theorem plansOn_planResolutions {records : List ResolvedRecord} {legacy : List String}
    (hdistinct : (ids ++ legacy ++ records.map (·.stateId)).Nodup)
    (hown : ∀ record ∈ records, ∀ asset, record.resolution = .present asset →
      asset.stateId = record.stateId) :
    input.PlansOn ids (input.planResolutions records legacy)
      (fun legacy' ids' => (ids' ++ legacy').Nodup) := by
  induction records generalizing ids legacy with
  | nil => exact Triple.pure (fun run h => ⟨ids, by simpa using hdistinct, h⟩)
  | cons record records ih =>
      have hrest : (ids ++ legacy ++ records.map (·.stateId)).Nodup :=
        hdistinct.sublist ((List.Sublist.refl _).append (List.sublist_cons_self _ _))
      have hown' : ∀ record ∈ records, ∀ asset, record.resolution = .present asset →
          asset.stateId = record.stateId := fun r hr => hown r (List.mem_cons_of_mem _ hr)
      have hlater (succeeds : Bool) : input.PlansOn ids
          (recordOutcome succeeds >>= fun _ => input.planResolutions records legacy)
          (fun legacy' ids' => (ids' ++ legacy').Nodup) :=
        plansOn_bind (plansOn_recordOutcome succeeds) (fun _ ids' h => h ▸ ih hrest hown')
      refine Triple.bind Triple.read (fun empty => Triple.ite (fun _ => ?_) (fun _ => ?_))
      · exact Triple.pure (fun run h => ⟨ids, (List.nodup_append.mp hdistinct).1, h⟩)
      cases hresolution : record.resolution with
      | present asset =>
          refine plansOn_bind (plansOn_planJob ?_ (hown record (.head _) asset hresolution))
            (fun _ ids' h => h ▸ ih ?_ hown')
          · have hapart := (List.nodup_append.mp hdistinct).2.2
            exact fun hin => hapart record.stateId (List.mem_append_left _ hin) _ (.head _) rfl
          · refine (List.Perm.nodup_iff (List.perm_iff_count.mpr fun name => ?_)).mp hdistinct
            simp only [List.count_append, List.map_cons, List.count_cons, List.count_nil]
            omega
      | masterPresent =>
          have hnew : record.stateId ∉ legacy := fun hin =>
            (List.nodup_append.mp hdistinct).2.2 record.stateId (List.mem_append_right _ hin) _
              (.head _) rfl
          refine ih ?_ hown'
          rw [List.insert_of_not_mem hnew]
          refine (List.Perm.nodup_iff (List.perm_iff_count.mpr fun name => ?_)).mp hdistinct
          simp only [List.count_append, List.map_cons, List.count_cons]
          omega
      | deleted => exact hlater _
      | assetPresent => exact hlater _
      | unknown => exact hlater _
      | transientFailure => exact hlater _

theorem plansOn_planLegacyMaster (hydrated : List PlannedAsset) {stateId : String}
    (hnew : stateId ∉ ids) :
    input.PlansOn ids (input.planLegacyMaster hydrated stateId)
      (fun _ ids' => ids' = ids ∨ ids' = ids ++ [stateId]) := by
  have hrecord (succeeds : Bool) : input.PlansOn ids (recordOutcome succeeds)
      (fun _ ids' => ids' = ids ∨ ids' = ids ++ [stateId]) :=
    Triple.weaken_post (plansOn_recordOutcome succeeds)
      (fun _ _ ⟨ids', h, hat⟩ => ⟨ids', .inl h, hat⟩)
  refine Triple.bind Triple.read (fun targets => ?_)
  dsimp only
  split
  · split
    · exact Triple.halt kept_of_at
    · exact hrecord _
    · refine plansOn_bind (plansOn_recordOutcome _) (fun _ ids' h => ?_)
      subst h
      exact Triple.weaken_post (plansOn_planJob hnew rfl)
        (fun _ _ ⟨ids', h, hat⟩ => ⟨ids', .inr h, hat⟩)
  all_goals exact hrecord _

theorem plansOn_planLegacyMasters (hydrated : List PlannedAsset) {stateIds : List String}
    (hdistinct : (ids ++ stateIds).Nodup) :
    input.PlansOn ids (input.planLegacyMasters hydrated stateIds) (fun _ _ => True) := by
  induction stateIds generalizing ids with
  | nil => exact Triple.pure (fun run h => ⟨ids, trivial, h⟩)
  | cons stateId stateIds ih =>
      refine Triple.ite (fun _ => Triple.pure (fun run h => ⟨ids, trivial, h⟩)) (fun _ => ?_)
      have hnew : stateId ∉ ids := fun hin =>
        (List.nodup_append.mp hdistinct).2.2 stateId hin _ (.head _) rfl
      refine plansOn_bind (plansOn_planLegacyMaster hydrated hnew) (fun _ ids' h => ih ?_)
      rcases h with rfl | rfl
      · exact hdistinct.sublist ((List.Sublist.refl _).append (List.sublist_cons_self _ _))
      · rwa [List.append_assoc]

theorem plansOn_planLegacy {legacy : List String} (hdistinct : (ids ++ legacy).Nodup) :
    input.PlansOn ids (input.planLegacy legacy) (fun _ _ => True) := by
  refine Triple.ite (fun _ => Triple.pure (fun run h => ⟨ids, trivial, h⟩)) (fun _ => ?_)
  split
  · exact plansOn_planLegacyMasters _
      ((((input.hashOrder_perm legacy).append_left ids).nodup_iff).mpr hdistinct)
  · exact Triple.weaken_post (plansOn_recordOutcome _)
      (fun _ _ ⟨ids', _, hat⟩ => ⟨ids', trivial, hat⟩)

theorem plansOn_finishPlan : input.PlansOn ids input.finishPlan (fun _ _ => True) := by
  intro run hrun
  unfold finishPlan
  cases input.stillPending with
  | none => exact kept_of_at run hrun
  | some stillPending =>
      refine ⟨ids, trivial, hrun.1, fun hroomy => ?_⟩
      have hapart := hrun.2 hroomy
      exact ⟨⟨hapart.placed, hapart.unplanned⟩, hapart.planned, hapart.excluded⟩

/-- The run of a plan keeps what was planned, as long as there is room. -/
theorem kept_build (horderly : input.Orderly) :
    KeptIn input.host input.build.2.toRetryState := by
  have hinitial : input.At [] input.initial := by
    refine ⟨rfl, fun _ => ⟨⟨?_, ?_⟩, ?_, ?_⟩⟩ <;> exact fun _ h => nomatch h
  have hresolutions : input.PlansOn []
      (input.planResolutions (if input.passConfigs.isEmpty then [] else input.resolutions) [])
      (fun legacy ids => (ids ++ legacy).Nodup) := by
    split
    · exact plansOn_planResolutions (by simp) (fun _ h => nomatch h)
    · exact plansOn_planResolutions (by simpa using horderly.distinct) horderly.own
  have hplan : input.PlansOn [] input.planPending (fun _ _ => True) :=
    plansOn_bind hresolutions fun legacy ids h =>
      plansOn_bind (plansOn_planLegacy h) fun _ ids _ => plansOn_finishPlan
  unfold build
  split
  · exact kept_of_at _ hinitial
  · split
    · have hrun := hplan input.initial hinitial
      cases hresult : input.planPending input.initial with
      | mk result run =>
          rw [hresult] at hrun
          cases result with
          | ok plan =>
              obtain ⟨ids, -, hat⟩ := hrun
              exact kept_of_at run hat
          | error stop => exact hrun
    · exact kept_of_at _ hinitial

/-- **A target is excluded only if no task was planned for it**, where each state id has one answer
and its own asset, and there was room for every task of a recorded file. -/
theorem keepsPlanned_of_room (input : PendingRetryInput) (horderly : input.Orderly)
    (hroom : ∀ p ∈ input.build.2.asked, p.HasRoom input.host) : input.KeepsPlanned where
  excluded := (kept_build horderly hroom).unplanned
  reported _ _ target hwithheld := absurd hwithheld ((kept_build horderly hroom).placed target)

end PendingRetryInput

/-! ## two truncated files at one path -/

/-- A disk with a truncated photo in `/photos`. -/
def truncatedHost : Host :=
  { sampleHost with
    base64 := fun _ => ""
    readDirEntries := fun dir => if dir = ["/", "photos"] then [("IMG_1.JPG", 3)] else [] }

def repairConfig : RetryPassConfig where
  __ := samplePass
  repairTruncated := true

def truncatedPhoto (id : String) : PlannedAsset :=
  { samplePlanned id with
    filename := some "IMG_1.JPG"
    versions := [(.original, ⟨10, "url-" ++ id, "public.jpeg", "sum-" ++ id⟩)] }

/-- The row of a photo that was found truncated. -/
def truncatedRecord (id : String) (path : Path) : AssetRecord where
  library := "PrimarySync"
  id := id
  versionSize := .original
  checksum := "sum-" ++ id
  filename := "IMG_1.JPG"
  localPath := some path
  localChecksum := none
  downloadChecksum := none
  downloadedAt := some 0
  sizeBytes := 10
  lastError := some fileTruncatedReason

/-- A file that is not adopted, and a store that takes everything. -/
def truncatedReplies : RetryReplies where
  adopt _ _ _ _ := .notFound
  inspect _ _ := .file ⟨3, "truncated"⟩
  clearAssetVerification _ _ := true
  markPolicyExcluded _ := some true
  setAssetVerification _ := true

/-- Two truncated photos, the second one at this path. -/
def truncatedInput (path : Path) : PendingRetryInput where
  host := truncatedHost
  fuel := 0
  library := "PrimarySync"
  pending := [truncatedRecord "A" "/photos/IMG_1.JPG", truncatedRecord "B" path]
  prepared := true
  passConfigs := [repairConfig]
  resolutions := [
    ⟨"A", .present (truncatedPhoto "A"), false, true, truncatedReplies⟩,
    ⟨"B", .present (truncatedPhoto "B"), false, true, truncatedReplies⟩]
  hydrationCancelled := false
  hydrated := some []
  hydrationRecorded := true
  hashOrder names := names
  hashOrder_perm _ := .rfl
  legacyMasterStateOwners _ := none
  legacy _ := ⟨false, some true, true, truncatedReplies⟩
  stillPending := some (fun target => target.assetId = "A")

/-- Each row records a file of its own, and both are repaired. -/
theorem keepsPlanned_apart : (truncatedInput "/photos/IMG_2.JPG").KeepsPlanned ∧
    (truncatedInput "/photos/IMG_2.JPG").build.2.tasks.map
      (fun task => (task.assetId, task.downloadPath)) =
        [("A", "/photos/IMG_1.JPG"), ("B", "/photos/IMG_2.JPG")] := by
  have hroom : (truncatedInput "/photos/IMG_2.JPG").build.2.asked.all (fun p =>
      p.repair.isSome && ((p.planner.release truncatedHost p.task.downloadPath
        p.task.size).claimedPaths (normalize truncatedHost p.localPath)).isNone) = true := by
    decide +kernel
  refine ⟨(truncatedInput "/photos/IMG_2.JPG").keepsPlanned_of_room ⟨by decide, ?_⟩
    (fun p hp => ?_), by decide +kernel⟩
  · intro record hrecord asset hasset
    simp only [truncatedInput, List.mem_cons, List.not_mem_nil, or_false] at hrecord
    rcases hrecord with rfl | rfl <;> cases hasset <;> rfl
  · obtain ⟨hrepair, hfree⟩ := Bool.and_eq_true_iff.mp (List.all_eq_true.mp hroom p hp)
    obtain ⟨fingerprint, hfingerprint⟩ := Option.isSome_iff_exists.mp hrepair
    unfold Placement.HasRoom
    rw [hfingerprint]
    exact Option.isNone_iff_eq_none.mp hfree

/-- Two rows record one truncated file: its path is reserved for the first one, so the task of
the second one is withheld, and the second one is excluded. -/
theorem shared_path_excluded : ¬(truncatedInput "/photos/IMG_1.JPG").KeepsPlanned := by
  have hlog : (truncatedInput "/photos/IMG_1.JPG").build.2.log =
      [.planned ⟨"PrimarySync", "A", .original⟩, .queued ⟨"PrimarySync", "A", .original⟩,
        .planned ⟨"PrimarySync", "B", .original⟩, .withheld ⟨"PrimarySync", "B", .original⟩,
        .excluded ⟨"PrimarySync", "B", .original⟩] := by
    decide +kernel
  intro h
  have hunplanned := h.excluded ⟨"PrimarySync", "B", .original⟩ (by rw [hlog]; simp)
  exact hunplanned (by rw [hlog]; simp)

end Kei.Download
