import Kei.Download.Withheld

/-!
# Kei.Download.Settled

The targets that leave the queue of pending work, and the log that says so.

A target leaves the queue when it is adopted, queued as a task or excluded, and
the log has one event for each.  So the settled targets and the pending ones
are the targets of the start, each of them once: `Parted` is what every step of
the planning keeps.
-/

namespace Kei.Download

open Prog

/-! ## settled targets -/

namespace RetryEvent

/-- The target that leaves the queue. -/
def settled : RetryEvent → Option PendingRetryTarget
  | .adopted target | .queued target | .excluded target => some target
  | .planned _ | .dropped _ | .withheld _ => none

/-- The target that leaves the queue as a task. -/
def asTask : RetryEvent → Option PendingRetryTarget
  | .queued target => some target
  | _ => none

end RetryEvent

def PublishedTask.target (task : PublishedTask) : PendingRetryTarget :=
  .fromTask task.toDownloadTask

/-- The targets of the start are settled or pending, each of them once, the tasks are those of the
    queued ones, and the log has grown. -/
structure Parted (start : List PendingRetryTarget) (since : List RetryEvent) (s : RetryState) :
    Prop where
  perm : (s.log.filterMap RetryEvent.settled ++ s.pendingTargets).Perm start
  tasks : s.tasks.map PublishedTask.target = s.log.filterMap RetryEvent.asTask
  grown : since <+: s.log

namespace Parted

variable {start : List PendingRetryTarget} {since : List RetryEvent} {s s' : RetryState}

theorem same (h : Parted start since s) (hpending : s'.pendingTargets = s.pendingTargets)
    (htasks : s'.tasks = s.tasks) {events : List RetryEvent} (hlog : s'.log = s.log ++ events)
    (hevents : ∀ event ∈ events, event.settled = none) : Parted start since s' where
  perm := by
    rw [hpending, hlog, List.filterMap_append, List.filterMap_eq_nil_iff.mpr hevents]
    simpa using h.perm
  tasks := by
    have hnone : events.filterMap RetryEvent.asTask = [] := by
      refine List.filterMap_eq_nil_iff.mpr fun event hevent => ?_
      have hunsettled := hevents event hevent
      cases event <;> first | rfl | simp [RetryEvent.settled] at hunsettled
    rw [htasks, hlog, List.filterMap_append, hnone, List.append_nil]
    exact h.tasks
  grown := by
    rw [hlog]
    exact h.grown.trans (List.prefix_append _ _)

variable {target : PendingRetryTarget}

theorem not_pending (h : Parted start since s) (hstart : start.Nodup) {event : RetryEvent}
    (hevent : event ∈ s.log) (hsettled : event.settled = some target) :
    target ∉ s.pendingTargets := by
  have hapart := (List.nodup_append.mp (h.perm.nodup_iff.mpr hstart)).2.2
  exact fun hpending =>
    hapart target (List.mem_filterMap.mpr ⟨event, hevent, hsettled⟩) target hpending rfl

theorem pending_or (h : Parted start since s) (hmem : target ∈ start) :
    target ∈ s.pendingTargets ∨ ∃ event ∈ s.log, event.settled = some target := by
  rcases List.mem_append.mp (h.perm.mem_iff.mpr hmem) with hsettled | hpending
  · exact .inr (List.mem_filterMap.mp hsettled)
  · exact .inl hpending

theorem settled_once (h : Parted start since s) (hstart : start.Nodup) {event event' : RetryEvent}
    (hevent : event ∈ s.log) (hevent' : event' ∈ s.log) (hsettled : event.settled = some target)
    (hsettled' : event'.settled = some target) : event = event' := by
  have hnodup := (List.nodup_append.mp (h.perm.nodup_iff.mpr hstart)).1
  have hpairs := List.pairwise_filterMap.mp hnodup
  have hone : ∀ ⦃x⦄, x ∈ s.log → ∀ ⦃y⦄, y ∈ s.log →
      x.settled = some target → y.settled = some target → x = y :=
    List.Pairwise.forall_of_forall_of_flip (fun _ _ _ _ => rfl)
      (hpairs.imp fun hxy hx hy => (hxy target hx target hy rfl).elim)
      (hpairs.imp fun hxy hy hx => (hxy target hx target hy rfl).elim)
  exact hone hevent hevent' hsettled hsettled'

theorem pending_nodup (h : Parted start since s) (hstart : start.Nodup) : s.pendingTargets.Nodup :=
  (List.nodup_append.mp (h.perm.nodup_iff.mpr hstart)).2.1

theorem leave (h : Parted start since s) (hstart : start.Nodup) (hmem : target ∈ s.pendingTargets)
    {event : RetryEvent} (hevent : event.settled = some target)
    (hpending : s'.pendingTargets = s.pendingTargets.filter (fun t => t ≠ target))
    (hlog : s'.log = s.log ++ [event]) (htasks : s'.tasks.map PublishedTask.target =
      s.tasks.map PublishedTask.target ++ event.asTask.toList) : Parted start since s' where
  perm := by
    have herase :
        s.pendingTargets.filter (fun t => t ≠ target) = s.pendingTargets.erase target := by
      rw [(h.pending_nodup hstart).erase_eq_filter]
      exact List.filter_congr fun t _ => by by_cases ht : t = target <;> simp [ht]
    have hcons : (target :: s.pendingTargets.erase target).Perm s.pendingTargets :=
      (List.perm_cons_erase hmem).symm
    rw [hpending, hlog, herase, List.filterMap_append]
    simp only [List.filterMap_cons, hevent, List.filterMap_nil, List.append_assoc,
      List.singleton_append]
    exact (hcons.append_left _).trans h.perm
  tasks := by
    rw [htasks, h.tasks, hlog, List.filterMap_append]
    cases hnone : event.asTask <;> simp [hnone]
  grown := by
    rw [hlog]
    exact h.grown.trans (List.prefix_append _ _)

end Parted

/-! ## planning an asset -/

section planning

variable {host : Host} {fuel : Nat} {evidence : PendingRetryTarget → Option PendingRetryEvidence}
  {job : RetryJob} {passIndex : Nat} {config : RetryPassConfig} {start : List PendingRetryTarget}
  {since : List RetryEvent}

/-- The targets are pending, each of them once. -/
def Awaiting (start : List PendingRetryTarget) (since : List RetryEvent)
    (targets : List PendingRetryTarget) (s : PlanningState) : Prop :=
  Parted start since s.toRetryState ∧ targets.Nodup ∧ ∀ target ∈ targets, target ∈ s.pendingTargets

theorem Parted.awaiting {s : PlanningState} (h : Parted start since s.toRetryState)
    (hstart : start.Nodup) (keep : PendingRetryTarget → Bool) :
    Awaiting start since ((pendingOf job.stateId s.toRetryState).filter keep) s :=
  ⟨h, ((h.pending_nodup hstart).filter _).filter _,
    fun _ ht => List.mem_of_mem_filter (List.mem_of_mem_filter ht)⟩

variable (hstart : start.Nodup)
include hstart

variable {targets : List PendingRetryTarget}

theorem Awaiting.leave {target : PendingRetryTarget} {s s' : PlanningState}
    (h : Awaiting start since (target :: targets) s) {event : RetryEvent}
    (hevent : event.settled = some target) (hqueued : event.asTask = none)
    (hpending : s'.pendingTargets = s.pendingTargets.filter (fun t => t ≠ target))
    (hlog : s'.log = s.log ++ [event]) (htasks : s'.tasks = s.tasks) :
    Awaiting start since targets s' := by
  obtain ⟨hparted, hnodup, hmem⟩ := h
  obtain ⟨hnot, hrest⟩ := List.nodup_cons.mp hnodup
  refine ⟨hparted.leave hstart (hmem target (by simp)) hevent hpending hlog ?_, hrest,
    fun t ht => ?_⟩
  · simp [htasks, hqueued]
  · rw [hpending, List.mem_filter]
    refine ⟨hmem t (List.mem_cons_of_mem _ ht), decide_eq_true fun heq => ?_⟩
    exact hnot (heq ▸ ht)

theorem awaiting_adoptTarget {plannedTasks : List DownloadTask} {target : PendingRetryTarget} :
    Triple (Awaiting start since (target :: targets))
      (adoptTarget host evidence job passIndex config plannedTasks target)
      (fun _ => Awaiting start since targets) (fun _ => True) := by
  have hskip : ∀ s, Awaiting start since (target :: targets) s → Awaiting start since targets s :=
    fun s hs => ⟨hs.1, (List.nodup_cons.mp hs.2.1).2,
      fun t ht => hs.2.2 t (List.mem_cons_of_mem _ ht)⟩
  unfold adoptTarget
  split
  · exact Triple.pure hskip
  · dsimp only
    split
    · exact Triple.pure hskip
    · intro s hs
      have hleft : Awaiting start since targets { s with
          pendingTargets := s.pendingTargets.filter (fun t => t ≠ target)
          log := s.log ++ [.adopted target] } :=
        hs.leave hstart rfl rfl rfl rfl rfl
      exact Triple.weaken_halt (keeps_storeCall (I := Awaiting start since targets) _)
        (fun _ _ => trivial) _ hleft
    · exact Triple.modify hskip

theorem parted_adoptTargets {plannedTasks : List DownloadTask} :
    Triple (Awaiting start since targets)
      (adoptTargets host evidence job passIndex config plannedTasks targets)
      (fun _ s => Parted start since s.toRetryState) (fun _ => True) := by
  induction targets with
  | nil => exact Triple.pure (fun _ hs => hs.1)
  | cons target targets ih => exact Triple.bind (awaiting_adoptTarget hstart) (fun _ => ih)

omit hstart in
theorem parted_note {events : List RetryEvent} (hevents : ∀ event ∈ events, event.settled = none) :
    Keeps (fun s => Parted start since s.toRetryState) (note events) :=
  Keeps.modify (fun _ hs => hs.same rfl rfl rfl hevents)

omit hstart in
theorem parted_retryTasks {inspect : Path → FileInspection} {tasks : List DownloadTask} :
    Keeps (fun s => Parted start since s.toRetryState)
      (retryTasks host evidence inspect config tasks) :=
  keeps_retryTasks host evidence config
    (fun s _ _ hs => hs.same rfl rfl (List.append_nil _).symm (by simp))
    (fun _ => parted_note (by simp [RetryEvent.settled]))
    (fun _ => parted_note (by simp [RetryEvent.settled])) inspect tasks

theorem parted_takeMatching {placed : List PublishedTask} {s : PlanningState}
    (hs : Parted start since s.toRetryState) :
    Parted start since (takeMatchingPendingRetryTasks placed s).toRetryState := by
  induction placed generalizing s with
  | nil => exact hs
  | cons task tasks ih =>
      unfold takeMatchingPendingRetryTasks
      dsimp only
      split
      · next hpending =>
          have hleft : Parted start since { s.toRetryState with
              pendingTargets := s.pendingTargets.filter (fun t => t ≠ task.target)
              tasks := s.tasks ++ [task]
              log := s.log ++ [.queued task.target] } :=
            hs.leave hstart (List.contains_iff_mem.mp hpending) rfl rfl rfl
              (by simp [RetryEvent.asTask])
          split
          · exact hleft
          · exact ih hleft
      · exact ih hs

theorem parted_takePlan {plan : AssetTaskPlan} :
    Keeps (fun s => Parted start since s.toRetryState)
      (takePlan host evidence job passIndex config plan) := by
  refine Keeps.bind (keeps_noteMalformed job
    (fun s _ hs => hs.same rfl rfl (List.append_nil _).symm (by simp)) plan) (fun _ => ?_)
  refine Keeps.bind parted_retryTasks (fun placed => ?_)
  refine Keeps.bind (Keeps.read _) (fun queued => ?_)
  exact Keeps.bind (Keeps.modify (fun _ hs => parted_takeMatching hstart hs))
    (fun _ => keeps_clearQueued job passIndex queued)

theorem parted_runPass :
    Triple (fun s => Parted start since s.toRetryState)
      (runPass host fuel evidence job passIndex config)
      (fun _ s => Parted start since s.toRetryState) (fun _ => True) := by
  have hplan : Keeps (fun s => Parted start since s.toRetryState)
      (planPass host fuel job config) := by
    intro s hs
    unfold planPass
    cases s.taskPlanner.planAsset host fuel job.asset config.toPassConfig with
    | none => exact hs
    | some planned => exact hs.same rfl rfl rfl (by simp [RetryEvent.settled])
  refine Triple.bind (Triple.weaken_halt hplan (fun _ _ => trivial)) (fun plan => ?_)
  refine Triple.bind (R := fun targets => Awaiting start since targets) (fun s hs => ?_)
    (fun targets => Triple.bind (parted_adoptTargets hstart) (fun _ =>
      Triple.weaken_halt (Keeps.ite (fun _ => parted_takePlan hstart) (fun _ => Keeps.pure ()))
        (fun _ _ => trivial)))
  simpa using @Parted.awaiting job _ _ _ hs hstart (fun _ => true)

theorem parted_runPasses {passes : List (RetryPassConfig × Nat)} :
    Triple (fun s => Parted start since s.toRetryState) (runPasses host fuel evidence job passes)
      (fun _ s => Parted start since s.toRetryState) (fun _ => True) := by
  induction passes with
  | nil => exact Triple.pure (fun s hs => hs)
  | cons pass passes ih => exact Triple.bind (parted_runPass hstart) (fun _ => ih)

theorem parted_excludeTargets :
    Triple (Awaiting start since targets) (excludeTargets job targets)
      (fun _ s => Parted start since s.toRetryState) (fun _ => True) := by
  induction targets with
  | nil => exact Triple.pure (fun _ hs => hs.1)
  | cons target targets ih =>
      unfold excludeTargets
      split
      · exact Triple.halt (fun _ _ => trivial)
      · exact Triple.bind (R := fun _ => Awaiting start since targets)
          (Triple.modify (fun s hs => hs.leave hstart rfl rfl rfl rfl rfl)) (fun _ => ih)
      · exact Triple.strengthen_pre ih (fun s hs => ⟨hs.1, (List.nodup_cons.mp hs.2.1).2,
          fun t ht => hs.2.2 t (List.mem_cons_of_mem _ ht)⟩)

theorem parted_settleAsset :
    Triple (fun s => Parted start since s.toRetryState) (settleAsset job)
      (fun _ s => Parted start since s.toRetryState) (fun _ => True) := by
  refine Triple.bind (R := fun targets => Awaiting start since targets)
    (fun s hs => hs.awaiting hstart _) (fun targets => ?_)
  refine Triple.bind (parted_excludeTargets hstart) (fun _ => ?_)
  exact Triple.weaken_halt (Keeps.bind (Keeps.read _) (fun _ =>
    Keeps.bind (keeps_setVerifications job _) (fun _ =>
      Keeps.bind (Keeps.read _) (fun _ => keeps_setVerifications job _)))) (fun _ _ => trivial)

/-- Planning an asset takes targets out of the queue, each of them once. -/
theorem parted_planResolvedAsset {passConfigs : List RetryPassConfig} {s s' : RetryState}
    (h : planResolvedAsset host fuel evidence passConfigs job s = (.ok (), s'))
    (hs : Parted start since s) : Parted start since s' := by
  have hspec : Triple (fun s => Parted start since s.toRetryState)
      (planAssetForRetry host fuel evidence passConfigs job)
      (fun _ s => Parted start since s.toRetryState) (fun _ => True) :=
    Triple.bind (parted_runPasses hstart) (fun _ => parted_settleAsset hstart)
  unfold planResolvedAsset at h
  cases hrun : planAssetForRetry host fuel evidence passConfigs job ⟨s, [], []⟩ with
  | mk result after =>
      rw [hrun] at h
      obtain ⟨rfl, rfl⟩ := Prod.mk.inj h
      exact hspec.ok (s := ⟨s, [], []⟩) hs hrun

end planning

/-! ## a target that waits -/

section waiting

variable {host : Host} {fuel : Nat} {evidence : PendingRetryTarget → Option PendingRetryEvidence}
  {job : RetryJob} {passIndex : Nat} {config : RetryPassConfig} {target : PendingRetryTarget}

theorem waits_adoptTargets {plannedTasks : List DownloadTask} {targets : List PendingRetryTarget}
    (hother : target ∉ targets) :
    Keeps (fun s => target ∈ s.pendingTargets)
      (adoptTargets host evidence job passIndex config plannedTasks targets) := by
  induction targets with
  | nil => exact Keeps.pure ()
  | cons first targets ih =>
      obtain ⟨hne, hrest⟩ := not_or.mp (mt List.mem_cons.mpr hother)
      refine Keeps.bind ?_ (fun _ => ih hrest)
      unfold adoptTarget
      split
      · exact Keeps.pure ()
      · dsimp only
        split
        · exact Keeps.pure ()
        · exact Keeps.bind (Keeps.modify fun s hs => List.mem_filter.mpr ⟨hs, by simpa using hne⟩)
            (fun _ => Keeps.bind (Keeps.modify fun _ hs => hs) (fun _ => keeps_storeCall _))
        · exact Keeps.modify fun _ hs => hs

/-- The tasks that were placed are for targets of the plan. -/
theorem retryTasks_target {inspect : Path → FileInspection} {tasks : List DownloadTask} :
    Triple (fun _ => True) (retryTasks host evidence inspect config tasks)
      (fun placed _ => ∀ p ∈ placed, ∃ task ∈ tasks, p.target = .fromTask task)
      (fun _ => True) := by
  induction tasks with
  | nil => exact Triple.pure fun _ _ _ hp => nomatch hp
  | cons task tasks ih =>
      have hlater : Triple (fun _ => True) (retryTasks host evidence inspect config tasks)
          (fun placed _ => ∀ p ∈ placed, ∃ t ∈ task :: tasks, p.target = .fromTask t)
          (fun _ => True) :=
        Triple.weaken_post ih fun _ _ h p hp =>
          (h p hp).imp fun t ht => ⟨List.mem_cons_of_mem _ ht.1, ht.2⟩
      refine Triple.bind Triple.read (fun setAside => Triple.ite (fun _ => ?_) (fun _ => ?_))
      · exact Triple.bind (R := fun _ _ => True) (Triple.modify fun _ h => h) (fun _ => hlater)
      refine Triple.bind (R := fun placed _ => ∀ p ∈ placed, p.target = .fromTask task) ?_
        (fun placed => ?_)
      · unfold placeRetryTask
        split
        · exact Triple.pure fun _ _ p hp => by cases hp; rfl
        · split
          · exact Triple.pure fun _ _ p hp => by cases hp; rfl
          · split
            · exact Triple.halt fun _ _ => trivial
            · exact fun _ _ p hp => reserveRetryPath_target hp
      · cases placed with
        | none =>
            exact Triple.bind (R := fun _ _ => True) (Triple.modify fun _ _ => trivial)
              (fun _ => hlater)
        | some placed =>
            refine Triple.pre (fun _ h => h placed rfl) (fun htarget => ?_)
            refine Triple.bind (Triple.strengthen_pre hlater fun _ _ => trivial) (fun rest =>
              Triple.pure fun _ h => List.forall_mem_cons.mpr ⟨⟨task, .head _, htarget⟩, h⟩)

theorem waits_takeMatching {placed : List PublishedTask}
    (hother : ∀ p ∈ placed, p.target ≠ target) {s : PlanningState}
    (hs : target ∈ s.pendingTargets) :
    target ∈ (takeMatchingPendingRetryTasks placed s).pendingTargets := by
  induction placed generalizing s with
  | nil => exact hs
  | cons task tasks ih =>
      obtain ⟨hne, hrest⟩ := List.forall_mem_cons.mp hother
      have hleft : target ∈ s.pendingTargets.filter (fun t => t ≠ task.target) :=
        List.mem_filter.mpr ⟨hs, by simpa using hne.symm⟩
      unfold takeMatchingPendingRetryTasks
      dsimp only
      split
      · split
        · exact hleft
        · exact ih hrest hleft
      · exact ih hrest hs

variable (hjob : target.assetId ≠ job.stateId) (hasset : target.assetId ≠ job.asset.stateId)

include hasset in
theorem waits_takePlan {plan : AssetTaskPlan}
    (hplan : ∀ task ∈ plan.tasks, task.assetId = job.asset.stateId) :
    Keeps (fun s => target ∈ s.pendingTargets)
      (takePlan host evidence job passIndex config plan) := by
  refine Keeps.bind (keeps_noteMalformed job (fun _ _ hs => hs) plan) (fun _ => ?_)
  have hkeeps : Keeps (fun s => target ∈ s.pendingTargets)
      (retryTasks host evidence (job.replies.inspect passIndex) config plan.tasks) :=
    keeps_retryTasks host evidence config (fun _ _ _ hs => hs)
      (fun _ => Keeps.modify fun _ hs => hs) (fun _ => Keeps.modify fun _ hs => hs) _ _
  have htargets := Triple.and hkeeps (Triple.strengthen_pre retryTasks_target fun _ _ => trivial)
  refine Triple.bind (Triple.weaken_halt htargets fun _ h => h.1) (fun placed => ?_)
  refine Triple.pre (fun _ h => h.2) (fun hplaced => ?_)
  have hother : ∀ p ∈ placed, p.target ≠ target := by
    intro p hp heq
    obtain ⟨task, htask, htarget⟩ := hplaced p hp
    exact hasset (by rw [← heq, htarget]; exact hplan task htask)
  refine Triple.strengthen_pre ?_
    (fun s h => (h.1 : target ∈ s.pendingTargets))
  refine Keeps.bind (Keeps.read _) (fun queued => ?_)
  exact Keeps.bind (Keeps.modify fun _ hs => waits_takeMatching hother hs)
    (fun _ => keeps_clearQueued job passIndex queued)

include hjob hasset in
theorem waits_runPass :
    Keeps (fun s => target ∈ s.pendingTargets)
      (runPass host fuel evidence job passIndex config) := by
  have hplan : Triple (fun s => target ∈ s.pendingTargets) (planPass host fuel job config)
      (fun plan s => target ∈ s.pendingTargets ∧
        ∀ task ∈ plan.tasks, task.assetId = job.asset.stateId)
      (fun s => target ∈ s.pendingTargets) := by
    intro s hs
    unfold planPass
    cases hplanned : s.taskPlanner.planAsset host fuel job.asset config.toPassConfig with
    | none => exact hs
    | some planned => exact ⟨hs, planAsset_assetId hplanned⟩
  refine Triple.bind hplan (fun plan => Triple.pre (fun _ h => h.2) (fun htasks => ?_))
  refine Triple.bind (R := fun targets s => target ∈ s.pendingTargets ∧ target ∉ targets)
    (fun s hs => ⟨hs.1, fun hin => hjob (by simpa using (List.mem_filter.mp hin).2)⟩)
    (fun targets => Triple.pre (fun _ h => h.2) (fun hother => ?_))
  refine Triple.bind (Triple.strengthen_pre (waits_adoptTargets hother) fun _ h => h.1)
    (fun _ => ?_)
  exact Keeps.ite (fun _ => waits_takePlan hasset htasks) (fun _ => Keeps.pure ())

theorem waits_excludeTargets {targets : List PendingRetryTarget} (hother : target ∉ targets) :
    Keeps (fun s => target ∈ s.pendingTargets) (excludeTargets job targets) := by
  induction targets with
  | nil => exact Keeps.pure ()
  | cons first targets ih =>
      obtain ⟨hne, hrest⟩ := not_or.mp (mt List.mem_cons.mpr hother)
      unfold excludeTargets
      split
      · exact Keeps.halt _
      · exact Keeps.bind (Keeps.modify fun s hs => List.mem_filter.mpr ⟨hs, by simpa using hne⟩)
          (fun _ => ih hrest)
      · exact ih hrest

/-- Planning an asset takes no target of other assets out of the queue. -/
theorem waits_planResolvedAsset (hjob : target.assetId ≠ job.stateId)
    (hasset : target.assetId ≠ job.asset.stateId) {passConfigs : List RetryPassConfig}
    {s : RetryState} (hs : target ∈ s.pendingTargets) :
    target ∈ (planResolvedAsset host fuel evidence passConfigs job s).2.pendingTargets := by
  have hpasses : ∀ passes, Keeps (fun s => target ∈ s.pendingTargets)
      (runPasses host fuel evidence job passes) := by
    intro passes
    induction passes with
    | nil => exact Keeps.pure ()
    | cons pass passes ih => exact Keeps.bind (waits_runPass hjob hasset) (fun _ => ih)
  have hsettle : Keeps (fun s => target ∈ s.pendingTargets) (settleAsset job) := by
    refine Triple.bind (R := fun targets s => target ∈ s.pendingTargets ∧ target ∉ targets)
      (fun s hs => ⟨hs, fun hin => hjob (by simpa using (List.mem_filter.mp
        (List.mem_of_mem_filter hin)).2)⟩) (fun targets => ?_)
    refine Triple.pre (fun _ h => h.2) (fun hother => ?_)
    exact Triple.strengthen_pre (Keeps.bind (waits_excludeTargets hother) (fun _ =>
      Keeps.bind (Keeps.read _) (fun _ => Keeps.bind (keeps_setVerifications job _) (fun _ =>
        Keeps.bind (Keeps.read _) (fun _ => keeps_setVerifications job _))))) fun _ h => h.1
  have hspec : Keeps (fun s => target ∈ s.pendingTargets)
      (planAssetForRetry host fuel evidence passConfigs job) :=
    Keeps.bind (hpasses _) (fun _ => hsettle)
  exact hspec.snd (s := ⟨s, [], []⟩) hs

end waiting

end Kei.Download
