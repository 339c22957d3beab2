import Kei.Download.Settled

/-!
# Kei.Download.Fates

What becomes of every target of a retry, with the tombstones that the lookup
leaves in the store.

An answer that an asset or the master of a family is deleted puts a tombstone
on the rows, also on those that other answers are about.  The queue does not
look at the tombstones before the store is read again at the end.  So each
target ends in one way as long as no answer finds an asset whose rows get the
tombstone of another answer.
-/

namespace Kei.Download

open Prog

/-! ## the plan with its store -/

/-- A plan with what is known of the families of the assets. -/
structure StoredRetryInput extends PendingRetryInput where
  /-- `asset_master_mappings` of the library, by the name of the asset record. -/
  masterOf : String → Option String
  /-- Whether the deletion of a state id is that of its master; each state id has one result. -/
  masterFamily : String → Bool

structure StoredRun extends PlanRun where
  /-- The state ids whose deletion was recorded. -/
  deletions : List String

abbrev StoredM := Prog StoredRun RetryStop

namespace ResolvedRecord

/-- The answer is that the asset, or the master of its family, is deleted. -/
def isDeletion (record : ResolvedRecord) : Bool :=
  match record.resolution with
  | .deleted => true
  | _ => false

/-- The assets that the answer finds: their targets may leave the queue. -/
def found (record : ResolvedRecord) : List String :=
  match record.resolution with
  | .present asset => [record.stateId, asset.stateId]
  | .masterPresent => [record.stateId]
  | _ => []

end ResolvedRecord

namespace StoredRetryInput

variable (input : StoredRetryInput)

/-- The master of a state id in the plan of the lookup. -/
def masterByStateId (stateId : String) : String :=
  if (input.records.map (·.id)).contains stateId then (input.masterOf stateId).getD stateId
  else stateId

/-- Whether the deletion of a state id puts a tombstone on the rows of the asset. -/
def tombstones (stateId assetId : String) : Bool :=
  if input.masterFamily stateId then
    assetId = input.masterByStateId stateId ||
      input.masterOf assetId = some (input.masterByStateId stateId)
  else assetId = stateId

/-- `is_deleted` of the row. -/
def isDeleted (deletions : List String) (target : PendingRetryTarget) : Bool :=
  deletions.any (fun stateId => input.tombstones stateId target.assetId)

/-- A pending row is excluded unless it has a tombstone. -/
def storeReplies (deletions : List String) (replies : RetryReplies) : RetryReplies :=
  { replies with
    markPolicyExcluded := fun target =>
      (replies.markPolicyExcluded target).map (fun _ => !input.isDeleted deletions target) }

/-- The input with the answers of the store about the rows of the legacy masters. -/
def withStore (deletions : List String) : PendingRetryInput :=
  { input.toPendingRetryInput with
    legacy := fun stateId =>
      { input.legacy stateId with
        replies := input.storeReplies deletions (input.legacy stateId).replies } }

/-- The pending rows when the store is read again. -/
def stillPendingRows (run : StoredRun) (target : PendingRetryTarget) : Bool :=
  input.pendingTargets.contains target && !run.log.contains (.adopted target) &&
    !run.log.contains (.excluded target) && !input.isDeleted run.deletions target

/-- Plan assets, over the tombstones so far. -/
def planStep (program : List String → PlanM Unit) : StoredM Unit := fun run =>
  let (result, after) := program run.deletions run.toPlanRun
  (result, ⟨after, run.deletions⟩)

def recordDeletion (stateId : String) (recorded : Bool) : StoredM Unit :=
  if recorded then
    Prog.modify (fun run => { run with deletions := run.deletions ++ [stateId] })
  else Prog.halt .storeError

/-- Record why a target stays. -/
def recordVerification (recorded : Bool) : StoredM Unit :=
  if recorded then pure () else Prog.halt .storeError

/-- The results of the lookup; the names of the masters without an asset are returned. -/
def planResolutions : List ResolvedRecord → List String → StoredM (List String)
  | [], legacy => pure legacy
  | record :: records, legacy => do
      if (← Prog.read (fun run => run.pendingTargets.isEmpty)) || record.cancelled then
        return legacy
      else
        match record.resolution with
        | .present asset => do
            planStep (fun deletions => input.planJob
              ⟨asset, record.stateId, input.storeReplies deletions record.replies⟩)
            planResolutions records legacy
        | .masterPresent => planResolutions records (legacy.insert record.stateId)
        | .deleted => do
            recordDeletion record.stateId record.recorded
            planResolutions records legacy
        | .assetPresent | .unknown | .transientFailure => do
            recordVerification record.recorded
            planResolutions records legacy

/-- The targets that stay, once the store was read again. -/
def finishPlan : StoredM PendingRetryPlan := fun run =>
  let (result, after) := { input.toPendingRetryInput with
    stillPending := input.stillPending.map (fun _ => input.stillPendingRows run)
    }.finishPlan run.toPlanRun
  (result, { run with toPlanRun := after })

def planPending : StoredM PendingRetryPlan := do
  let legacy ← input.planResolutions
    (if input.passConfigs.isEmpty then [] else input.resolutions) []
  planStep (fun deletions => (input.withStore deletions).planLegacy legacy)
  input.finishPlan

def initial : StoredRun := ⟨input.toPendingRetryInput.initial, []⟩

/-- `build_pending_retry_download_tasks` over its store, with the state that it ends in. -/
def build : Except RetryStop PendingRetryPlan × StoredRun :=
  if input.pendingTargets.isEmpty then
    (.ok ⟨[], [], [], 0⟩, input.initial)
  else if input.prepared then
    input.planPending input.initial
  else
    (.error .storeError, input.initial)

end StoredRetryInput

/-! ## the ends of a target -/

/-- What becomes of a target. -/
inductive Fate where
  | task
  | adopted
  | policyExcluded
  | deleted
  | unmatched
  deriving DecidableEq

namespace Fate

/-- The event by which a target with this fate leaves the queue. -/
def event (target : PendingRetryTarget) : Fate → Option RetryEvent
  | task => some (.queued target)
  | adopted => some (.adopted target)
  | policyExcluded => some (.excluded target)
  | deleted | unmatched => none

variable {target : PendingRetryTarget} {fate fate' : Fate} {e : RetryEvent}

theorem event_settled (h : fate.event target = some e) : e.settled = some target := by
  cases fate <;> cases h <;> rfl

theorem of_settled (h : e.settled = some target) : ∃ fate : Fate, fate.event target = some e := by
  cases e with
  | adopted t => cases h; exact ⟨.adopted, rfl⟩
  | queued t => cases h; exact ⟨.task, rfl⟩
  | excluded t => cases h; exact ⟨.policyExcluded, rfl⟩
  | planned t => cases h
  | dropped t => cases h
  | withheld t => cases h

theorem event_inj (h : fate.event target = some e) (h' : fate'.event target = some e) :
    fate = fate' := by
  cases fate <;> cases h <;> cases fate' <;> first | rfl | cases h'

end Fate

namespace StoredRetryInput

variable (input : StoredRetryInput)

def Meets (plan : PendingRetryPlan) (run : StoredRun) (target : PendingRetryTarget) :
    Fate → Prop
  | .task => target ∈ plan.tasks.map PublishedTask.target
  | .adopted => .adopted target ∈ run.log
  | .policyExcluded => .excluded target ∈ run.log
  | .deleted => input.isDeleted run.deletions target = true
  | .unmatched => target ∈ plan.unmatchedTargets

/-- Every requested target ends in one way, and no task is for a target with a tombstone, for one
    that was not requested, or for that of another task. -/
structure Partitions (plan : PendingRetryPlan) (run : StoredRun) : Prop where
  one : ∀ target ∈ input.pendingTargets, ∃! fate, input.Meets plan run target fate
  once : (plan.tasks.map PublishedTask.target).Nodup
  requested : ∀ task ∈ plan.tasks, task.target ∈ input.pendingTargets
  live : ∀ task ∈ plan.tasks, input.isDeleted run.deletions task.target = false

/-- A deletion of the lookup puts a tombstone on the row. -/
def Covered (target : PendingRetryTarget) : Prop :=
  ∃ deletion ∈ input.resolutions, deletion.isDeletion = true ∧
    input.tombstones deletion.stateId target.assetId = true

instance (target : PendingRetryTarget) : Decidable (input.Covered target) :=
  inferInstanceAs (Decidable (∃ _ ∈ _, _ ∧ _))

/-- No answer finds the asset of a target that the deletion of another answer puts a tombstone
    on. -/
def DeletesApart : Prop :=
  ∀ target ∈ input.pendingTargets, input.Covered target →
    ∀ answer ∈ input.resolutions, target.assetId ∉ answer.found

instance : Decidable input.DeletesApart :=
  inferInstanceAs (Decidable (∀ _ ∈ _, _ → ∀ _ ∈ _, _ ∉ _))

/-! ## the targets of a step -/

section steps

variable {input : StoredRetryInput} {plain : PendingRetryInput} {start : List PendingRetryTarget}
  {since : List RetryEvent}

theorem pendingTargets_nodup : input.pendingTargets.Nodup := List.nodup_dedup _

/-- The targets of the start left the queue once at most, and the `kept` ones are in it. -/
structure Queued (start : List PendingRetryTarget) (since : List RetryEvent)
    (kept : PendingRetryTarget → Prop) (s : RetryState) : Prop extends Parted start since s where
  waiting : ∀ target, kept target → target ∈ s.pendingTargets

/-- The program takes each target out of the queue once at most, and the `kept` ones not at all. -/
abbrev PartsTargets (start : List PendingRetryTarget) (since : List RetryEvent)
    (kept : PendingRetryTarget → Prop) (program : PlanM α) : Prop :=
  Triple (fun run => Queued start since kept run.toRetryState) program
    (fun _ run => Queued start since kept run.toRetryState) (fun _ => True)

variable {kept : PendingRetryTarget → Prop}

theorem parts_recordOutcome {succeeds : Bool} :
    PartsTargets start since kept (PendingRetryInput.recordOutcome succeeds) := by
  cases succeeds with
  | true => exact Triple.pure (fun _ h => h)
  | false => exact Triple.halt (fun _ _ => trivial)

theorem parts_planJob (hstart : start.Nodup) {job : RetryJob}
    (hother : ∀ target, kept target →
      target.assetId ≠ job.stateId ∧ target.assetId ≠ job.asset.stateId) :
    PartsTargets start since kept (plain.planJob job) := by
  intro run hrun
  unfold PendingRetryInput.planJob
  cases hplan : planResolvedAsset plain.host plain.fuel plain.evidence plain.passConfigs job
      run.toRetryState with
  | mk result s =>
      cases result with
      | ok u =>
          refine ⟨parted_planResolvedAsset hstart hplan hrun.toParted, fun target htarget => ?_⟩
          have hstays : target ∈ (planResolvedAsset plain.host plain.fuel plain.evidence
              plain.passConfigs job run.toRetryState).2.pendingTargets :=
            waits_planResolvedAsset (hother target htarget).1 (hother target htarget).2
              (hrun.waiting target htarget)
          rwa [hplan] at hstays
      | error stop => trivial

theorem parts_planLegacyMaster (hstart : start.Nodup) {hydrated : List PlannedAsset}
    {stateId : String} (hother : ∀ target, kept target → target.assetId ≠ stateId) :
    PartsTargets start since kept (plain.planLegacyMaster hydrated stateId) := by
  refine Triple.bind Triple.read (fun targets => ?_)
  dsimp only
  split
  · split
    · exact Triple.halt (fun _ _ => trivial)
    · exact parts_recordOutcome
    · exact Triple.bind parts_recordOutcome (fun _ => parts_planJob hstart
        (fun target htarget => ⟨hother target htarget, hother target htarget⟩))
  all_goals exact parts_recordOutcome

theorem parts_planLegacy (hstart : start.Nodup) {legacy : List String}
    (hother : ∀ stateId ∈ legacy, ∀ target, kept target → target.assetId ≠ stateId) :
    PartsTargets start since kept (plain.planLegacy legacy) := by
  refine Triple.ite (fun _ => Triple.pure (fun _ h => h)) (fun _ => ?_)
  have hordered : ∀ stateId ∈ plain.hashOrder legacy, ∀ target, kept target →
      target.assetId ≠ stateId :=
    fun stateId hin => hother stateId ((plain.hashOrder_perm legacy).mem_iff.mp hin)
  split
  · next hydrated hhydrated =>
      generalize plain.hashOrder legacy = names at hordered
      induction names with
      | nil => exact Triple.pure (fun _ h => h)
      | cons stateId stateIds ih =>
          obtain ⟨hfirst, hrest⟩ := List.forall_mem_cons.mp hordered
          exact Triple.ite (fun _ => Triple.pure (fun _ h => h)) (fun _ =>
            Triple.bind (parts_planLegacyMaster hstart hfirst) (fun _ => ih hrest))
  · exact parts_recordOutcome

/-! ## tombstones in the queue -/

variable (input) in
/-- Every target with a tombstone is still in the queue. -/
def Unspoilt (run : StoredRun) : Prop :=
  ∀ target ∈ input.pendingTargets, input.isDeleted run.deletions target = true →
    target ∈ run.pendingTargets

variable (input) in
/-- The queue is parted, and the recorded deletions are those of the lookup. -/
structure Traced (kept : PendingRetryTarget → Prop) (run : StoredRun) : Prop where
  queued : Queued input.pendingTargets [] kept run.toRetryState
  recorded : ∀ stateId ∈ run.deletions, ∃ deletion ∈ input.resolutions,
    deletion.isDeletion = true ∧ deletion.stateId = stateId

theorem Traced.parted {run : StoredRun} (h : input.Traced kept run) :
    Parted input.pendingTargets [] run.toRetryState := h.queued.toParted

theorem traced_initial (hkept : ∀ target, kept target → target ∈ input.pendingTargets) :
    input.Traced kept input.initial where
  queued := ⟨⟨List.Perm.refl _, rfl, List.nil_prefix⟩, hkept⟩
  recorded _ hin := nomatch hin

theorem traced_planStep {program : List String → PlanM Unit}
    (hprogram : ∀ deletions since,
      PartsTargets input.pendingTargets since kept (program deletions)) :
    Triple (input.Traced kept) (planStep program) (fun _ => input.Traced kept)
      (fun _ => True) := by
  intro run hrun
  have hspec := hprogram run.deletions [] run.toPlanRun hrun.queued
  unfold planStep
  cases hresult : program run.deletions run.toPlanRun with
  | mk result after =>
      rw [hresult] at hspec
      cases result with
      | error stop => trivial
      | ok u => exact ⟨hspec, hrun.recorded⟩

theorem traced_recordDeletion {record : ResolvedRecord} (hmem : record ∈ input.resolutions)
    (hdeletion : record.isDeletion = true) :
    Triple (input.Traced kept) (recordDeletion record.stateId record.recorded)
      (fun _ => input.Traced kept) (fun _ => True) :=
  Triple.ite
    (fun _ => Triple.modify fun _ hrun => ⟨hrun.queued, List.forall_mem_append.mpr
      ⟨hrun.recorded, List.forall_mem_singleton.mpr ⟨record, hmem, hdeletion, rfl⟩⟩⟩)
    (fun _ => Triple.halt fun _ _ => trivial)

theorem traced_recordVerification {recorded : Bool} :
    Triple (input.Traced kept) (recordVerification recorded) (fun _ => input.Traced kept)
      (fun _ => True) :=
  Triple.ite (fun _ => Triple.pure fun _ h => h) (fun _ => Triple.halt fun _ _ => trivial)

/-- The targets that no answer finds stay in the queue, and so do they for the names that are left
    to the legacy masters. -/
theorem traced_planResolutions {records : List ResolvedRecord} {legacy : List String}
    (hrecords : ∀ record ∈ records, record ∈ input.resolutions)
    (hfound : ∀ target, kept target → ∀ answer ∈ input.resolutions,
      target.assetId ∉ answer.found)
    (hlegacy : ∀ stateId ∈ legacy, ∀ target, kept target → target.assetId ≠ stateId) :
    Triple (input.Traced kept) (input.planResolutions records legacy)
      (fun legacy run => input.Traced kept run ∧
        ∀ stateId ∈ legacy, ∀ target, kept target → target.assetId ≠ stateId)
      (fun _ => True) := by
  induction records generalizing legacy with
  | nil => exact Triple.pure fun _ h => ⟨h, hlegacy⟩
  | cons record records ih =>
      obtain ⟨hmem, hrest⟩ := List.forall_mem_cons.mp hrecords
      refine Triple.bind Triple.read fun empty =>
        Triple.ite (fun _ => Triple.pure fun _ h => ⟨h, hlegacy⟩) fun _ => ?_
      cases hresolution : record.resolution with
      | present asset =>
          have hother : ∀ target, kept target →
              target.assetId ≠ record.stateId ∧ target.assetId ≠ asset.stateId := by
            intro target htarget
            simpa [ResolvedRecord.found, hresolution] using hfound target htarget record hmem
          exact Triple.bind
            (traced_planStep fun _ _ => parts_planJob pendingTargets_nodup hother)
            fun _ => ih hrest hlegacy
      | masterPresent =>
          refine ih hrest fun stateId hin target htarget => ?_
          rcases List.mem_insert_iff.mp hin with rfl | hin
          · simpa [ResolvedRecord.found, hresolution] using hfound target htarget record hmem
          · exact hlegacy stateId hin target htarget
      | deleted =>
          exact Triple.bind
            (traced_recordDeletion hmem (by simp [ResolvedRecord.isDeletion, hresolution]))
            fun _ => ih hrest hlegacy
      | assetPresent => exact Triple.bind traced_recordVerification fun _ => ih hrest hlegacy
      | unknown => exact Triple.bind traced_recordVerification fun _ => ih hrest hlegacy
      | transientFailure => exact Triple.bind traced_recordVerification fun _ => ih hrest hlegacy

/-- When the covered targets wait, every tombstone is in the queue. -/
theorem Traced.unspoilt {run : StoredRun}
    (h : input.Traced (fun target => target ∈ input.pendingTargets ∧ input.Covered target) run) :
    input.Unspoilt run := by
  intro target hmem hdeleted
  obtain ⟨stateId, hin, htombstone⟩ := List.any_eq_true.mp hdeleted
  obtain ⟨deletion, hdeletion, hdeletes, rfl⟩ := h.recorded stateId hin
  exact h.queued.waiting target ⟨hmem, deletion, hdeletion, hdeletes, htombstone⟩

/-! ## the whole retry -/

variable {plan : PendingRetryPlan} {run : StoredRun} {target : PendingRetryTarget}

theorem mem_tasks_iff (h : Parted start since run.toRetryState) :
    target ∈ run.tasks.map PublishedTask.target ↔ .queued target ∈ run.log := by
  rw [h.tasks, List.mem_filterMap]
  constructor
  · rintro ⟨event, hevent, htask⟩
    cases event with
    | queued t => cases htask; exact hevent
    | _ => simp [RetryEvent.asTask] at htask
  · exact fun hqueued => ⟨_, hqueued, rfl⟩

variable (input) in
/-- A plan of what the run leaves. -/
structure Finished (plan : PendingRetryPlan) (run : StoredRun) : Prop where
  tasks : plan.tasks = run.tasks
  unmatched : plan.unmatchedTargets = run.pendingTargets.filter (input.stillPendingRows run)

theorem meets_iff (hrun : input.Traced kept run) (hplan : input.Finished plan run) {fate : Fate}
    {e : RetryEvent} (h : fate.event target = some e) :
    input.Meets plan run target fate ↔ e ∈ run.log := by
  cases fate with
  | task =>
      cases h
      show target ∈ plan.tasks.map PublishedTask.target ↔ _
      rw [hplan.tasks]
      exact mem_tasks_iff hrun.parted
  | adopted => cases h; exact Iff.rfl
  | policyExcluded => cases h; exact Iff.rfl
  | deleted => cases h
  | unmatched => cases h

theorem one_of_settled (hrun : input.Traced kept run) (hplan : input.Finished plan run)
    (hunspoilt : input.Unspoilt run) (hmem : target ∈ input.pendingTargets) {e : RetryEvent}
    (hevent : e ∈ run.log) (hsettled : e.settled = some target) :
    ∃! fate, input.Meets plan run target fate := by
  have hgone := hrun.parted.not_pending pendingTargets_nodup hevent hsettled
  obtain ⟨fate, hfate⟩ := Fate.of_settled hsettled
  refine ⟨fate, (meets_iff hrun hplan hfate).mpr hevent, fun other hother => ?_⟩
  cases hnone : other.event target with
  | some e' =>
      have hevent' := (meets_iff hrun hplan hnone).mp hother
      obtain rfl := hrun.parted.settled_once pendingTargets_nodup hevent' hevent
        (Fate.event_settled hnone) hsettled
      exact Fate.event_inj hnone hfate
  | none =>
      cases other with
      | deleted => exact absurd (hunspoilt target hmem hother) hgone
      | unmatched =>
          have hunmatched : target ∈ plan.unmatchedTargets := hother
          rw [hplan.unmatched] at hunmatched
          exact absurd (List.mem_of_mem_filter hunmatched) hgone
      | task => cases hnone
      | adopted => cases hnone
      | policyExcluded => cases hnone

theorem one_of_pending (hrun : input.Traced kept run) (hplan : input.Finished plan run)
    (hmem : target ∈ input.pendingTargets) (hpending : target ∈ run.pendingTargets) :
    ∃! fate, input.Meets plan run target fate := by
  have hstays : ∀ {e : RetryEvent}, e.settled = some target → e ∉ run.log :=
    fun hsettled hevent =>
      hrun.parted.not_pending pendingTargets_nodup hevent hsettled hpending
  have hunmatched : input.Meets plan run target .unmatched ↔
      input.isDeleted run.deletions target = false := by
    show target ∈ plan.unmatchedTargets ↔ _
    rw [hplan.unmatched, List.mem_filter]
    have hadopted := hstays (e := .adopted target) rfl
    have hexcluded := hstays (e := .excluded target) rfl
    simp [stillPendingRows, hpending, hmem, hadopted, hexcluded]
  have honly : ∀ other, input.Meets plan run target other →
      other = .deleted ∨ other = .unmatched := by
    intro other hother
    cases hnone : other.event target with
    | some e =>
        exact absurd ((meets_iff hrun hplan hnone).mp hother) (hstays (Fate.event_settled hnone))
    | none => cases other <;> first | exact .inl rfl | exact .inr rfl | cases hnone
  cases hdeleted : input.isDeleted run.deletions target with
  | true =>
      refine ⟨.deleted, hdeleted, fun other hother => (honly other hother).elim id fun heq => ?_⟩
      subst heq
      exact absurd (hunmatched.mp hother) (by simp [hdeleted])
  | false =>
      refine ⟨.unmatched, hunmatched.mpr hdeleted, fun other hother =>
        (honly other hother).elim (fun heq => ?_) id⟩
      subst heq
      exact absurd hother (by simp [Meets, hdeleted])

theorem tasks_nodup (h : Parted start since run.toRetryState) (hstart : start.Nodup) :
    (run.tasks.map PublishedTask.target).Nodup := by
  have hsublist : ∀ log : List RetryEvent,
      (log.filterMap RetryEvent.asTask).Sublist (log.filterMap RetryEvent.settled) := by
    intro log
    induction log with
    | nil => exact List.Sublist.refl _
    | cons event log ih =>
        cases event with
        | queued t => exact ih.cons_cons t
        | adopted t => exact ih.cons t
        | excluded t => exact ih.cons t
        | planned t => exact ih
        | dropped t => exact ih
        | withheld t => exact ih
  rw [h.tasks]
  exact (hsublist run.log).nodup (List.nodup_append.mp (h.perm.nodup_iff.mpr hstart)).1

/-- The ends of the targets are apart just where every tombstone is in the queue. -/
theorem partitions_iff_unspoilt (hrun : input.Traced kept run) (hplan : input.Finished plan run) :
    input.Partitions plan run ↔ input.Unspoilt run := by
  constructor
  · intro h target hmem hdeleted
    rcases hrun.parted.pending_or hmem with hpending | ⟨e, hevent, hsettled⟩
    · exact hpending
    · obtain ⟨fate, hfate⟩ := Fate.of_settled hsettled
      have heq := (h.one target hmem).unique ((meets_iff hrun hplan hfate).mpr hevent)
        (show input.Meets plan run target .deleted from hdeleted)
      subst heq
      cases hfate
  · intro hunspoilt
    have hqueued : ∀ task ∈ plan.tasks, .queued task.target ∈ run.log := by
      intro task htask
      rw [hplan.tasks] at htask
      exact (mem_tasks_iff hrun.parted).mp (List.mem_map_of_mem htask)
    have hrequested : ∀ task ∈ plan.tasks, task.target ∈ input.pendingTargets :=
      fun task htask => hrun.parted.perm.mem_iff.mp (List.mem_append_left _
        (List.mem_filterMap.mpr ⟨_, hqueued task htask, rfl⟩))
    refine ⟨fun target hmem => ?_, ?_, hrequested, fun task htask => ?_⟩
    · rcases hrun.parted.pending_or hmem with hpending | ⟨e, hevent, hsettled⟩
      · exact one_of_pending hrun hplan hmem hpending
      · exact one_of_settled hrun hplan hunspoilt hmem hevent hsettled
    · rw [hplan.tasks]
      exact tasks_nodup hrun.parted pendingTargets_nodup
    · have hgone := hrun.parted.not_pending pendingTargets_nodup (hqueued task htask) rfl
      cases hdeleted : input.isDeleted run.deletions task.target with
      | false => rfl
      | true => exact absurd (hunspoilt _ (hrequested task htask) hdeleted) hgone

theorem partitions_congr {run' : StoredRun} (hlog : run'.log = run.log)
    (hdeletions : run'.deletions = run.deletions) :
    input.Partitions plan run' ↔ input.Partitions plan run := by
  have hmeets : input.Meets plan run' = input.Meets plan run := by
    funext target fate
    cases fate <;> simp only [Meets, hlog, hdeletions]
  constructor
  all_goals exact fun h => ⟨hmeets ▸ h.one, h.once, h.requested, hdeletions ▸ h.live⟩

/-- The plan is that of a traced run, with its log and its tombstones. -/
theorem finishPlan_spec :
    Triple (input.Traced kept) input.finishPlan
      (fun plan run => ∃ before, input.Traced kept before ∧ input.Finished plan before ∧
        run.log = before.log ∧ run.deletions = before.deletions)
      (fun _ => True) := by
  intro run hrun
  unfold finishPlan PendingRetryInput.finishPlan
  cases input.stillPending with
  | none => trivial
  | some rows => exact ⟨run, hrun, ⟨rfl, rfl⟩, rfl, rfl⟩

end steps

/-- **The requested targets are partitioned if no answer finds what another one deletes.** -/
theorem partitions_of_apart (input : StoredRetryInput) (hapart : input.DeletesApart)
    {plan : PendingRetryPlan} {run : StoredRun} (h : input.build = (.ok plan, run)) :
    input.Partitions plan run := by
  have hstart : input.Traced
    (fun target => target ∈ input.pendingTargets ∧ input.Covered target) input.initial :=
      traced_initial fun _ h => h.1
  unfold build at h
  split at h
  · next hempty =>
      cases h
      have hplan : input.Finished ⟨[], [], [], 0⟩ input.initial :=
        ⟨rfl, by simp [initial, PendingRetryInput.initial, List.isEmpty_iff.mp hempty]⟩
      exact (partitions_iff_unspoilt hstart hplan).mpr hstart.unspoilt
  · split at h
    · have hrecords : ∀ record ∈ if input.passConfigs.isEmpty then [] else input.resolutions,
          record ∈ input.resolutions := by
        split <;> simp
      have hfound : ∀ target, target ∈ input.pendingTargets ∧ input.Covered target →
          ∀ answer ∈ input.resolutions, target.assetId ∉ answer.found :=
        fun target htarget => hapart target htarget.1 htarget.2
      have hspec := Triple.bind
        (traced_planResolutions hrecords hfound (fun _ hin => nomatch (hin : _ ∈ [])))
        fun legacy => Triple.pre (fun _ h => h.2) fun hlegacy => Triple.strengthen_pre
          (Triple.bind (@traced_planStep _ _ (fun deletions =>
            (input.withStore deletions).planLegacy legacy)
            fun _ _ => parts_planLegacy pendingTargets_nodup hlegacy)
          fun _ => finishPlan_spec) fun _ h => h.1
      obtain ⟨before, hbefore, hplan, hlog, hdeletions⟩ := hspec.ok hstart h
      exact (partitions_congr hlog hdeletions).mpr
        ((partitions_iff_unspoilt hbefore hplan).mpr hbefore.unspoilt)
    · cases h

end StoredRetryInput

/-! ## siblings in two batches of the lookup -/

/-- A photo with a row that was never tried. -/
def siblingRecord (id : String) : AssetRecord :=
  { truncatedRecord id "/photos/IMG_1.JPG" with
    localPath := none
    downloadedAt := none
    lastError := none }

/-- Two photos; the lookup finds the one, and that the master of the other is deleted. -/
def siblingInput (master : String) : StoredRetryInput where
  host := { truncatedHost with readDirEntries := fun _ => [] }
  fuel := 0
  library := "PrimarySync"
  pending := [siblingRecord "A", siblingRecord "B"]
  prepared := true
  passConfigs := [repairConfig]
  resolutions := [
    ⟨"A", .present (truncatedPhoto "A"), false, true, truncatedReplies⟩,
    ⟨"B", .deleted, false, true, truncatedReplies⟩]
  hydrationCancelled := false
  hydrated := some []
  hydrationRecorded := true
  hashOrder names := names
  hashOrder_perm _ := .rfl
  legacyMasterStateOwners _ := none
  legacy _ := ⟨false, some true, true, truncatedReplies⟩
  stillPending := some (fun _ => true)
  masterOf id := some (if id = "B" then master else "M")
  masterFamily _ := true

theorem exists_plan {master : String} (h : ((siblingInput master).build.1.toOption.map
    (fun plan => plan.tasks.map PublishedTask.target)) =
      some [⟨"PrimarySync", "A", .original⟩]) :
    ∃ plan, (siblingInput master).build.1 = .ok plan ∧
      plan.tasks.map PublishedTask.target = [⟨"PrimarySync", "A", .original⟩] := by
  cases hresult : (siblingInput master).build.1 with
  | error stop => simp [hresult, Except.toOption] at h
  | ok plan => exact ⟨plan, rfl, by simpa [hresult, Except.toOption] using h⟩

/-- The photos have different masters: the one is a task and the other deleted. -/
theorem siblings_partition :
    ∃ plan, (siblingInput "N").build.1 = .ok plan ∧
      plan.tasks.map PublishedTask.target = [⟨"PrimarySync", "A", .original⟩] ∧
      (siblingInput "N").isDeleted (siblingInput "N").build.2.deletions
        ⟨"PrimarySync", "B", .original⟩ = true ∧
      (siblingInput "N").Partitions plan (siblingInput "N").build.2 := by
  obtain ⟨plan, hresult, htask⟩ := @exists_plan "N" (by decide +kernel)
  have hdeleted : (siblingInput "N").isDeleted (siblingInput "N").build.2.deletions
      ⟨"PrimarySync", "B", .original⟩ = true := by decide +kernel
  have hapart : (siblingInput "N").DeletesApart := by decide +kernel
  exact ⟨plan, hresult, htask, hdeleted,
    (siblingInput "N").partitions_of_apart hapart (Prod.ext hresult rfl)⟩

/-- They are siblings: the first is planned as a task, and then the deletion of their master puts a
    tombstone on it. -/
theorem sibling_task_deleted :
    ∃ plan, (siblingInput "M").build.1 = .ok plan ∧
      ⟨"PrimarySync", "A", .original⟩ ∈ plan.tasks.map PublishedTask.target ∧
      (siblingInput "M").isDeleted (siblingInput "M").build.2.deletions
        ⟨"PrimarySync", "A", .original⟩ = true ∧
      ¬(siblingInput "M").Partitions plan (siblingInput "M").build.2 := by
  obtain ⟨plan, hresult, htask⟩ := @exists_plan "M" (by decide +kernel)
  have hdeleted : (siblingInput "M").isDeleted (siblingInput "M").build.2.deletions
      ⟨"PrimarySync", "A", .original⟩ = true := by decide +kernel
  have hmem : ⟨"PrimarySync", "A", .original⟩ ∈ plan.tasks.map PublishedTask.target := by
    simp [htask]
  refine ⟨plan, hresult, hmem, hdeleted, fun h => ?_⟩
  obtain ⟨task, htask, heq⟩ := List.mem_map.mp hmem
  have hlive := h.live task htask
  rw [heq, hdeleted] at hlive
  cases hlive

end Kei.Download
