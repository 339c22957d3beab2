import Kei.SyncCycle

/-!
# Kei.SyncCycle.Calls

What each store call, and each part of a cycle, can do to the rows and to the
history.

An assertion about a world is one about its rows and its history (`On`); the
call counter never matters.  Every part of the cycle has one lemma here that
says which assertions it keeps, in terms of the rows it writes, and the
proofs about cycles use these lemmas and never unfold a call.
-/

namespace Kei.SyncCycle

open Str
open Store
open Prog

/-- An assertion about the rows and the history. -/
def On (I : Rows → List Event → Prop) (w : World) : Prop := I w.rows w.log

variable {I J : Rows → List Event → Prop} {env : Env} {inp : CycleInput} {facts : CycleFacts}
  {lib : LibraryState} {position : Nat}

/-! ## calls -/

theorem tick_triple {E : World → Prop} : Triple (On I) tick (fun _ => On I) E := fun _ hw => hw

theorem record_triple {e : Event} (h : ∀ r l, I r l → J r (l ++ [e])) :
    Triple (On I) (record e) (fun _ => On J) (On J) := Triple.modify (fun w hw => h w.rows w.log hw)

theorem storeCall_keeps : Keeps (On I) (storeCall env) := by
  refine Keeps.bind tick_triple (fun n => ?_)
  cases env.fault n with
  | none => exact Keeps.pure true
  | fails => exact Keeps.pure false
  | stops => exact Keeps.halt _

variable {key : String}

theorem getMetadata_triple :
    Triple (On I) (getMetadata env key)
      (fun v => On (fun r l => I r l ∧ ∀ x, v = some x → x = r key)) (On I) := by
  refine Triple.bind storeCall_keeps (fun b => ?_)
  refine Triple.ite (fun _ => ?_) (fun _ => ?_)
  · intro w hw
    exact ⟨hw, fun x hx => (Option.some.inj hx).symm⟩
  · refine Triple.pure (fun w hw => ⟨hw, fun x hx => ?_⟩)
    contradiction

theorem getMetadata_keeps : Keeps (On I) (getMetadata env key) :=
  getMetadata_triple.weaken_post (fun _ _ h => h.1)

theorem getMetadataOrFail_triple :
    Triple (On I) (getMetadataOrFail env key)
      (fun v => On (fun r l => I r l ∧ v = r key)) (On I) := by
  refine Triple.bind getMetadata_triple (fun v => ?_)
  cases v with
  | some x => exact Triple.pure (fun w hw => ⟨hw.1, hw.2 x rfl⟩)
  | none => exact Triple.halt (fun w hw => hw.1)

theorem getMetadataOrFail_keeps : Keeps (On I) (getMetadataOrFail env key) :=
  getMetadataOrFail_triple.weaken_post (fun _ _ h => h.1)

theorem write_triple {f : Rows → Rows} (h : ∀ r l, I r l → J (f r) l) :
    Triple (On I) (write env f) (fun ok => if ok then On J else On I) (On I) := by
  refine Triple.bind storeCall_keeps (fun b => ?_)
  refine Triple.ite (fun _ => ?_) (fun _ => ?_)
  · refine Triple.bind (R := fun _ => On J) (Triple.modify (fun w hw => h w.rows w.log hw))
      (fun _ => ?_)
    exact Triple.pure (fun w hw => hw)
  · exact Triple.pure (fun w hw => hw)

theorem write_keeps {f : Rows → Rows} (h : ∀ r l, I r l → I (f r) l) :
    Keeps (On I) (write env f) := by
  refine (write_triple h).weaken_post (fun ok w hw => ?_)
  cases ok with
  | true => exact hw
  | false => exact hw

/-! ## rows a cycle may write freely -/

/-- `I` does not depend on the row `key`. -/
def Ignores (I : Rows → List Event → Prop) (key : String) : Prop :=
  ∀ r r' l, (∀ k, k ≠ key → r k = r' k) → I r l → I r' l

theorem Ignores.set {key value : String} (h : Ignores I key) (r : Rows) (l : List Event)
    (hr : I r l) : I (r.set key value) l :=
  h r _ l (fun _ hk => (set_of_ne r hk).symm) hr

theorem Ignores.delete (h : Ignores I key) (r : Rows) (l : List Event) (hr : I r l) :
    I (r.delete key) l :=
  h r _ l (fun _ hk => (delete_of_ne r hk).symm) hr

theorem setMetadata_keeps {key value : String} (h : Ignores I key) :
    Keeps (On I) (setMetadata env key value) := write_keeps (fun r l => h.set r l)

theorem updates_ignored {us : List (String × String)} (h : ∀ u ∈ us, Ignores I u.1) (r : Rows)
    (l : List Event) (hr : I r l) : I (us.foldl (fun r u => Rows.set r u.1 u.2) r) l := by
  induction us generalizing r with
  | nil => exact hr
  | cons u us ih =>
      rw [List.foldl_cons]
      exact ih (fun x hx => h x (List.mem_cons_of_mem u hx)) _
        ((h u List.mem_cons_self).set r l hr)

theorem deletes_ignored {ds : List String} (h : ∀ d ∈ ds, Ignores I d) (r : Rows)
    (l : List Event) (hr : I r l) : I (ds.foldl Rows.delete r) l := by
  induction ds generalizing r with
  | nil => exact hr
  | cons d ds ih =>
      rw [List.foldl_cons]
      exact ih (fun x hx => h x (List.mem_cons_of_mem d hx)) _
        ((h d List.mem_cons_self).delete r l hr)

theorem commit_keeps {t : CheckpointTransition} (hu : ∀ u ∈ t.metadataUpdates, Ignores I u.1)
    (hd : ∀ d ∈ t.metadataDeletes, Ignores I d) :
    Keeps (On I) (commitCheckpointTransition env t) :=
  write_keeps (fun r l hr => deletes_ignored hd _ l (updates_ignored hu r l hr))

/-- The rows of the cycle that say nothing about a checkpoint: its status, its
reasons, the path hashes and the inventory anchors. -/
def IsNoteKey (key : String) : Prop :=
  key = lastCheckpointStatusKey ∨ key = lastRecoveryActionKey ∨
    key = lastFullEnumerationReasonKey ∨ key = downloadConfigHashKey ∨
    key = pendingDownloadConfigHashKey ∨ ∃ hash zone, key = inventoryAnchorKey hash zone

/-- `I` is about checkpoints only: no note matters to it. -/
def IgnoresNotes (I : Rows → List Event → Prop) : Prop := ∀ key, IsNoteKey key → Ignores I key

namespace IgnoresNotes

theorem status (h : IgnoresNotes I) : Ignores I lastCheckpointStatusKey := h _ (.inl rfl)

theorem recovery (h : IgnoresNotes I) : Ignores I lastRecoveryActionKey := h _ (.inr (.inl rfl))

theorem reason (h : IgnoresNotes I) : Ignores I lastFullEnumerationReasonKey :=
  h _ (.inr (.inr (.inl rfl)))

theorem path (h : IgnoresNotes I) : Ignores I downloadConfigHashKey :=
  h _ (.inr (.inr (.inr (.inl rfl))))

theorem pendingPath (h : IgnoresNotes I) : Ignores I pendingDownloadConfigHashKey :=
  h _ (.inr (.inr (.inr (.inr (.inl rfl)))))

theorem anchor (h : IgnoresNotes I) (hash zone : String) :
    Ignores I (inventoryAnchorKey hash zone) :=
  h _ (.inr (.inr (.inr (.inr (.inr ⟨hash, zone, rfl⟩)))))

end IgnoresNotes

/-! ## the parts of a cycle that write notes only -/

theorem deletePendingPath_keeps
    (h : ∀ r l, I r l → I (r.deleteByPrefix pendingDownloadConfigHashKey) l) :
    Keeps (On I) (deleteMetadataByPrefix env pendingDownloadConfigHashKey) :=
  write_keeps h

theorem checkDownloadConfigHashForCycle_keeps {current legacy : String} (hI : IgnoresNotes I)
    (hdel : ∀ r l, I r l → I (r.deleteByPrefix pendingDownloadConfigHashKey) l) :
    Keeps (On I) (checkDownloadConfigHashForCycle env current legacy) := by
  refine Keeps.bind getMetadata_keeps (fun stored => ?_)
  cases stored with
  | none => exact Keeps.pure _
  | some stored =>
      cases stored with
      | none =>
          refine Keeps.bind (setMetadata_keeps hI.path) (fun ok => ?_)
          exact Keeps.ite (fun _ => Keeps.pure _) (fun _ => Keeps.pure _)
      | some stored =>
          refine Keeps.ite (fun _ => ?_) (fun _ => Keeps.ite (fun _ => ?_) (fun _ => ?_))
          · exact Keeps.bind (deletePendingPath_keeps hdel) (fun _ => Keeps.pure _)
          · refine Keeps.bind (commit_keeps ?_ ?_) (fun ok => ?_)
            · intro u hu
              rw [List.mem_singleton.mp hu]
              exact hI.path
            · intro d hd
              rw [List.mem_singleton.mp hd]
              exact hI.pendingPath
            · exact Keeps.ite (fun _ => Keeps.pure _) (fun _ => Keeps.pure _)
          · refine Keeps.bind (setMetadata_keeps hI.pendingPath) (fun ok => ?_)
            refine Keeps.ite (fun _ => ?_) (fun _ => Keeps.pure _)
            exact Keeps.bind (setMetadata_keeps hI.recovery) (fun _ => Keeps.pure _)

theorem checkDownloadConfigHash_keeps (hI : IgnoresNotes I)
    (hdel : ∀ r l, I r l → I (r.deleteByPrefix pendingDownloadConfigHashKey) l) :
    Keeps (On I) (checkDownloadConfigHash inp env) := by
  refine Keeps.ite (fun _ => ?_) (fun _ => Keeps.pure _)
  exact Keeps.bind (checkDownloadConfigHashForCycle_keeps hI hdel) (fun _ => Keeps.pure _)

/-- The last step of `stageReconciliation`. -/
abbrev stagePending (env : Env) (hash : String) : Cycle EnumConfigHashOutcome := do
  if ← setMetadata env pendingEnumConfigHashKey hash then
    return .changed
  else
    return .changedTokenPurgeFailed

theorem checkEnumConfigHash_keeps (hactive : Ignores I enumConfigHashKey)
    (hpending : Ignores I pendingEnumConfigHashKey) (haction : Ignores I lastRecoveryActionKey)
    (hstaged : ∀ r l, I r l → I (r.deleteByPrefix pendingEnumConfigHashKey) l)
    (htokens : ∀ r l, I r l → I (r.deleteByPrefix pendingZoneTokenPrefix) l) :
    Keeps (On I) (checkEnumConfigHash inp env) := by
  have hstage : Keeps (On I) (stagePending env inp.config.enumConfigHash) :=
    Keeps.bind (setMetadata_keeps hpending)
      (fun _ => Keeps.ite (fun _ => Keeps.pure _) (fun _ => Keeps.pure _))
  have hpurge : Keeps (On I) (deleteMetadataByPrefix env pendingZoneTokenPrefix) :=
    write_keeps htokens
  refine Keeps.ite (fun _ => ?_) (fun _ => Keeps.pure _)
  refine Keeps.bind (Keeps.bind getMetadata_keeps (fun stored => ?_)) (fun outcome => ?_)
  · rcases stored with _ | _ | stored
    · exact Keeps.pure _
    · exact Keeps.bind (setMetadata_keeps hactive) (fun _ => Keeps.pure _)
    · refine Keeps.ite (fun _ => ?_) (fun _ => Keeps.bind getMetadata_keeps (fun v => ?_))
      · exact Keeps.bind (write_keeps hstaged)
          (fun _ => Keeps.bind hpurge (fun _ => Keeps.pure _))
      · cases v with
        | none => exact Keeps.pure _
        | some pending =>
            refine Keeps.ite (fun _ => ?_) (fun _ => hstage)
            exact Keeps.bind hpurge (fun _ => Keeps.ite (fun _ => Keeps.pure _) (fun _ => hstage))
  · exact Keeps.ite (fun _ => Keeps.bind (setMetadata_keeps haction) (fun _ => Keeps.pure _))
      (fun _ => Keeps.pure _)

theorem readPendingZoneToken_keeps : Keeps (On I) (readPendingZoneToken inp env facts lib) := by
  refine Keeps.ite (fun _ => Keeps.ite (fun _ => ?_) (fun _ => Keeps.pure _))
    (fun _ => Keeps.pure _)
  exact Keeps.bind getMetadataOrFail_keeps (fun _ => Keeps.pure _)

theorem determineSyncModeDecision_keeps :
    Keeps (On I) (determineSyncModeDecision inp env lib) := by
  refine Keeps.ite (fun _ => ?_) (fun _ => Keeps.pure _)
  refine Keeps.bind getMetadata_keeps (fun v => ?_)
  cases v with
  | none => exact Keeps.pure _
  | some v =>
      cases v with
      | none => exact Keeps.pure _
      | some token => exact Keeps.ite (fun _ => Keeps.pure _) (fun _ => Keeps.pure _)

theorem chooseSyncMode_keeps {pending : Option String} :
    Keeps (On I) (chooseSyncMode inp env facts lib pending) := by
  refine Keeps.ite (fun _ => Keeps.pure _) (fun _ => ?_)
  cases pending with
  | some token => exact Keeps.pure _
  | none =>
      refine Keeps.ite (fun _ => Keeps.pure _) (fun _ => Keeps.ite (fun _ => Keeps.pure _)
        (fun _ => determineSyncModeDecision_keeps))

theorem persistFullEnumerationReason_keeps {reason : Option FullEnumerationReason}
    (hI : Ignores I lastFullEnumerationReasonKey) :
    Keeps (On I) (persistFullEnumerationReason inp env reason) := by
  cases reason with
  | none => exact Keeps.pure _
  | some reason =>
      refine Keeps.ite (fun _ => ?_) (fun _ => Keeps.pure _)
      exact Keeps.bind (setMetadata_keeps hI) (fun _ => Keeps.pure _)

theorem readPriorToken_keeps : Keeps (On I) (readPriorToken inp env lib) :=
  Keeps.ite (fun _ => getMetadataOrFail_keeps) (fun _ => Keeps.pure _)

variable {st : LoopState}

theorem reconcilePaths_triple :
    Triple (On I) (reconcilePaths env facts lib st)
      (fun st' => On (fun r l => I r l ∧
        st'.dbSyncTokenAdvanceSafe = st.dbSyncTokenAdvanceSafe)) (On I) := by
  refine Triple.ite (fun _ => ?_) (fun _ => Triple.pure (fun w hw => ⟨hw, rfl⟩))
  refine Triple.bind tick_triple (fun n => ?_)
  cases env.reconcileCatalogPaths n lib.zoneName with
  | none => exact Triple.halt (fun _ hw => hw)
  | some result => exact Triple.pure (fun w hw => ⟨hw, rfl⟩)

variable {result : SyncResult}

theorem download_full {n : Nat} {zone : String} (h : env.download n zone .full = some result) :
    result.fullEnumerationRan = true := by
  obtain ⟨run, -, rfl⟩ := Option.map_eq_some_iff.mp h
  rfl

/-- A download run: its event joins the history, and a full run says it was one. -/
theorem downloadPhotosWithSync_triple {mode : SyncMode} {source : TokenSource}
    {J : SyncResult → Rows → List Event → Prop} {E : Rows → List Event → Prop}
    (hok : ∀ result, (mode = .full → result.fullEnumerationRan = true) → ∀ r l, I r l →
      J result r
      (l ++ [.download position lib.zoneName inp.config.enumConfigHash source lib.planIsStale
        (some result)]))
    (hfail : ∀ r l, I r l →
      E r (l ++ [.download position lib.zoneName inp.config.enumConfigHash source
        lib.planIsStale none])) :
    Triple (On I) (downloadPhotosWithSync inp env position lib mode source)
      (fun result => On (J result)) (On E) := by
  refine Triple.bind tick_triple (fun n => ?_)
  cases hres : env.download n lib.zoneName mode with
  | none =>
      refine Triple.bind (R := fun _ => On E) (Triple.modify (fun w hw => hfail w.rows w.log hw))
        (fun _ => Triple.halt (fun _ hw => hw))
  | some result =>
      refine Triple.bind (R := fun _ => On (J result)) (Triple.modify (fun w hw => ?_))
        (fun _ => Triple.pure (fun _ hw => hw))
      exact hok result (fun hfull => download_full (hfull ▸ hres)) w.rows w.log hw

variable {cancelled : Bool}

theorem updateInventoryAnchorForCycle_keeps
    (hI : ∀ hash zone, Ignores I (inventoryAnchorKey hash zone)) :
    Keeps (On I) (updateInventoryAnchorForCycle inp env lib result cancelled) := by
  refine Keeps.ite (fun _ => ?_) (fun _ => Keeps.pure _)
  refine Keeps.bind getMetadata_keeps (fun _ => Keeps.bind tick_triple (fun n => ?_))
  cases env.anchorText n with
  | none => exact Keeps.pure _
  | some text => exact Keeps.bind (setMetadata_keeps (hI _ _)) (fun _ => Keeps.pure _)

theorem storePreserve_keeps {recovery : RecoveryAction}
    (hstatus : Ignores I lastCheckpointStatusKey) (haction : Ignores I lastRecoveryActionKey) :
    Triple (On I) (storePreserve inp env recovery st)
      (fun st' => On (fun r l => I r l ∧ st'.dbSyncTokenAdvanceSafe = false)) (On I) := by
  refine Triple.ite (fun _ => ?_) (fun _ => Triple.pure (fun w hw => ⟨hw, rfl⟩))
  refine Triple.bind (commit_keeps ?_ ?_) (fun _ => Triple.pure (fun w hw => ⟨hw, rfl⟩))
  · intro u hu
    simp only [List.mem_cons, List.not_mem_nil, or_false] at hu
    rcases hu with rfl | rfl
    · exact hstatus
    · exact haction
  · intro d hd
    contradiction

theorem mem_statusRows {hold : Option String} {u : String × String}
    (h : u ∈ checkpointStatusRows hold) :
    u.1 = lastCheckpointStatusKey ∨ u.1 = lastRecoveryActionKey := by
  cases hold <;> simp [checkpointStatusRows] at h <;> rcases h with rfl | rfl <;> simp

/-- A checkpoint is stored in one of two rows, with its status. -/
theorem storeCheckpoint_keeps {decision : SourceCheckpointDecision}
    (hstatus : Ignores I lastCheckpointStatusKey) (haction : Ignores I lastRecoveryActionKey)
    (htoken : Ignores I lib.syncTokenKey)
    (hcandidate : Ignores I (pendingZoneTokenKey inp.config.enumConfigHash lib.zoneName))
    (hlog : ∀ r l key token, I r l →
      I r (l ++ [.stored position lib.zoneName inp.config.enumConfigHash key token])) :
    Keeps (On I) (storeCheckpoint inp env facts position lib decision st) := by
  cases decision with
  | preserve reason recovery =>
      exact (storePreserve_keeps hstatus haction).weaken_post (fun _ _ h => h.1)
  | advance token basis =>
      have hstored {key : String} {x : Cycle Bool} (hx : Keeps (On I) x) : Keeps (On I) (do
          if ← x then
            record (.stored position lib.zoneName inp.config.enumConfigHash key token)
            return st
          else
            return st.storeFailed) :=
        Keeps.bind hx (fun _ => Keeps.ite (fun _ => Keeps.bind
          (record_triple (fun r l => hlog r l key token)) (fun _ => Keeps.pure _))
          (fun _ => Keeps.pure _))
      refine Keeps.ite (fun _ => Keeps.ite (fun _ => ?_) (fun _ => ?_)) (fun _ => Keeps.pure _)
      · exact hstored (setMetadata_keeps hcandidate)
      · refine hstored (commit_keeps (fun u hu => ?_) (fun _ hd => absurd hd List.not_mem_nil))
        rcases List.mem_cons.mp hu with rfl | hu
        · exact htoken
        · rcases mem_statusRows hu with h | h
          · rwa [h]
          · rwa [h]

theorem promotePathReconciliation_keeps (hpath : Ignores I downloadConfigHashKey)
    (hpending : Ignores I pendingDownloadConfigHashKey) :
    Keeps (On I) (promotePathReconciliation inp env facts st cancelled) := by
  unfold promotePathReconciliation
  cases facts.pendingDownloadConfigHash with
  | none => exact Keeps.pure _
  | some hash =>
      refine Keeps.ite (fun _ => ?_) (fun _ => Keeps.pure _)
      refine Keeps.bind (commit_keeps ?_ ?_) (fun _ => Keeps.pure _)
      · intro u hu
        rw [List.mem_singleton.mp hu]
        exact hpath
      · intro d hd
        rw [List.mem_singleton.mp hd]
        exact hpending

/-! ## decisions -/

/-- What a result must be to move the checkpoint. -/
structure MayAdvance (result : SyncResult) (stale : Bool) : Prop where
  fresh : stale = false
  session : isSessionExpired result.outcome = false
  uninterrupted : result.stats.interrupted = false
  noErrors : result.stats.enumerationErrors = 0
  complete : result.stats.enumerationIncomplete = false
  durable : result.stats.stateWriteFailures = 0
  token : (nonBlank result.syncToken).isSome = true
  proven : result.stats.syncTokenBlocked = false

variable {basis : CheckpointBasis}

/-- **A decision advances** for a result that may, outside a dry run. -/
theorem sourceCheckpointDecision_isAdvance {dryRun stale : Bool} :
    (sourceCheckpointDecision result dryRun stale basis).isAdvance = true ↔
      dryRun = false ∧ MayAdvance result stale := by
  have hparts : MayAdvance result stale ↔ stale = false ∧
      isSessionExpired result.outcome = false ∧ result.stats.interrupted = false ∧
        (result.stats.enumerationErrors = 0 ∧ result.stats.enumerationIncomplete = false) ∧
          result.stats.stateWriteFailures = 0 ∧ (nonBlank result.syncToken).isSome = true ∧
            result.stats.syncTokenBlocked = false :=
    ⟨fun h => ⟨h.fresh, h.session, h.uninterrupted, ⟨h.noErrors, h.complete⟩, h.durable, h.token,
      h.proven⟩, fun ⟨h₁, h₂, h₃, ⟨h₄, h₅⟩, h₆, h₇, h₈⟩ => ⟨h₁, h₂, h₃, h₄, h₅, h₆, h₇, h₈⟩⟩
  have hite (c : Prop) [Decidable c] (reason : CheckpointHoldReason) (recovery : RecoveryAction)
      (rest : SourceCheckpointDecision) :
      (if c then .preserve reason recovery else rest : SourceCheckpointDecision).isAdvance = true ↔
        ¬c ∧ rest.isAdvance = true := by
    by_cases hc : c <;> simp [hc, SourceCheckpointDecision.isAdvance]
  unfold sourceCheckpointDecision
  rw [hparts]
  simp only [hite]
  cases nonBlank result.syncToken with
  | none => simp [SourceCheckpointDecision.isAdvance]
  | some token =>
      cases result.stats.syncTokenBlocked <;> simp [SourceCheckpointDecision.isAdvance]

/-- A cycle's decision advances for a result that may, in a cycle that trusts its state. -/
theorem checkpointDecision_isAdvance
    (h : (checkpointDecision inp facts lib result basis cancelled).isAdvance = true) :
    cancelled = false ∧ inp.config.dryRun = false ∧ MayAdvance result lib.planIsStale := by
  unfold checkpointDecision at h
  split at h
  · next hgo =>
      rw [Bool.and_eq_true, Bool.not_eq_true'] at hgo
      exact ⟨hgo.2, sourceCheckpointDecision_isAdvance.mp h⟩
  · split at h <;> contradiction

/-! ## the loop -/

/-- The library's runs may join the history. -/
def KeepsRuns (I : Rows → List Event → Prop) (inp : CycleInput) (position : Nat)
    (lib : LibraryState) : Prop :=
  ∀ r l source result, I r l → I r (l ++ [.download position lib.zoneName
    inp.config.enumConfigHash source lib.planIsStale result])

theorem downloadPhotosWithSync_keeps {mode : SyncMode} {source : TokenSource}
    (hlog : KeepsRuns I inp position lib) :
    Keeps (On I) (downloadPhotosWithSync inp env position lib mode source) :=
  downloadPhotosWithSync_triple (J := fun _ => I) (fun _ _ r l h => hlog r l _ _ h)
    (fun r l h => hlog r l _ _ h)

theorem bridgeInventory_keeps (hlog : KeepsRuns I inp position lib) :
    Keeps (On I) (bridgeInventory inp env facts position lib result) := by
  refine Keeps.ite (fun _ => ?_) (fun _ => Keeps.pure _)
  refine Keeps.bind readPriorToken_keeps (fun prior => ?_)
  cases nonBlank prior with
  | none => exact Keeps.pure _
  | some token =>
      refine Keeps.ite (fun _ => ?_) (fun _ => Keeps.pure _)
      exact Keeps.bind (downloadPhotosWithSync_keeps hlog) (fun _ => Keeps.pure _)

theorem finishLibrary_keeps {reason : Option FullEnumerationReason}
    (hstore : Keeps (On I) (storeCheckpoint inp env facts position lib
      (checkpointDecision inp facts lib result basis cancelled) st)) :
    Keeps (On I)
      (finishLibrary inp env facts position lib reason result basis cancelled st) := by
  refine Keeps.bind hstore (fun st => ?_)
  cases result.outcome with
  | success | sessionExpired | partialFailure => exact Keeps.pure _

/-- One library keeps an assertion that ignores notes and the library's runs, when acting
on a checkpoint decision keeps it. -/
theorem runLibrary_keeps (hI : IgnoresNotes I) (hlog : KeepsRuns I inp position lib)
    (hstore : ∀ result basis cancelled st,
      Keeps (On I) (storeCheckpoint inp env facts position lib
        (checkpointDecision inp facts lib result basis cancelled) st)) :
    Keeps (On I) (runLibrary inp env facts position lib st) := by
  refine Keeps.bind readPendingZoneToken_keeps (fun pending => ?_)
  refine Keeps.bind chooseSyncMode_keeps (fun decision => ?_)
  refine Keeps.bind (persistFullEnumerationReason_keeps hI.reason) (fun _ => ?_)
  refine Keeps.bind (reconcilePaths_triple.weaken_post (fun _ _ h => h.1)) (fun st => ?_)
  refine Keeps.bind (downloadPhotosWithSync_keeps hlog) (fun inventory => ?_)
  refine Keeps.bind (bridgeInventory_keeps hlog) (fun p => ?_)
  obtain ⟨result, basis⟩ := p
  exact Keeps.bind (updateInventoryAnchorForCycle_keeps hI.anchor)
    (fun _ => finishLibrary_keeps (hstore _ _ _ _))

/-- The loop keeps what each of its libraries keeps. -/
theorem runLibraries_each {E : World → Prop} {libs : List LibraryState}
    (h : ∀ i, ∀ lib ∈ libs, ∀ st,
      Triple (On I) (runLibrary inp env facts i lib st) (fun _ => On I) E) :
    ∀ i st, Triple (On I) (runLibraries inp env facts i libs st) (fun _ => On I) E := by
  induction libs with
  | nil => exact fun _ _ => Triple.pure (fun _ hw => hw)
  | cons lib rest ih =>
      refine fun i st => Triple.ite (fun _ => Triple.pure (fun _ hw => hw)) (fun _ => ?_)
      refine Triple.bind (h i lib List.mem_cons_self st) (fun p => ?_)
      obtain ⟨st, stop⟩ := p
      exact Triple.ite (fun _ => Triple.pure (fun _ hw => hw))
        (fun _ => ih (fun i lib hlib => h i lib (List.mem_cons_of_mem _ hlib)) (i + 1) st)

/-- The loop keeps an assertion that ignores notes and new events, when acting on a
checkpoint decision keeps it. -/
theorem runLibraries_keeps (hI : IgnoresNotes I) (hlog : ∀ r l e, I r l → I r (l ++ [e]))
    (hstore : ∀ position lib result basis cancelled st,
      Keeps (On I) (storeCheckpoint inp env facts position lib
        (checkpointDecision inp facts lib result basis cancelled) st))
    (libs : List LibraryState) (i : Nat) (st : LoopState) :
    Keeps (On I) (runLibraries inp env facts i libs st) :=
  runLibraries_each (fun i lib _ _ =>
    runLibrary_keeps hI (fun r l _ _ => hlog r l _) (hstore i lib)) i st

/-! ## candidates -/

theorem nonBlank_eq_some {token : Option String} {t : String} (h : nonBlank token = some t) :
    token = some t ∧ nonBlank (some t) = some t := by
  unfold nonBlank at h ⊢
  obtain ⟨ht, hb⟩ := Option.filter_eq_some_iff.mp h
  exact ⟨ht, Option.filter_eq_some_iff.mpr ⟨rfl, hb⟩⟩

theorem readCandidates_triple (libs : List LibraryState) :
    Triple (On I) (readCandidates inp env libs)
      (fun v => On (fun r l => I r l ∧ ∀ candidates, v = some candidates →
        candidates.map (·.1) = libs ∧ ∀ c ∈ candidates, nonBlank (some c.2) = some c.2 ∧
          r (pendingZoneTokenKey inp.config.enumConfigHash c.1.zoneName) = some c.2))
      (On I) := by
  induction libs generalizing I with
  | nil =>
      refine Triple.pure (fun w hw => ⟨hw, fun candidates hc => ?_⟩)
      cases hc
      exact ⟨rfl, fun c hmem => absurd hmem List.not_mem_nil⟩
  | cons lib rest ih =>
      refine Triple.bind getMetadataOrFail_triple (fun stored => ?_)
      cases hb : nonBlank stored with
      | none =>
          refine Triple.pure (fun w hw => ⟨hw.1, fun candidates hc => ?_⟩)
          contradiction
      | some token =>
          obtain ⟨hstored, htoken⟩ := nonBlank_eq_some hb
          refine Triple.bind (ih.weaken_halt (fun w hw => hw.1)) (fun v => ?_)
          cases v with
          | none =>
              refine Triple.pure (fun w hw => ⟨hw.1.1, fun candidates hc => ?_⟩)
              contradiction
          | some candidates =>
              refine Triple.pure (fun w hw => ⟨hw.1.1, fun all hall => ?_⟩)
              cases hall
              obtain ⟨⟨-, hrow⟩, hrest⟩ := hw
              obtain ⟨hlibs, hcand⟩ := hrest candidates rfl
              refine ⟨by rw [List.map_cons, hlibs], fun c hc => ?_⟩
              rcases List.mem_cons.mp hc with rfl | hc
              · exact ⟨htoken, by rw [← hrow, hstored]⟩
              · exact hcand c hc

/-- **A promotion** changes nothing, or it is one transition and its event. -/
theorem promoteReconciliation_rule {J : Bool → Rows → List Event → Prop}
    (hstays : ∀ r l, I r l → J false r l)
    (hcommit : ∀ r l cs, I r l → cs.map (·.1) = inp.active →
      (∀ c ∈ cs, nonBlank (some c.2) = some c.2 ∧
        r (pendingZoneTokenKey inp.config.enumConfigHash c.1.zoneName) = some c.2) →
      J true (r.transition (promotionTransition inp.config.enumConfigHash cs))
        (l ++ [.promoted inp.config.enumConfigHash (promotedKeys inp.config.enumConfigHash cs)])) :
    Triple (On I) (promoteReconciliation inp env) (fun ok => On (J ok)) (On I) := by
  refine Triple.bind (readCandidates_triple inp.active) (fun v => ?_)
  cases v with
  | none => exact Triple.pure (fun w hw => hstays w.rows w.log hw.1)
  | some cs =>
      refine Triple.bind ((write_triple (J := fun r l => J true r (l ++ [.promoted
        inp.config.enumConfigHash (promotedKeys inp.config.enumConfigHash cs)]))
        (fun r l hr => ?_)).weaken_halt (fun _ hw => hw.1)) (fun ok => ?_)
      · obtain ⟨hlibs, hcs⟩ := hr.2 cs rfl
        exact hcommit r l cs hr.1 hlibs hcs
      · cases ok with
        | false => exact Triple.pure (fun w hw => hstays w.rows w.log hw.1)
        | true =>
            exact Triple.bind (R := fun _ => On (J true)) (Triple.modify (fun _ hw => hw))
              (fun _ => Triple.pure (fun _ hw => hw))

theorem finishReconciliation_keeps
    (hrows : ∀ r l cs, I r l → cs.map (·.1) = inp.active →
      (∀ c ∈ cs, r (pendingZoneTokenKey inp.config.enumConfigHash c.1.zoneName) = some c.2) →
      I (r.transition (promotionTransition inp.config.enumConfigHash cs)) l)
    (hlog : ∀ r l hash keys, I r l → I r (l ++ [.promoted hash keys])) :
    Keeps (On I) (finishReconciliation inp env facts st cancelled) := by
  refine Keeps.ite (fun _ => promoteReconciliation_rule (J := fun _ => I) (fun _ _ h => h)
    (fun r l cs h hlibs hcs => hlog _ l _ _ ?_)) (fun _ => Keeps.pure _)
  exact hrows r l cs h hlibs (fun c hc => (hcs c hc).2)

/-! ## the history -/

/-- **A cycle only adds to the history**, however it ends. -/
theorem runCycle_grows (inp : CycleInput) (env : Env) {l₀ : List Event} :
    Keeps (On (fun _ l => l₀ <+: l)) (runCycle inp env) := by
  have hkey (key : String) : Ignores (fun _ l => l₀ <+: l) key := fun _ _ _ _ h => h
  have hlog (r : Rows) (l : List Event) (e : Event) (h : l₀ <+: l) : l₀ <+: l ++ [e] :=
    h.trans (List.prefix_append l [e])
  have hnotes : IgnoresNotes (fun _ l => l₀ <+: l) := fun _ _ _ _ _ _ h => h
  refine Keeps.bind (checkEnumConfigHash_keeps (hkey _) (hkey _) (hkey _) (fun _ _ h => h)
    (fun _ _ h => h)) (fun enumOutcome => ?_)
  refine Keeps.bind (checkDownloadConfigHash_keeps hnotes (fun _ _ h => h))
    (fun downloadOutcome => ?_)
  refine Keeps.bind (runLibraries_keeps hnotes hlog (fun _ _ _ _ _ _ => storeCheckpoint_keeps
    (hkey _) (hkey _) (hkey _) (hkey _) (fun r l _ _ => hlog r l _)) inp.active 0 _)
    (fun st => ?_)
  refine Keeps.bind (finishReconciliation_keeps (fun _ _ _ h _ _ => h)
    (fun r l _ _ h => hlog r l _ h)) (fun safe => ?_)
  exact Keeps.bind (promotePathReconciliation_keeps hnotes.path hnotes.pendingPath)
    (fun _ => Keeps.pure _)

/-! ## an environment without faults -/

/-- A run that delivers a token and reports nothing else. -/
def cleanRun (fullEnumerationRan : Bool) : SyncResult :=
  ⟨.success, some "t", {}, fullEnumerationRan⟩

/-- Every call succeeds and every run is clean. -/
def Env.clean : Env where
  fault _ := .none
  fullRun _ _ := some ⟨.success, some "t", {}⟩
  incrementalRun _ _ _ := some (cleanRun false)
  reconcileCatalogPaths _ _ := some ⟨true, {}⟩
  anchorText _ := none

end Kei.SyncCycle
