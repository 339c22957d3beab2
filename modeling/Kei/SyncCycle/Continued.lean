import Kei.SyncCycle.Lineage

/-!
# Kei.SyncCycle.Continued

Every run of a cycle keeps the ledger's invariant: a run only continues from an
active token of its own config, and what it stores has the lineage the next
cycle needs.  The last part puts the cycles of a run together.
-/

namespace Kei.SyncCycle

open Str
open Store
open Prog

variable {env : Env} {inp : CycleInput} {facts : CycleFacts} {lib : LibraryState}
  {position : Nat} {outcome : EnumConfigHashOutcome} {zone : String}

/-! ## events -/

variable {l : List Event}

theorem SafeUses.append_stored {p : Nat} {z hash key token : String} (h : SafeUses zone l) :
    SafeUses zone (l ++ [.stored p z hash key token]) :=
  h.append (fun _ _ _ _ _ he => by contradiction)

theorem SafeUses.append_promoted {hash : String} {keys : List (String × String)}
    (h : SafeUses zone l) : SafeUses zone (l ++ [.promoted hash keys]) :=
  h.append (fun _ _ _ _ _ he => by contradiction)

variable {stale : Bool}

theorem held_append_download {p : Nat} {z hash : String} {source : TokenSource}
    {result : Option SyncResult} (l : List Event) :
    (ledger (l ++ [.download p z hash source stale result])).held = (ledger l).held := by
  rw [ledger_append]
  rfl

theorem held_append_stored {p : Nat} {z hash key token : String} (l : List Event) :
    (ledger (l ++ [.stored p z hash key token])).held =
      Function.update (ledger l).held key (ledger l).running := by
  rw [ledger_append]
  rfl

theorem held_append_promoted {hash : String} {keys : List (String × String)} (l : List Event) :
    (ledger (l ++ [.promoted hash keys])).held = keys.foldl
      (fun held k => Function.update held k.2 ((ledger l).held k.1)) (ledger l).held := by
  rw [ledger_append]
  rfl

variable {result : SyncResult}

theorem running_append_download {p : Nat} {z hash : String} {source : TokenSource}
    (l : List Event) :
    (ledger (l ++ [.download p z hash source stale (some result)])).running =
      (ledger l).run z hash stale result source := by
  rw [ledger_append]
  rfl

theorem Sound.download {r : Rows} {l : List Event} {p : Nat} {z hash : String}
    {source : TokenSource} {stale : Bool} {result : Option SyncResult} (h : Sound zone r l)
    (huse : z = zone → SafeUse p z hash stale l source) :
    Sound zone r (l ++ [.download p z hash source stale result]) := by
  refine ⟨h.uses.append (fun _ _ _ _ _ he => ?_), ?_, ?_⟩
  · cases he
    exact huse rfl
  · rw [held_append_download]
    exact h.active
  · rw [held_append_download]
    exact h.candidate

theorem InCycle.download {r : Rows} {l : List Event} {p : Nat} {z hash : String}
    {source : TokenSource} {stale : Bool} {result : Option SyncResult}
    (h : InCycle inp outcome zone r l) (huse : z = zone → SafeUse p z hash stale l source) :
    InCycle inp outcome zone r (l ++ [.download p z hash source stale result]) := by
  refine ⟨h.toSound.download huse, ?_, h.staged⟩
  rw [held_append_download]
  exact h.settled

/-! ## the mode of a run -/

/-- The candidate of the zone belongs to the cycle's hash. -/
def CandidateUnder (inp : CycleInput) (zone : String) (l : List Event) : Prop :=
  Under inp.config.enumConfigHash
    ((ledger l).held (pendingZoneTokenKey inp.config.enumConfigHash zone))

/-- What the mode choice knows of the token it picked. -/
def SourceOk (inp : CycleInput) (zone : String) (lib : LibraryState) (decision : SyncModeDecision)
    (l : List Event) : Prop :=
  match decision.source with
  | .full => decision.mode = .full
  | .active => lib.zoneName = zone →
      Under inp.config.enumConfigHash ((ledger l).held (syncTokenKey zone))
  | .candidate => lib.zoneName = zone → CandidateUnder inp zone l
  | .bridge => False

theorem readPendingZoneToken_lineage :
    Triple (On (InCycle inp facts.enumConfigHashOutcome zone))
      (readPendingZoneToken inp env facts lib)
      (fun v => On (fun r l => InCycle inp facts.enumConfigHashOutcome zone r l ∧
        (v ≠ none → lib.zoneName = zone → CandidateUnder inp zone l)))
      (On (CycleEnd zone)) := by
  have hnone : Triple (On (InCycle inp facts.enumConfigHashOutcome zone))
      (Pure.pure none : Cycle (Option String))
      (fun v => On (fun r l => InCycle inp facts.enumConfigHashOutcome zone r l ∧
        (v ≠ none → lib.zoneName = zone → CandidateUnder inp zone l)))
      (On (CycleEnd zone)) := Triple.pure (fun w hw => ⟨hw, fun hv => absurd rfl hv⟩)
  refine Triple.ite (fun hchanged => Triple.ite (fun _ => ?_) (fun _ => hnone)) (fun _ => hnone)
  refine Triple.bind (getMetadataOrFail_triple.weaken_halt (fun w hw => hw.cycleEnd))
    (fun stored => Triple.pure (fun w hw => ⟨hw.1, fun hv hz => ?_⟩))
  obtain ⟨token, htoken⟩ := Option.ne_none_iff_exists'.mp hv
  have hrow := hw.2
  rw [(nonBlank_eq_some htoken).1, hz] at hrow
  refine hw.1.candidate _ (hw.1.staged hchanged).1 ?_
  rw [← hrow]
  exact Option.some_ne_none token

theorem chooseSyncMode_lineage {pending : Option String} :
    Triple (On (fun r l => InCycle inp facts.enumConfigHashOutcome zone r l ∧
        (pending ≠ none → lib.zoneName = zone → CandidateUnder inp zone l)))
      (chooseSyncMode inp env facts lib pending)
      (fun decision => On (fun r l => InCycle inp facts.enumConfigHashOutcome zone r l ∧
        SourceOk inp zone lib decision l))
      (On (CycleEnd zone)) := by
  refine Triple.ite (fun _ => Triple.pure (fun w hw => ⟨hw.1, rfl⟩)) (fun _ => ?_)
  cases pending with
  | some token =>
      exact Triple.pure (fun w hw => ⟨hw.1, hw.2 (Option.some_ne_none token)⟩)
  | none =>
      refine Triple.ite (fun _ => Triple.pure (fun w hw => ⟨hw.1, rfl⟩)) (fun hrec => ?_)
      refine Triple.ite (fun _ => Triple.pure (fun w hw => ⟨hw.1, rfl⟩)) (fun _ => ?_)
      refine Triple.ite (fun hdb => ?_) (fun _ => Triple.pure (fun w hw => ⟨hw.1, rfl⟩))
      refine Triple.bind (getMetadata_triple.weaken_halt (fun w hw => hw.1.cycleEnd)) (fun v => ?_)
      rcases v with _ | _ | token
      · exact Triple.pure (fun w hw => ⟨hw.1.1, rfl⟩)
      · exact Triple.pure (fun w hw => ⟨hw.1.1, rfl⟩)
      · refine Triple.ite (fun _ => Triple.pure (fun w hw => ⟨hw.1.1, fun hz => ?_⟩))
          (fun _ => Triple.pure (fun w hw => ⟨hw.1.1, rfl⟩))
        have hforce : facts.enumConfigHashOutcome.mustForceFullSync = false :=
          Bool.eq_false_iff.mpr hrec
        have hrow : some token = w.rows (syncTokenKey lib.zoneName) := hw.2 _ rfl
        rw [hz] at hrow
        refine (hw.1.1.settled hforce hdb).2 ?_
        rw [← hrow]
        exact Option.some_ne_none token

/-! ## a library's runs -/

/-- If the result may move the checkpoint, its token belongs to the cycle's hash. -/
def RunOk (inp : CycleInput) (zone : String) (lib : LibraryState) (result : SyncResult)
    (l : List Event) : Prop :=
  lib.zoneName = zone →
    (sourceCheckpointDecision result false lib.planIsStale .completeInventory).isAdvance = true →
    Under inp.config.enumConfigHash (ledger l).running

/-- The last event is the library's first run. -/
def JustRan (inp : CycleInput) (position : Nat) (lib : LibraryState) (result : SyncResult)
    (l : List Event) : Prop :=
  ∃ earlier source, l = earlier ++ [.download position lib.zoneName inp.config.enumConfigHash source
    lib.planIsStale (some result)] ∧ source ≠ .bridge

theorem under_continued {hash : String} {o : Option Lineage} (h : Under hash o) :
    Under hash (o.map (fun l => ⟨hash, l.inventories⟩)) := by
  obtain ⟨l, rfl, -, hmem⟩ := h
  exact ⟨_, rfl, rfl, hmem⟩

/-- A full enumeration whose result may move the checkpoint is an inventory. -/
theorem under_inventory {hash : String} (hfull : result.fullEnumerationRan = true)
    (hadv : (sourceCheckpointDecision result false stale .completeInventory).isAdvance = true) :
    Under hash (inventoryLineage hash stale result) := by
  have hcomplete : completesInventory stale result = true := by
    unfold completesInventory
    rw [hfull, hadv]
    rfl
  unfold inventoryLineage
  rw [hcomplete]
  exact ⟨_, rfl, rfl, List.mem_singleton.mpr rfl⟩

/-- A run that starts from a token of the cycle's hash, whether or not it fell back to a
full enumeration. -/
theorem under_run {hash : String} {o : Option Lineage} (h : Under hash o)
    (hadv : (sourceCheckpointDecision result false stale .completeInventory).isAdvance = true) :
    Under hash (if result.fullEnumerationRan then inventoryLineage hash stale result
      else o.map (fun l => ⟨hash, l.inventories⟩)) := by
  by_cases hran : result.fullEnumerationRan = true
  · rw [if_pos hran]
    exact under_inventory hran hadv
  · rw [if_neg hran]
    exact under_continued h

theorem runOk_download {decision : SyncModeDecision} (hsource : SourceOk inp zone lib decision l)
    (hfull : decision.mode = .full → result.fullEnumerationRan = true) :
    RunOk inp zone lib result (l ++ [.download position lib.zoneName inp.config.enumConfigHash
      decision.source lib.planIsStale (some result)]) := by
  intro hz hadv
  rw [running_append_download]
  unfold SourceOk at hsource
  cases hs : decision.source with
  | full =>
      rw [hs] at hsource
      exact under_inventory (hfull hsource) hadv
  | bridge =>
      rw [hs] at hsource
      exact hsource.elim
  | active =>
      rw [hs] at hsource
      have hheld := hsource hz
      rw [← hz] at hheld
      exact under_run hheld hadv
  | candidate =>
      rw [hs] at hsource
      have hheld := hsource hz
      unfold CandidateUnder at hheld
      rw [← hz] at hheld
      exact under_run hheld hadv

theorem firstRun_lineage {decision : SyncModeDecision} :
    Triple (On (fun r l => InCycle inp outcome zone r l ∧ SourceOk inp zone lib decision l))
      (downloadPhotosWithSync inp env position lib decision.mode decision.source)
      (fun result => On (fun r l => InCycle inp outcome zone r l ∧
        RunOk inp zone lib result l ∧ JustRan inp position lib result l))
      (On (CycleEnd zone)) := by
  have hbridge {l : List Event} (h : SourceOk inp zone lib decision l) :
      decision.source ≠ .bridge := by
    intro hs
    unfold SourceOk at h
    rw [hs] at h
    exact h
  have hsafe {l : List Event} (h : SourceOk inp zone lib decision l) : lib.zoneName = zone →
      SafeUse position lib.zoneName inp.config.enumConfigHash lib.planIsStale l
        decision.source := by
    intro hz
    unfold SourceOk at h
    cases hs : decision.source with
    | full => trivial
    | candidate => trivial
    | active =>
        rw [hs] at h
        show Under _ _
        rw [hz]
        exact h hz
    | bridge =>
        rw [hs] at h
        exact h.elim
  refine downloadPhotosWithSync_triple (fun result hfull r l hr => ?_) (fun r l hr => ?_)
  · exact ⟨hr.1.download (hsafe hr.2), runOk_download hr.2 hfull, l, decision.source, rfl,
      hbridge hr.2⟩
  · exact (hr.1.download (hsafe hr.2)).cycleEnd

/-! ## the bridge -/

/-- Whether a result may move the checkpoint depends neither on the basis nor, outside
a dry run, on anything but the result and its plan. -/
theorem isAdvance_eq (result : SyncResult) (dryRun stale : Bool) (basis basis' : CheckpointBasis) :
    (sourceCheckpointDecision result dryRun stale basis).isAdvance =
      (!dryRun && (sourceCheckpointDecision result false stale basis').isAdvance) := by
  rw [Bool.eq_iff_iff]
  simp [sourceCheckpointDecision_isAdvance]

theorem isAdvance_of (dryRun : Bool) (basis : CheckpointBasis)
    (h : (sourceCheckpointDecision result dryRun stale basis).isAdvance = true) :
    (sourceCheckpointDecision result false stale .completeInventory).isAdvance = true := by
  rw [isAdvance_eq result dryRun stale basis .completeInventory] at h
  exact (Bool.and_eq_true _ _ ▸ h).2

theorem blockBridge_not_advance {explanation : String} :
    (sourceCheckpointDecision (blockBridge result explanation) false stale
      .completeInventory).isAdvance = false := by
  rw [Bool.eq_false_iff]
  intro hadvance
  have htoken := (sourceCheckpointDecision_isAdvance.mp hadvance).2.token
  simp [blockBridge, nonBlank] at htoken

theorem runOk_blockBridge {explanation : String} :
    RunOk inp zone lib (blockBridge result explanation) l := by
  intro _ hadv
  rw [blockBridge_not_advance] at hadv
  exact Bool.noConfusion hadv

/-- The replay's token continues a chain that has the inventory on it. -/
theorem runOk_mergeBridge {result bridge : SyncResult} (hrun : RunOk inp zone lib result l)
    (hadv : (sourceCheckpointDecision result false lib.planIsStale
      .completeInventory).isAdvance = true) :
    RunOk inp zone lib (mergeBridge inp lib result bridge).1
      (l ++ [.download position lib.zoneName inp.config.enumConfigHash .bridge lib.planIsStale
        (some bridge)]) := by
  unfold mergeBridge
  by_cases hran : bridge.fullEnumerationRan = true
  · simp only [hran, if_true]
    exact runOk_blockBridge
  · simp only [if_neg hran]
    split
    · intro hz _
      obtain ⟨lineage, hl, -, hmem⟩ := hrun hz hadv
      rw [running_append_download]
      unfold Ledger.run
      simp only [if_neg hran]
      rw [hl]
      exact ⟨_, rfl, rfl, List.mem_append_right _ hmem⟩
    · exact runOk_blockBridge

theorem bridgeInventory_lineage :
    Triple (On (fun r l => InCycle inp outcome zone r l ∧ RunOk inp zone lib result l ∧
        JustRan inp position lib result l))
      (bridgeInventory inp env facts position lib result)
      (fun p => On (fun r l => InCycle inp outcome zone r l ∧ RunOk inp zone lib p.1 l))
      (On (CycleEnd zone)) := by
  have hpure {b : CheckpointBasis} :
      Triple (On (fun r l => InCycle inp outcome zone r l ∧ RunOk inp zone lib result l ∧
        JustRan inp position lib result l)) (Pure.pure (result, b) : Cycle _)
        (fun p => On (fun r l => InCycle inp outcome zone r l ∧ RunOk inp zone lib p.1 l))
        (On (CycleEnd zone)) := Triple.pure (fun w hw => ⟨hw.1, hw.2.1⟩)
  refine Triple.ite (fun hgo => ?_) (fun _ => hpure)
  simp only [Bool.and_eq_true] at hgo
  refine Triple.bind (readPriorToken_keeps.weaken_halt (fun w hw => hw.1.cycleEnd))
    (fun prior => ?_)
  cases nonBlank prior with
  | none => exact hpure
  | some token =>
      refine Triple.ite (fun hadv => ?_) (fun _ => hpure)
      have hadv' := isAdvance_of _ _ hadv
      have hsafe {l : List Event} (hran : JustRan inp position lib result l) :
          SafeUse position lib.zoneName inp.config.enumConfigHash lib.planIsStale l .bridge := by
        obtain ⟨earlier, source, hl, hne⟩ := hran
        refine ⟨earlier, source, result, hl, hne, ?_⟩
        unfold completesInventory
        rw [hgo.1.2, hadv']
        rfl
      refine Triple.bind (downloadPhotosWithSync_triple
        (J := fun bridge r l => InCycle inp outcome zone r l ∧
          RunOk inp zone lib (mergeBridge inp lib result bridge).1 l)
        (E := CycleEnd zone) (fun bridge _ r l hr => ?_) (fun r l hr => ?_))
        (fun bridge => Triple.pure (fun w hw => hw))
      · exact ⟨hr.1.download (fun _ => hsafe hr.2.2), runOk_mergeBridge hr.2.1 hadv'⟩
      · exact (hr.1.download (fun _ => hsafe hr.2.2)).cycleEnd

/-! ## storing a checkpoint -/

variable {token : String}

theorem inCycle_candidate {r : Rows} (h : InCycle inp .changed zone r l)
    (hrun : lib.zoneName = zone → Under inp.config.enumConfigHash (ledger l).running) :
    InCycle inp .changed zone
      (r.set (pendingZoneTokenKey inp.config.enumConfigHash lib.zoneName) token)
      (l ++ [storedEvent inp position lib
        (pendingZoneTokenKey inp.config.enumConfigHash lib.zoneName) token]) := by
  have htoken := syncTokenKey_ne_pending zone inp.config.enumConfigHash lib.zoneName
  have hhash : enumConfigHashKey ≠ pendingZoneTokenKey inp.config.enumConfigHash lib.zoneName :=
    (pendingZoneTokenKey_ne_of_take (by decide)).symm
  have hpending : pendingEnumConfigHashKey ≠
      pendingZoneTokenKey inp.config.enumConfigHash lib.zoneName :=
    (pendingZoneTokenKey_ne_of_take (by decide)).symm
  obtain ⟨hstaged, hstored⟩ := h.staged rfl
  refine ⟨⟨h.uses.append_stored, ?_, ?_⟩, fun hf => Bool.noConfusion hf, fun _ => ?_⟩
  · rw [set_of_ne r hhash, set_of_ne r htoken, held_append_stored, Function.update_of_ne htoken]
    exact h.active
  · intro hash hp hne
    rw [set_of_ne r hpending, hstaged] at hp
    cases hp
    rw [held_append_stored]
    by_cases hz : lib.zoneName = zone
    · rw [hz, Function.update_self]
      exact hrun hz
    · have hkey : pendingZoneTokenKey inp.config.enumConfigHash zone ≠
          pendingZoneTokenKey inp.config.enumConfigHash lib.zoneName :=
        fun hk => hz (pendingZoneTokenKey_inj hk).symm
      rw [set_of_ne r hkey] at hne
      rw [Function.update_of_ne hkey]
      exact h.candidate _ hstaged hne
  · rw [set_of_ne r hpending, set_of_ne r hhash]
    exact ⟨hstaged, hstored⟩

theorem inCycle_active {r : Rows} {hold : Option String} (h : InCycle inp outcome zone r l)
    (hforce : outcome.mustForceFullSync = false) (hdb : inp.hasStateDb = true)
    (hrun : lib.zoneName = zone → Under inp.config.enumConfigHash (ledger l).running) :
    InCycle inp outcome zone (r.transition (advanceTransition lib token hold))
      (l ++ [storedEvent inp position lib lib.syncTokenKey token]) := by
  have hother {key : String} (hw : Watched zone key) (hne : lib.syncTokenKey ≠ key) :
      r.transition (advanceTransition lib token hold) key = r key :=
    advanceTransition_other r hne (fun k hk => watched_ne_note hw hk)
  have hhash := hother (.inl rfl) (syncTokenKey_ne_enumConfigHashKey lib.zoneName)
  have hpending := hother (.inr (.inl rfl))
    (ne_of_keyHead (keyHead_syncTokenKey lib.zoneName) (by decide : keyHead _ = some 'p')
      (by decide))
  have htoken : r.transition (advanceTransition lib token hold) (syncTokenKey zone) ≠ none →
      Under inp.config.enumConfigHash
        ((ledger (l ++ [storedEvent inp position lib lib.syncTokenKey token])).held
          (syncTokenKey zone)) := by
    intro hne
    rw [held_append_stored]
    by_cases hz : lib.zoneName = zone
    · have hkey : syncTokenKey zone = lib.syncTokenKey := congrArg syncTokenKey hz.symm
      rw [hkey, Function.update_self]
      exact hrun hz
    · have hkey : lib.syncTokenKey ≠ syncTokenKey zone := fun hk => hz (syncTokenKey_inj hk)
      rw [hother (.inr (.inr (.inl rfl))) hkey] at hne
      rw [Function.update_of_ne hkey.symm]
      exact (h.settled hforce hdb).2 hne
  refine ⟨⟨h.uses.append_stored, ?_, ?_⟩, fun _ _ => ⟨?_, htoken⟩, ?_⟩
  · intro hash hh hne
    rw [hhash] at hh
    rw [(h.settled hforce hdb).1 hash hh]
    exact htoken hne
  · intro hash hp hne
    have hkey : lib.syncTokenKey ≠ pendingZoneTokenKey hash zone :=
      syncTokenKey_ne_pending lib.zoneName hash zone
    rw [hpending] at hp
    rw [hother (.inr (.inr (.inr ⟨hash, rfl⟩))) hkey] at hne
    rw [held_append_stored, Function.update_of_ne hkey.symm]
    exact h.candidate hash hp hne
  · rw [hhash]
    exact (h.settled hforce hdb).1
  · rw [hhash, hpending]
    exact h.staged

/-- Outside an unsafe cycle, a reconciliation is one whose hash is staged. -/
def Trusted (facts : CycleFacts) : Prop :=
  facts.checkpointTransitionStateSafe = true → facts.reconciliationActive = true →
    facts.enumConfigHashOutcome = .changed

theorem trusted_cycleFacts (inp : CycleInput) (enumOutcome : EnumConfigHashOutcome)
    (downloadOutcome : Option DownloadConfigHashOutcome) :
    Trusted (cycleFacts inp enumOutcome downloadOutcome) := by
  intro hsafe hrec
  cases enumOutcome with
  | changed => rfl
  | initial => exact Bool.noConfusion hrec
  | unchanged => exact Bool.noConfusion hrec
  | changedTokenPurgeFailed => exact Bool.noConfusion hsafe
  | readFailed => exact Bool.noConfusion hsafe

variable {st : LoopState}

theorem storeAdvance_lineage (htrusted : Trusted facts)
    (hsafe : facts.checkpointTransitionStateSafe = true) :
    Triple (On (fun r l => InCycle inp facts.enumConfigHashOutcome zone r l ∧
        (lib.zoneName = zone → Under inp.config.enumConfigHash (ledger l).running)))
      (storeAdvance inp env facts position lib token st)
      (fun _ => On (InCycle inp facts.enumConfigHashOutcome zone)) (On (CycleEnd zone)) := by
  have hstore {f : Rows → Rows} {key : String}
      (h : ∀ r l, (InCycle inp facts.enumConfigHashOutcome zone r l ∧
          (lib.zoneName = zone → Under inp.config.enumConfigHash (ledger l).running)) →
        InCycle inp facts.enumConfigHashOutcome zone (f r)
          (l ++ [storedEvent inp position lib key token])) :
      Triple (On (fun r l => InCycle inp facts.enumConfigHashOutcome zone r l ∧
          (lib.zoneName = zone → Under inp.config.enumConfigHash (ledger l).running)))
        (do
          if ← write env f then
            record (storedEvent inp position lib key token)
            return st
          else
            return st.storeFailed)
        (fun _ => On (InCycle inp facts.enumConfigHashOutcome zone))
        (On (CycleEnd zone)) := by
    refine Triple.bind ((write_triple (J := fun r l =>
      InCycle inp facts.enumConfigHashOutcome zone r
        (l ++ [storedEvent inp position lib key token])) h).weaken_halt (fun w hw => hw.1.cycleEnd))
        (fun ok => ?_)
    cases ok with
    | false => exact Triple.pure (fun w hw => hw.1)
    | true =>
        exact Triple.bind (R := fun _ => On (InCycle inp facts.enumConfigHashOutcome zone))
          (Triple.modify (fun w hw => hw)) (fun _ => Triple.pure (fun w hw => hw))
  refine Triple.ite (fun hdb => ?_) (fun _ => Triple.pure (fun w hw => hw.1))
  refine Triple.ite (fun hrec => ?_) (fun hrec => ?_)
  · have hchanged := htrusted hsafe hrec
    refine hstore (fun r l hr => ?_)
    rw [hchanged] at hr ⊢
    exact inCycle_candidate hr.1 hr.2
  · exact hstore (fun r l hr => inCycle_active hr.1 (Bool.eq_false_iff.mpr hrec) hdb hr.2)

variable {cancelled : Bool}

/-- An advanced checkpoint comes from the result, in a cycle whose state is trusted. -/
theorem checkpointDecision_eq_advance {basis b : CheckpointBasis}
    (h : checkpointDecision inp facts lib result basis cancelled = .advance token b) :
    facts.checkpointTransitionStateSafe = true ∧
      (sourceCheckpointDecision result false lib.planIsStale .completeInventory).isAdvance =
        true := by
  unfold checkpointDecision at h
  split at h
  · rename_i hgo
    simp only [Bool.and_eq_true] at hgo
    refine ⟨hgo.1, isAdvance_of inp.config.dryRun basis ?_⟩
    rw [h]
    rfl
  · split at h <;> contradiction

theorem finishLibrary_lineage {reason : Option FullEnumerationReason} {basis : CheckpointBasis}
    (htrusted : Trusted facts) :
    Triple (On (fun r l => InCycle inp facts.enumConfigHashOutcome zone r l ∧
        RunOk inp zone lib result l))
      (finishLibrary inp env facts position lib reason result basis cancelled st)
      (fun _ => On (InCycle inp facts.enumConfigHashOutcome zone)) (On (CycleEnd zone)) := by
  refine Triple.bind (R := fun _ => On (InCycle inp facts.enumConfigHashOutcome zone)) ?_
    (fun st' => ?_)
  · cases hdec : checkpointDecision inp facts lib result basis cancelled with
    | advance token b =>
        obtain ⟨hsafe, hadv⟩ := checkpointDecision_eq_advance hdec
        exact (storeAdvance_lineage htrusted hsafe).strengthen_pre
          (fun w hw => ⟨hw.1, fun hz => hw.2 hz hadv⟩)
    | preserve why recovery =>
        exact (storePreserve_keeps inCycle_ignoresNotes.status
          inCycle_ignoresNotes.recovery).conseq (fun w hw => hw.1)
          (fun _ _ h => h.1) (fun w hw => hw.cycleEnd)
  · cases result.outcome with
    | success => exact Triple.pure (fun w hw => hw)
    | sessionExpired n => exact Triple.pure (fun w hw => hw)
    | partialFailure n => exact Triple.pure (fun w hw => hw)

/-! ## the loop -/

theorem runLibrary_lineage (htrusted : Trusted facts) :
    Triple (On (InCycle inp facts.enumConfigHashOutcome zone))
      (runLibrary inp env facts position lib st)
      (fun _ => On (InCycle inp facts.enumConfigHashOutcome zone)) (On (CycleEnd zone)) := by
  refine Triple.bind readPendingZoneToken_lineage (fun pending => ?_)
  refine Triple.bind chooseSyncMode_lineage (fun decision => ?_)
  have hnotes : IgnoresNotes (fun r l => InCycle inp facts.enumConfigHashOutcome zone r l ∧
      SourceOk inp zone lib decision l) :=
    fun key hk r r' l hr h => ⟨inCycle_ignoresNotes key hk r r' l hr h.1, h.2⟩
  refine Triple.bind
    ((persistFullEnumerationReason_keeps hnotes.reason).weaken_halt (fun w hw => hw.1.cycleEnd))
    (fun _ => ?_)
  refine Triple.bind (reconcilePaths_triple.weaken_halt (fun w hw => hw.1.cycleEnd)) (fun st' => ?_)
  refine Triple.bind (firstRun_lineage.strengthen_pre (fun w hw => hw.1)) (fun inventory => ?_)
  refine Triple.bind bridgeInventory_lineage (fun p => ?_)
  obtain ⟨result, basis⟩ := p
  have hnotes' : IgnoresNotes (fun r l => InCycle inp facts.enumConfigHashOutcome zone r l ∧
      RunOk inp zone lib result l) :=
    fun key hk r r' l hr h => ⟨inCycle_ignoresNotes key hk r r' l hr h.1, h.2⟩
  refine Triple.bind
    ((updateInventoryAnchorForCycle_keeps hnotes'.anchor).weaken_halt (fun w hw => hw.1.cycleEnd))
    (fun _ => ?_)
  exact finishLibrary_lineage htrusted

theorem runLibraries_lineage (htrusted : Trusted facts) (libs : List LibraryState) (n : Nat)
    (st : LoopState) :
    Triple (On (InCycle inp facts.enumConfigHashOutcome zone))
      (runLibraries inp env facts n libs st)
      (fun _ => On (InCycle inp facts.enumConfigHashOutcome zone))
      (On (CycleEnd zone)) :=
  runLibraries_each (fun _ _ _ _ => runLibrary_lineage htrusted) n st

theorem runLibraries_monotone :
    Triple (fun _ => True) (runLibraries inp env facts 0 inp.active st)
      (fun st' _ => st'.dbSyncTokenAdvanceSafe = true → st.dbSyncTokenAdvanceSafe = true)
      (fun _ => True) := by
  refine Triple.of_forall (fun w _ => ?_)
  refine (runLibraries_triple w.log inp.active 0 st
    (fun j lib hj => by rwa [Nat.zero_add])).conseq (fun w' hw => ?_) (fun st' w' hw => ?_)
    (fun _ h => h)
  · subst hw
    exact ⟨[], (List.append_nil _).symm, fun _ i lib hi => absurd hi (Nat.not_lt_zero i)⟩
  · obtain ⟨k, -, hafter, -⟩ := hw
    exact hafter.2

/-! ## promotion -/

theorem foldl_update_of_mem (f : String → Option Lineage) (source : String) {key : String}
    (keys : List (String × String)) (held : String → Option Lineage)
    (hmem : ∃ k ∈ keys, k.2 = key) (huniq : ∀ k ∈ keys, k.2 = key → k.1 = source) :
    keys.foldl (fun held k => Function.update held k.2 (f k.1)) held key = f source := by
  induction keys using List.reverseRecOn with
  | nil =>
      obtain ⟨k, hk, -⟩ := hmem
      contradiction
  | append_singleton ks k ih =>
      rw [List.foldl_append, List.foldl_cons, List.foldl_nil]
      by_cases hk : k.2 = key
      · rw [hk, Function.update_self, huniq k (List.mem_append_right _ List.mem_cons_self) hk]
      · rw [Function.update_of_ne (Ne.symm hk)]
        refine ih ?_ (fun k' hk' => huniq k' (List.mem_append_left _ hk'))
        obtain ⟨k', hmem', hk'⟩ := hmem
        rcases List.mem_append.mp hmem' with hin | hin
        · exact ⟨k', hin, hk'⟩
        · rw [List.mem_singleton.mp hin] at hk'
          exact absurd hk' hk

theorem promotion_cycleEnd {r : Rows} {cs : List (LibraryState × String)}
    (h : InCycle inp .changed zone r l)
    (hcand : ∀ c ∈ cs, r (pendingZoneTokenKey inp.config.enumConfigHash c.1.zoneName) = some c.2) :
    CycleEnd zone (r.transition (promotionTransition inp.config.enumConfigHash cs))
      (l ++ [.promoted inp.config.enumConfigHash
        (promotedKeys inp.config.enumConfigHash cs)]) := by
  refine fun hcovers => ⟨h.uses.append_promoted, ?_, ?_⟩
  · intro hash hhash hne
    rw [promotion_hash] at hhash
    cases hhash
    obtain ⟨hstaged, stored, hstored⟩ := h.staged rfl
    by_cases hz : ∃ c ∈ cs, c.1.zoneName = zone
    · -- its candidate becomes the active token
      obtain ⟨c, hc, hzone⟩ := hz
      have hrow : r (pendingZoneTokenKey inp.config.enumConfigHash zone) ≠ none := by
        rw [← hzone, hcand c hc]
        exact Option.some_ne_none c.2
      have hunder := h.candidate _ hstaged hrow
      rw [held_append_promoted]
      rwa [foldl_update_of_mem (ledger l).held
        (pendingZoneTokenKey inp.config.enumConfigHash zone)]
      · exact ⟨_, List.mem_map_of_mem hc, congrArg syncTokenKey hzone⟩
      · intro k hk hkey
        obtain ⟨c', hc', rfl⟩ := List.mem_map.mp hk
        rw [syncTokenKey_inj hkey]
    · -- it was left behind without a token
      have hother : ∀ c ∈ cs, c.1.zoneName ≠ zone := fun c hc hzone => hz ⟨c, hc, hzone⟩
      rw [promotion_other r hother] at hne
      rcases hcovers l _ _ [] rfl with ⟨k, hk, hkey⟩ | hnone
      · obtain ⟨c, hc, rfl⟩ := List.mem_map.mp hk
        exact absurd (syncTokenKey_inj hkey) (hother c hc)
      · obtain ⟨lineage, hl, -⟩ := h.active stored hstored hne
        rw [hnone] at hl
        contradiction
  · intro hash hpending
    have hdeleted : r.transition (promotionTransition inp.config.enumConfigHash cs)
        pendingEnumConfigHashKey = none :=
      deletes_of_mem (List.mem_append_right _ List.mem_cons_self) _
    rw [hdeleted] at hpending
    contradiction

theorem promoteReconciliation_lineage :
    Triple (On (InCycle inp .changed zone)) (promoteReconciliation inp env)
      (fun _ => On (CycleEnd zone)) (On (CycleEnd zone)) := by
  refine (promoteReconciliation_rule (J := fun _ => CycleEnd zone) (fun _ _ h => h.cycleEnd)
    (fun r l cs h hlibs hcs => ?_)).weaken_halt (fun _ h => h.cycleEnd)
  exact promotion_cycleEnd h (fun c hc => (hcs c hc).2)

theorem finishReconciliation_lineage
    (hflag : st.dbSyncTokenAdvanceSafe = true → facts.reconciliationActive = true →
      facts.enumConfigHashOutcome = .changed) :
    Triple (On (InCycle inp facts.enumConfigHashOutcome zone))
      (finishReconciliation inp env facts st cancelled)
      (fun _ => On (CycleEnd zone)) (On (CycleEnd zone)) := by
  refine Triple.ite (fun hgo => ?_) (fun _ => Triple.pure (fun w hw => hw.cycleEnd))
  simp only [Bool.and_eq_true] at hgo
  rw [hflag hgo.1.1.1.2 hgo.1.1.1.1]
  exact promoteReconciliation_lineage

/-! ## cycles -/

theorem runCycle_lineage (env : Env) (hdry : inp.config.dryRun = true → inp.hasStateDb = false) :
    Triple (On (fun r l => Sound zone r l ∧ StartsClean zone r)) (runCycle inp env)
      (fun _ => On (CycleEnd zone)) (On (CycleEnd zone)) := by
  refine Triple.bind (checkEnumConfigHash_lineage hdry) (fun enumOutcome => ?_)
  refine Triple.bind (keeps_cycleEnd (checkDownloadConfigHash_keeps inCycle_ignoresNotes
    deletePendingPath_inCycle)) (fun downloadOutcome => ?_)
  have htrusted := trusted_cycleFacts inp enumOutcome downloadOutcome
  refine Triple.bind
    (((runLibraries_lineage htrusted inp.active 0 _).and
    (runLibraries_monotone.strengthen_pre (fun _ _ => trivial))).weaken_halt (fun _ h => h.1))
    (fun st => ?_)
  refine Triple.pre (p := st.dbSyncTokenAdvanceSafe = true →
    (cycleFacts inp enumOutcome downloadOutcome).checkpointTransitionStateSafe = true)
    (fun w hw hf => ?_) (fun hflag => ?_)
  · have hstart := hw.2 hf
    simp only [LoopState.start, Bool.and_eq_true] at hstart
    exact hstart.2
  refine Triple.bind
    ((finishReconciliation_lineage (fun hf => htrusted (hflag hf))).strengthen_pre
    (fun w hw => hw.1)) (fun safe => ?_)
  exact Triple.bind (promotePathReconciliation_keeps cycleEnd_ignoresNotes.path
    cycleEnd_ignoresNotes.pendingPath) (fun _ => Triple.pure (fun w hw => hw))

theorem runCycle_cycleEnd (env : Env) {w : World}
    (hdry : inp.config.dryRun = true → inp.hasStateDb = false)
    (hsound : Sound zone w.rows w.log) (hstart : StartsClean zone w.rows) :
    CycleEnd zone (runCycle inp env w).2.rows (runCycle inp env w).2.log := by
  have h := runCycle_lineage env hdry w ⟨hsound, hstart⟩
  cases hx : runCycle inp env w with
  | mk result w' =>
      rw [hx] at h
      cases result with
      | ok a => exact h
      | error e => exact h

theorem sound_empty : Sound zone World.empty.rows World.empty.log := by
  refine ⟨fun before p h s st res after hsplit => ?_, fun _ h => ?_, fun _ h => ?_⟩
  · have hlen := congrArg List.length hsplit
    simp [World.empty] at hlen
  · contradiction
  · contradiction

/-! ## runs -/

/-- **Active tokens stay with their config.**  From a fresh database, through any
cycles with any configs and any selections, with any faults: as long as no
promotion leaves the zone behind with a token and the zone has no token where no
hash is stored, every run that continues from the zone's active token has one
that was obtained under its own hash, on a chain with an inventory under that
hash; and the token of another hash is only replayed right after an inventory. -/
theorem runCycles_safeUses (zone : String) (cycles : List (CycleInput × Env))
    (hdry : ∀ c ∈ cycles, c.1.config.dryRun = true → c.1.hasStateDb = false)
    (hstart : ∀ pre c post, cycles = pre ++ c :: post →
      StartsClean zone (runCycles pre World.empty).rows)
    (hcovers : PromotionsCover zone (runCycles cycles World.empty).log) :
    SafeUses zone (runCycles cycles World.empty).log := by
  have hsound : ∀ cs : List (CycleInput × Env),
      (∀ c ∈ cs, c.1.config.dryRun = true → c.1.hasStateDb = false) →
      (∀ pre c post, cs = pre ++ c :: post → StartsClean zone (runCycles pre World.empty).rows) →
      PromotionsCover zone (runCycles cs World.empty).log →
      Sound zone (runCycles cs World.empty).rows (runCycles cs World.empty).log := by
    intro cs
    induction cs using List.reverseRecOn with
    | nil => exact fun _ _ _ => sound_empty
    | append_singleton cs c ih =>
        intro hdry hstart hcovers
        have hlast : runCycles (cs ++ [c]) World.empty =
            (runCycle c.1 c.2 (runCycles cs World.empty)).2 := by
          rw [runCycles_append]
          rfl
        rw [hlast] at hcovers ⊢
        have hgrows := Keeps.snd (runCycle_grows c.1 c.2)
          (List.prefix_refl (runCycles cs World.empty).log)
        obtain ⟨new, hnew⟩ := hgrows
        rw [← hnew] at hcovers
        have hbefore := ih (fun d hd => hdry d (List.mem_append_left _ hd))
          (fun pre d post hsplit => hstart pre d (post ++ [c]) (by rw [hsplit]; simp))
          hcovers.left
        rw [hnew] at hcovers
        exact runCycle_cycleEnd c.2 (hdry c (List.mem_append_right _ List.mem_cons_self)) hbefore
          (hstart cs c [] rfl) hcovers
  exact (hsound cycles hdry hstart hcovers).uses

/-- A cycle with one pass for each zone and nothing unusual. -/
def plainCycle (hash : String) (zones : List String) : CycleInput where
  config := ⟨false, false, true, hash, "d", "l"⟩
  libraries := zones.map (fun zone => ⟨zone, ["All"], false⟩)
  hasStateDb := true
  shutdown := none

/-- A drifted config, reconciled and then used. -/
def reconciledRun : List (CycleInput × Env) :=
  [(plainCycle "h1" ["A"], Env.clean), (plainCycle "h2" ["A"], Env.clean),
    (plainCycle "h2" ["A"], Env.clean)]

/-- Where the promotions of a history are. -/
def promotedAt (l : List Event) : List Nat :=
  (List.range l.length).filter (fun i =>
    match l[i]? with
    | some (.promoted _ _) => true
    | _ => false)

theorem mem_promotedAt (before after : List Event) (hash : String)
    (keys : List (String × String)) :
    before.length ∈ promotedAt (before ++ .promoted hash keys :: after) := by
  simp [promotedAt]

/-- The run promotes once, with the zone, and its third cycle continues from the new token. -/
theorem reconciledRun_safeUses :
    (runCycles reconciledRun World.empty).log.length = 8 ∧
      SafeUses "A" (runCycles reconciledRun World.empty).log := by
  refine ⟨by decide +kernel, ?_⟩
  refine runCycles_safeUses "A" reconciledRun (by decide) (fun pre c post hsplit => ?_)
    (fun before hash keys after hsplit => ?_)
  · have hpre : pre = reconciledRun.take pre.length := by rw [hsplit, List.take_left]
    have hlen : pre.length < 3 := by
      have h := congrArg List.length hsplit
      simp [reconciledRun] at h
      omega
    rw [hpre]
    have hall : ∀ n < 3, (runCycles (reconciledRun.take n) World.empty).rows enumConfigHashKey =
        none → (runCycles (reconciledRun.take n) World.empty).rows (syncTokenKey "A") = none := by
      decide +kernel
    exact hall pre.length hlen
  · have hwhere : promotedAt (runCycles reconciledRun World.empty).log = [5] := by
      decide +kernel
    have hevent : (runCycles reconciledRun World.empty).log[5]? =
        some (.promoted "h2" [(pendingZoneTokenKey "h2" "A", syncTokenKey "A")]) := by
      decide +kernel
    generalize (runCycles reconciledRun World.empty).log = log at hsplit hwhere hevent
    subst hsplit
    have hlen : before.length = 5 := by
      have hmem := mem_promotedAt before after hash keys
      rw [hwhere] at hmem
      exact List.mem_singleton.mp hmem
    have hget : (before ++ .promoted hash keys :: after)[5]? = some (.promoted hash keys) := by
      rw [← hlen]
      simp
    rw [hevent] at hget
    obtain ⟨-, rfl⟩ := Event.promoted.inj (Option.some.inj hget)
    exact .inl ⟨_, List.mem_singleton.mpr rfl, rfl⟩

/-! ## the limits -/

/-- The same without limits: whatever is used was obtained under the cycle's hash. -/
def UsesUnderHash (zone : String) (l : List Event) : Prop :=
  ∀ before position hash source stale result after,
    l = before ++ .download position zone hash source stale result :: after →
    source = .active ∨ source = .bridge →
    Under hash ((ledger before).held (syncTokenKey zone))

theorem not_usesUnderHash {zone : String} (n position : Nat) (hash : String) (source : TokenSource)
    (stale : Bool) (result : Option SyncResult)
    (hevent : l[n]? = some (.download position zone hash source stale result))
    (hsource : source = .active ∨ source = .bridge)
    (hunder : ¬ Under hash ((ledger (l.take n)).held (syncTokenKey zone))) :
    ¬ UsesUnderHash zone l := by
  intro huses
  obtain ⟨hn, hget⟩ := List.getElem?_eq_some_iff.mp hevent
  refine hunder (huses (l.take n) position hash source stale result (l.drop (n + 1)) ?_ hsource)
  rw [← hget, List.getElem_cons_drop, List.take_append_drop]

/-- The zone `B` is deselected while the config drifts and selected again after. -/
def deselectedRun : List (CycleInput × Env) :=
  [(plainCycle "h1" ["A", "B"], Env.clean), (plainCycle "h2" ["A"], Env.clean),
    (plainCycle "h2" ["A", "B"], Env.clean)]

/-- The first cycle cannot store its hash, and the config drifts before the next. -/
def unstoredHashRun : List (CycleInput × Env) :=
  [(plainCycle "h1" ["A"], { Env.clean with fault := fun n => if n = 1 then .fails else .none }),
    (plainCycle "h2" ["A"], Env.clean)]

/-- Three runs in which a token of an older config is used: right after an inventory, to
bridge it; by a zone that a promotion left behind; and where no hash was stored. -/
theorem activeToken_crosses_configs :
    ¬ UsesUnderHash "A" (runCycles reconciledRun World.empty).log ∧
    ¬ UsesUnderHash "B" (runCycles deselectedRun World.empty).log ∧
    ¬ UsesUnderHash "A" (runCycles unstoredHashRun World.empty).log := by
  refine ⟨?_, ?_, ?_⟩
  · refine not_usesUnderHash 3 0 "h2" .bridge false (some (cleanRun false)) ?_ (.inr rfl) ?_
    · decide +kernel
    · decide +kernel
  · refine not_usesUnderHash 10 1 "h2" .active false (some (cleanRun false)) ?_ (.inl rfl) ?_
    · decide +kernel
    · decide +kernel
  · refine not_usesUnderHash 2 0 "h2" .active false (some (cleanRun false)) ?_ (.inl rfl) ?_
    · decide +kernel
    · decide +kernel

end Kei.SyncCycle
