import Kei.SyncCycle.Advance

/-!
# Kei.SyncCycle.Skipped

A cycle that a shutdown cuts short right before a library.

The look for a shutdown at the head of the loop leaves it with the flag as it
is.  In an environment where nothing fails, every library before that point
keeps the flag set, so the cycle reports that the database token may advance
although the library it stopped at was never run.  Together with the previous
module this settles exactly for which cycles the flag is honest.
-/

namespace Kei.SyncCycle

open Str
open Store
open Prog

variable {inp : CycleInput} {facts : CycleFacts} {lib : LibraryState} {n : Nat}
  {I J : Rows → List Event → Prop}

/-! ## an environment without faults -/

/-- A program that returns, and leaves the world in `Q`. -/
abbrev Returns {α : Type} (I : Rows → List Event → Prop) (x : Cycle α)
    (Q : α → Rows → List Event → Prop) : Prop :=
  Triple (On I) x (fun a => On (Q a)) (fun _ => False)

theorem getMetadata_clean {key : String} :
    Returns I (getMetadata Env.clean key) (fun v r l => v = some (r key) ∧ I r l) :=
  fun _ hw => ⟨rfl, hw⟩

theorem write_clean {f : Rows → Rows} (h : ∀ r l, I r l → J (f r) l) :
    Returns I (write Env.clean f) (fun ok r l => ok = true ∧ J r l) :=
  fun w hw => ⟨rfl, h w.rows w.log hw⟩

/-! ## the checks -/

/-- Nothing is stored yet, but possibly the enumeration hash. -/
def Fresh (r : Rows) (l : List Event) : Prop := r downloadConfigHashKey = none ∧ l = []

/-- Neither check asks for a reconciliation. -/
structure Settled (facts : CycleFacts) : Prop where
  outcome : facts.enumConfigHashOutcome = .initial ∨ facts.enumConfigHashOutcome = .unchanged
  safe : facts.checkpointTransitionStateSafe = true
  paths : facts.pendingDownloadConfigHash = none

theorem Settled.reconciliationActive (h : Settled facts) : facts.reconciliationActive = false := by
  unfold CycleFacts.reconciliationActive
  rcases h.outcome with ho | ho
  all_goals rw [ho]; rfl

theorem Settled.not_changed (h : Settled facts) : facts.enumConfigHashOutcome ≠ .changed := by
  rcases h.outcome with ho | ho
  all_goals rw [ho]; decide

theorem checkEnumConfigHash_clean :
    Returns (fun r l => r = (fun _ => none) ∧ l = []) (checkEnumConfigHash inp Env.clean)
      (fun o r l => (o = .initial ∨ o = .unchanged) ∧ Fresh r l) := by
  refine Triple.ite (fun _ => ?_) (fun _ => Triple.pure ?_)
  · refine Triple.bind (R := fun o => On (fun r l => o = .initial ∧ Fresh r l)) ?_ (fun o => ?_)
    · refine Triple.bind getMetadata_clean (fun v => ?_)
      refine Triple.pre (p := v = some none) (fun w hw => ?_) (fun hv => ?_)
      · rw [hw.1, hw.2.1]
      · subst hv
        have hset : Returns (fun r l => some none = some (r enumConfigHashKey) ∧
              r = (fun _ => none) ∧ l = [])
            (setMetadata Env.clean enumConfigHashKey inp.config.enumConfigHash)
            (fun ok r l => ok = true ∧ Fresh r l) := by
          refine write_clean (fun r l hr => ⟨?_, hr.2.2⟩)
          rw [set_of_ne r (by decide), hr.2.1]
        exact Triple.bind hset (fun _ => Triple.pure (fun w hw => ⟨rfl, hw.2⟩))
    · refine Triple.pre (p := o = .initial) (fun w hw => hw.1) (fun ho => ?_)
      subst ho
      exact Triple.ite (fun h => by contradiction)
        (fun _ => Triple.pure (fun w hw => ⟨.inl rfl, hw.2⟩))
  · exact fun w hw => ⟨.inr rfl, by rw [hw.1], hw.2⟩

theorem checkDownloadConfigHash_clean :
    Returns Fresh (checkDownloadConfigHash inp Env.clean)
      (fun o _ l => (o = none ∨ o = some .unchanged) ∧ l = []) := by
  refine Triple.ite (fun _ => ?_) (fun _ => Triple.pure (fun w hw => ⟨.inl rfl, hw.2⟩))
  refine Triple.bind (R := fun o => On (fun _ l => o = .unchanged ∧ l = [])) ?_
    (fun o => Triple.pure (fun w hw => ⟨.inr (by rw [hw.1]), hw.2⟩))
  refine Triple.bind getMetadata_clean (fun v => ?_)
  refine Triple.pre (p := v = some none) (fun w hw => ?_) (fun hv => ?_)
  · rw [hw.1, hw.2.1]
  · subst hv
    refine Triple.bind (write_clean (J := fun _ l => l = []) (fun r l hr => hr.2.2)) (fun ok => ?_)
    refine Triple.pre (p := ok = true) (fun w hw => hw.1) (fun hok => ?_)
    subst hok
    exact Triple.pure (fun w hw => ⟨rfl, hw.2⟩)

theorem settled_cycleFacts (inp : CycleInput) {enumOutcome : EnumConfigHashOutcome}
    {downloadOutcome : Option DownloadConfigHashOutcome}
    (he : enumOutcome = .initial ∨ enumOutcome = .unchanged)
    (hd : downloadOutcome = none ∨ downloadOutcome = some .unchanged) :
    Settled (cycleFacts inp enumOutcome downloadOutcome) := by
  refine ⟨he, ?_, ?_⟩
  · rcases he with rfl | rfl <;> rcases hd with rfl | rfl <;> rfl
  · rcases hd with rfl | rfl <;> simp [cycleFacts]

/-! ## one library -/

/-- Every run so far was for a library before position `n`. -/
def Before (n : Nat) (_ : Rows) (l : List Event) : Prop :=
  ∀ position zone hash source stale result,
    .download position zone hash source stale result ∈ l → position < n

theorem chooseSyncMode_clean :
    Returns I (chooseSyncMode inp Env.clean facts lib none) (fun _ => I) := by
  refine Triple.ite (fun _ => Triple.pure (fun _ hw => hw)) (fun _ => ?_)
  refine Triple.ite (fun _ => Triple.pure (fun _ hw => hw)) (fun _ => ?_)
  refine Triple.ite (fun _ => Triple.pure (fun _ hw => hw)) (fun _ => ?_)
  refine Triple.ite (fun _ => ?_) (fun _ => Triple.pure (fun _ hw => hw))
  refine Triple.bind getMetadata_clean (fun v => ?_)
  rcases v with _ | _ | token
  · exact Triple.pure (fun _ hw => hw.2)
  · exact Triple.pure (fun _ hw => hw.2)
  · exact Triple.ite (fun _ => Triple.pure (fun _ hw => hw.2))
      (fun _ => Triple.pure (fun _ hw => hw.2))

theorem persistFullEnumerationReason_clean {reason : Option FullEnumerationReason}
    (hI : ∀ r r' l, I r l → I r' l) :
    Returns I (persistFullEnumerationReason inp Env.clean reason) (fun _ => I) := by
  cases reason with
  | none => exact Triple.pure (fun _ hw => hw)
  | some reason =>
      refine Triple.ite (fun _ => ?_) (fun _ => Triple.pure (fun _ hw => hw))
      exact Triple.bind (write_clean (J := I) (fun r l hr => hI r _ l hr))
        (fun _ => Triple.pure (fun _ hw => hw.2))

theorem before_succ {position : Nat} {zone hash : String} {source : TokenSource} {stale : Bool}
    {result : Option SyncResult} {r : Rows} {l : List Event} (h : Before position r l) :
    Before (position + 1) r (l ++ [.download position zone hash source stale result]) := by
  intro p z hs s st res hmem
  rcases List.mem_append.mp hmem with hmem | hmem
  · exact Nat.lt_succ_of_lt (h p z hs s st res hmem)
  · cases List.mem_singleton.mp hmem
    exact Nat.lt_succ_self _

theorem before_stored {position : Nat} {zone hash key token : String} {r r' : Rows}
    {l : List Event} (h : Before n r l) :
    Before n r' (l ++ [.stored position zone hash key token]) := by
  intro p z hs s st res hmem
  rcases List.mem_append.mp hmem with hmem | hmem
  · exact h p z hs s st res hmem
  · cases List.mem_singleton.mp hmem

theorem downloadPhotosWithSync_clean {mode : SyncMode} {source : TokenSource} :
    Returns (Before n) (downloadPhotosWithSync inp Env.clean n lib mode source)
      (fun result r l => (∃ full, result = cleanRun full) ∧ Before (n + 1) r l) := by
  cases mode with
  | full => exact fun w hw => ⟨⟨true, rfl⟩, before_succ hw⟩
  | incremental token => exact fun w hw => ⟨⟨false, rfl⟩, before_succ hw⟩

theorem updateInventoryAnchorForCycle_clean {result : SyncResult} {cancelled : Bool} :
    Returns I (updateInventoryAnchorForCycle inp Env.clean lib result cancelled) (fun _ => I) := by
  refine Triple.ite (fun _ => ?_) (fun _ => Triple.pure (fun _ hw => hw))
  exact Triple.bind getMetadata_clean (fun _ => Triple.bind (R := fun _ => On I)
    (fun _ hw => hw.2) (fun _ => Triple.pure (fun _ hw => hw)))

theorem nonBlank_t : nonBlank (some "t") = some "t" := by decide

theorem checkpointDecision_clean {full : Bool} {basis : CheckpointBasis} (hsafe : Settled facts)
    (hdry : inp.config.dryRun = false) (hstale : lib.planIsStale = false) :
    checkpointDecision inp facts lib (cleanRun full) basis false = .advance "t" basis := by
  unfold checkpointDecision sourceCheckpointDecision
  rw [hsafe.safe, hdry, hstale]
  simp [cleanRun, isSessionExpired, nonBlank_t]

theorem storeAdvance_clean {token : String} {st : LoopState} (hdb : inp.hasStateDb = true) :
    Returns (Before n) (storeAdvance inp Env.clean facts position lib token st)
      (fun st' r l => st' = st ∧ Before n r l) := by
  have hstore {key : String} {f : Rows → Rows} :
      Returns (Before n)
        (do
          if ← write Env.clean f then
            record (.stored position lib.zoneName inp.config.enumConfigHash key token)
            return st
          else
            return st.storeFailed)
        (fun st' r l => st' = st ∧ Before n r l) :=
    fun w hw => ⟨rfl, before_stored (r := w.rows) hw⟩
  refine Triple.ite (fun _ => Triple.ite (fun _ => hstore) (fun _ => hstore)) (fun h => ?_)
  exact absurd hdb h

theorem runLibrary_clean {st : LoopState} (hsettled : Settled facts)
    (hdry : inp.config.dryRun = false) (hstale : lib.planIsStale = false)
    (hdb : inp.hasStateDb = true) (hlook : inp.isCancelled (2 * n + 1) = false) :
    Returns (Before n) (runLibrary inp Env.clean facts n lib st)
      (fun p r l => p.1.dbSyncTokenAdvanceSafe = st.dbSyncTokenAdvanceSafe ∧ p.2 = false ∧
        Before (n + 1) r l) := by
  refine Triple.bind (R := fun v => On (fun r l => v = none ∧ Before n r l)) ?_ (fun pending => ?_)
  · exact Triple.ite (fun h => absurd h hsettled.not_changed)
      (fun _ => Triple.pure (fun _ hw => ⟨rfl, hw⟩))
  refine Triple.pre (p := pending = none) (fun w hw => hw.1) (fun hpending => ?_)
  subst hpending
  refine Triple.bind (chooseSyncMode_clean (I := Before n) |>.strengthen_pre (fun w hw => hw.2))
    (fun decision => ?_)
  refine Triple.bind (persistFullEnumerationReason_clean (I := Before n)
    (fun _ _ _ h => h)) (fun _ => ?_)
  refine Triple.bind (R := fun st' => On (fun r l => st' = st ∧ Before n r l)) ?_ (fun st' => ?_)
  · refine Triple.ite (fun h => ?_) (fun _ => Triple.pure (fun _ hw => ⟨rfl, hw⟩))
    rw [hsettled.paths] at h
    contradiction
  refine Triple.pre (p := st' = st) (fun w hw => hw.1) (fun hst => ?_)
  subst hst
  refine Triple.bind (downloadPhotosWithSync_clean.strengthen_pre (fun w hw => hw.2))
    (fun inventory => ?_)
  refine Triple.pre (p := ∃ full, inventory = cleanRun full) (fun w hw => hw.1) (fun hrun => ?_)
  obtain ⟨full, rfl⟩ := hrun
  refine Triple.bind (R := fun p => On (fun r l => p.1 = cleanRun full ∧ Before (n + 1) r l)) ?_
    (fun p => ?_)
  · refine Triple.ite (fun h => ?_) (fun _ => Triple.pure (fun _ hw => ⟨rfl, hw.2⟩))
    simp only [Bool.and_eq_true, decide_eq_true_eq] at h
    exact absurd h.1.1 hsettled.not_changed
  obtain ⟨result, basis⟩ := p
  refine Triple.pre (p := result = cleanRun full) (fun w hw => hw.1) (fun hres => ?_)
  subst hres
  refine Triple.bind
    (updateInventoryAnchorForCycle_clean (I := Before (n + 1)) |>.strengthen_pre (fun w hw => hw.2))
    (fun _ => ?_)
  unfold finishLibrary
  rw [hlook, checkpointDecision_clean hsettled hdry hstale]
  refine Triple.bind (storeAdvance_clean (n := n + 1) hdb) (fun st'' => ?_)
  exact Triple.pure (fun w hw => ⟨by rw [hw.1], rfl, hw.2⟩)

/-! ## the loop up to the shutdown -/

/-- The loop reaches the library at position `k` with its flag as it was. -/
theorem runLibraries_clean (hsettled : Settled facts) (hdry : inp.config.dryRun = false)
    (hdb : inp.hasStateDb = true) {k : Nat} (hcut : inp.isCancelled (2 * k) = true) :
    ∀ (libs : List LibraryState) (n : Nat) (st : LoopState), n ≤ k → k < n + libs.length →
      (∀ lib ∈ libs, lib.planIsStale = false) →
      (∀ j < k, inp.isCancelled (2 * j + 1) = false) →
      Returns (Before n) (runLibraries inp Env.clean facts n libs st)
        (fun st' r l => st'.dbSyncTokenAdvanceSafe = st.dbSyncTokenAdvanceSafe ∧ Before k r l) := by
  intro libs
  induction libs with
  | nil =>
      intro n st hle hlt _ _
      exact absurd hle (Nat.not_le.mpr hlt)
  | cons lib rest ih =>
      intro n st hle hlt hstale hlooks
      have hmono {m : Nat} (hm : m ≤ k) {r : Rows} {l : List Event} (h : Before m r l) :
          Before k r l := fun p z hs s sta res hmem =>
        Nat.lt_of_lt_of_le (h p z hs s sta res hmem) hm
      refine Triple.ite (fun _ => Triple.pure (fun w hw => ⟨rfl, hmono hle hw⟩)) (fun hgo => ?_)
      have hne : n ≠ k := by
        rintro rfl
        exact hgo hcut
      have hnk : n < k := Nat.lt_of_le_of_ne hle hne
      refine Triple.bind (runLibrary_clean hsettled hdry (hstale lib List.mem_cons_self) hdb
        (hlooks n hnk)) (fun p => ?_)
      obtain ⟨st', stop⟩ := p
      refine Triple.pre (p := st'.dbSyncTokenAdvanceSafe = st.dbSyncTokenAdvanceSafe ∧
        stop = false) (fun w hw => ⟨hw.1, hw.2.1⟩) (fun hp => ?_)
      obtain ⟨hflag, rfl⟩ := hp
      rw [List.length_cons] at hlt
      refine Triple.ite (fun h => absurd h Bool.false_ne_true) (fun _ => ?_)
      refine (ih (n + 1) st' hnk (by omega) (fun l hl => hstale l (List.mem_cons_of_mem lib hl))
        hlooks).conseq (fun w hw => hw.2.2) (fun st'' w hw => ⟨?_, hw.2⟩) (fun _ h => h)
      rw [hw.1, hflag]

/-- **A cycle cut short reports an advance.**  Whenever the shutdown is first seen
right before an active library, a cycle in which nothing else goes wrong comes back
with the flag set, and it never ran that library. -/
theorem runCycle_skips (inp : CycleInput) {k : Nat} (hk : k < inp.active.length)
    (hcut : inp.isCancelled (2 * k) = true) (hlooks : ∀ j < k, inp.isCancelled (2 * j + 1) = false)
    (hdry : inp.config.dryRun = false) (hstale : ∀ lib ∈ inp.libraries, lib.planIsStale = false)
    (hdb : inp.hasStateDb = true ∨ k = 0) :
    ∃ result w', runCycle inp Env.clean World.empty = (.ok result, w') ∧
      result.dbSyncTokenAdvanceSafe = true ∧ Before k w'.rows w'.log := by
  have hrun : Returns (fun r l => r = (fun _ => none) ∧ l = []) (runCycle inp Env.clean)
      (fun result r l => result.dbSyncTokenAdvanceSafe = true ∧ Before k r l) := by
    refine Triple.bind checkEnumConfigHash_clean (fun enumOutcome => ?_)
    refine Triple.pre (p := enumOutcome = .initial ∨ enumOutcome = .unchanged)
      (fun w hw => hw.1) (fun henum => ?_)
    refine Triple.bind (checkDownloadConfigHash_clean.strengthen_pre (fun w hw => hw.2))
      (fun downloadOutcome => ?_)
    refine Triple.pre (p := downloadOutcome = none ∨ downloadOutcome = some .unchanged)
      (fun w hw => hw.1) (fun hdown => ?_)
    have hsettled := settled_cycleFacts inp henum hdown
    have hstart : (LoopState.start inp
        (cycleFacts inp enumOutcome downloadOutcome)).dbSyncTokenAdvanceSafe = true := by
      simp only [LoopState.start, hdry, hsettled.safe, Bool.and_eq_true, Bool.not_eq_true',
        List.any_eq_false, Bool.not_eq_true]
      exact ⟨⟨trivial, hstale⟩, trivial⟩
    have hactive : ∀ lib ∈ inp.active, lib.planIsStale = false :=
      fun lib hlib => hstale lib (List.mem_filter.mp hlib).1
    have hloop : Returns (Before 0) (runLibraries inp Env.clean
          (cycleFacts inp enumOutcome downloadOutcome) 0 inp.active
          (LoopState.start inp (cycleFacts inp enumOutcome downloadOutcome)))
        (fun st' r l => st'.dbSyncTokenAdvanceSafe = true ∧ Before k r l) := by
      rcases hdb with hdb | rfl
      · rw [← hstart]
        exact runLibraries_clean hsettled hdry hdb hcut inp.active 0 _ (Nat.zero_le k)
          (by omega) hactive hlooks
      · cases hlibs : inp.active with
        | nil => rw [hlibs] at hk; contradiction
        | cons lib rest =>
            refine Triple.ite (fun _ => Triple.pure (fun w hw => ⟨hstart, hw⟩)) (fun h => ?_)
            exact absurd hcut h
    refine Triple.bind (hloop.strengthen_pre (fun w hw => ?_)) (fun st => ?_)
    · intro p z hs s sta res hmem
      rw [hw.2] at hmem
      contradiction
    refine Triple.pre (p := st.dbSyncTokenAdvanceSafe = true) (fun w hw => hw.1) (fun hst => ?_)
    refine Triple.bind (R := fun safe => On (fun r l => safe = true ∧ Before k r l)) ?_
      (fun safe => ?_)
    · refine Triple.ite (fun h => ?_) (fun _ => Triple.pure (fun w hw => ⟨hst, hw.2⟩))
      rw [hsettled.reconciliationActive] at h
      contradiction
    · unfold promotePathReconciliation
      rw [hsettled.paths]
      exact fun w hw => hw
  exact hrun.returns (s := World.empty) ⟨rfl, rfl⟩

theorem not_cleanCycle {k : Nat} {w w' : World} (hlib : inp.active[k]? = some lib)
    (hbefore : Before k w'.rows w'.log) : ¬ CleanCycle inp w w' := by
  rintro ⟨-, -, new, hlog, hhandled⟩
  obtain ⟨source, result, hmem⟩ := (hhandled k lib hlib).processed
  have hrun : .download k lib.zoneName inp.config.enumConfigHash source lib.planIsStale
      (some result) ∈ w'.log := hlog ▸ List.mem_append_right _ hmem
  exact Nat.lt_irrefl k (hbefore _ _ _ _ _ _ hrun)

/-! ## when the flag is honest -/

/-- **When a true flag can be trusted.**  For a cycle input, a flag that comes back
true means a clean cycle, whatever the environment does, exactly when the cycle
is a dry run, has a stale plan, is not cut short right before an active library,
or has no database to store its first checkpoint in. -/
theorem advanceSafe_honest_iff (inp : CycleInput) :
    (∀ env w result w', runCycle inp env w = (.ok result, w') →
      result.dbSyncTokenAdvanceSafe = true → CleanCycle inp w w') ↔
    inp.config.dryRun = true ∨ (∃ lib ∈ inp.libraries, lib.planIsStale = true) ∨
      ¬ ShutdownSkips inp ∨ (inp.hasStateDb = false ∧ inp.isCancelled 0 = false) := by
  constructor
  · intro hhonest
    by_contra hnot
    simp only [not_or, not_and, Bool.not_eq_true, Bool.not_eq_false, not_exists, not_not] at hnot
    obtain ⟨hdry, hstale, ⟨k, hk, hcut, hlooks⟩, hdb⟩ := hnot
    -- without a database the shutdown was there from the start
    obtain ⟨k, hk, hcut, hlooks, hdb⟩ : ∃ k < inp.active.length, inp.isCancelled (2 * k) = true ∧
        (∀ j < k, inp.isCancelled (2 * j + 1) = false) ∧ (inp.hasStateDb = true ∨ k = 0) := by
      cases hhas : inp.hasStateDb with
      | true => exact ⟨k, hk, hcut, hlooks, .inl rfl⟩
      | false =>
          exact ⟨0, Nat.zero_lt_of_lt hk, hdb hhas, fun j hj => absurd hj (Nat.not_lt_zero j),
            .inr rfl⟩
    obtain ⟨result, w', hrun, hsafe, hbefore⟩ := runCycle_skips inp hk hcut hlooks hdry hstale hdb
    exact not_cleanCycle (List.getElem?_eq_getElem hk) hbefore (hhonest _ _ _ _ hrun hsafe)
  · intro hcond env w result w' hrun hsafe
    obtain ⟨hdry, hstale⟩ := start_of_advanceSafe hrun hsafe
    refine cleanCycle_of_advanceSafe ?_ hrun hsafe
    rcases hcond with h | ⟨lib, hlib, h⟩ | h
    · rw [hdry] at h
      exact Bool.noConfusion h
    · rw [hstale lib hlib] at h
      exact Bool.noConfusion h
    · exact h

/-- A shutdown that arrives before the first of two libraries is run: the flag is
set and nothing was. -/
theorem advanceSafe_not_honest :
    ∃ inp env w result w', runCycle inp env w = (.ok result, w') ∧
      result.dbSyncTokenAdvanceSafe = true ∧ ¬ CleanCycle inp w w' := by
  let inp : CycleInput :=
    { config := ⟨false, false, true, "h", "d", "l"⟩,
      libraries := [⟨"PrimarySync", ["All"], false⟩, ⟨"SharedSync-1", ["All"], false⟩],
      hasStateDb := true, shutdown := some 0 }
  obtain ⟨result, w', hrun, hsafe, hbefore⟩ := runCycle_skips inp (k := 0) (by decide)
    (by decide) (fun j hj => absurd hj (Nat.not_lt_zero j)) rfl (by decide) (.inr rfl)
  have hlib : inp.active[0]? = some ⟨"PrimarySync", ["All"], false⟩ := rfl
  exact ⟨inp, Env.clean, World.empty, result, w', hrun, hsafe, not_cleanCycle hlib hbefore⟩

end Kei.SyncCycle
