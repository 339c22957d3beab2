import Kei.SyncCycle.Paths

/-!
# Kei.SyncCycle.Covered

When a stored path hash covers every downloaded row.

A cycle sets the stored path hash in three places: where none is stored, where
the legacy form of its own is, and where the reconciliations of the libraries it
worked on were all complete.  None of them looks at a library that the cycle
does not work on, and none at what other cycles wrote since the hash was stored.
-/

namespace Kei.SyncCycle

open Str
open Store
open Prog

variable {inp : CycleInput} {env : Env} {writes : RowWrites} {facts : CycleFacts}
  {lib : LibraryState} {position : Nat}

/-! ## the parts of a cycle that leave the path hash -/

/-- The program leaves the stored path hash as it is. -/
def LeavesHash {α : Type} (x : Cycle α) : Prop :=
  ∀ v, Keeps (On (fun r _ => r downloadConfigHashKey = v)) x

theorem ignores_hash {key : String} {v : Option String} (h : key ≠ downloadConfigHashKey) :
    Ignores (fun r _ => r downloadConfigHashKey = v) key :=
  fun _ _ _ hr hv => (hr _ h.symm).symm.trans hv

theorem ignores_hash_of_head {key : String} {v : Option String} {c : Char}
    (h : keyHead key = some c) (hc : c ≠ 'c') :
    Ignores (fun r _ => r downloadConfigHashKey = v) key :=
  ignores_hash (ne_of_keyHead h (by decide) hc)

theorem deleteByPrefix_hash {pre : String} {v : Option String} (hpre : keyHead pre = some 'p')
    (r : Rows) (_ : List Event) (h : r downloadConfigHashKey = v) :
    (r.deleteByPrefix pre) downloadConfigHashKey = v := by
  unfold keyHead at hpre
  obtain ⟨ps, hps⟩ := List.head?_eq_some_iff.mp hpre
  have hkey : downloadConfigHashKey.toList = 'c' :: "onfig_hash".toList := by decide
  rw [deleteByPrefix_of_not, h]
  rw [hps, hkey]
  exact likePrefix_eq_false (by decide)

theorem checkEnumConfigHash_leaves : LeavesHash (checkEnumConfigHash inp env) := fun _ =>
  checkEnumConfigHash_keeps (ignores_hash (by decide)) (ignores_hash (by decide))
    (ignores_hash (by decide)) (deleteByPrefix_hash (by decide)) (deleteByPrefix_hash (by decide))

variable {reason : Option FullEnumerationReason}

theorem persistFullEnumerationReason_leaves :
    LeavesHash (persistFullEnumerationReason inp env reason) := fun _ =>
  persistFullEnumerationReason_keeps (ignores_hash (by decide))

variable {st : LoopState}

theorem reconcilePaths_leaves : LeavesHash (reconcilePaths env facts lib st) :=
  fun _ => reconcilePaths_triple.weaken_post (fun _ _ h => h.1)

theorem downloadPhotosWithSync_leaves {mode : SyncMode} {source : TokenSource} :
    LeavesHash (downloadPhotosWithSync inp env position lib mode source) :=
  fun _ => downloadPhotosWithSync_keeps (fun _ _ _ _ h => h)

variable {result : SyncResult}

theorem bridgeInventory_leaves : LeavesHash (bridgeInventory inp env facts position lib result) :=
  fun _ => bridgeInventory_keeps (fun _ _ _ _ h => h)

variable {cancelled : Bool}

theorem updateInventoryAnchorForCycle_leaves :
    LeavesHash (updateInventoryAnchorForCycle inp env lib result cancelled) := fun _ =>
  updateInventoryAnchorForCycle_keeps (fun hash zone =>
    ignores_hash_of_head (keyHead_inventoryAnchorKey hash zone) (by decide))

theorem storeCheckpoint_leaves {decision : SourceCheckpointDecision} :
    LeavesHash (storeCheckpoint inp env facts position lib decision st) := fun _ =>
  storeCheckpoint_keeps (ignores_hash (by decide)) (ignores_hash (by decide))
    (ignores_hash_of_head (keyHead_syncTokenKey lib.zoneName) (by decide))
    (ignores_hash_of_head (keyHead_pendingZoneTokenKey _ lib.zoneName) (by decide))
    (fun _ _ _ _ h => h)

theorem finishLibrary_leaves {basis : CheckpointBasis} :
    LeavesHash (finishLibrary inp env facts position lib reason result basis cancelled st) :=
  fun v => finishLibrary_keeps (storeCheckpoint_leaves v)

theorem finishReconciliation_leaves :
    LeavesHash (finishReconciliation inp env facts st cancelled) := by
  refine fun v => finishReconciliation_keeps (fun r l cs h _ _ => ?_) (fun _ _ _ _ h => h)
  refine (transition_of_not_mem (fun u hu => ?_) (fun hd => ?_)).trans h
  · rcases mem_promotion_update hu with ⟨c, -, rfl⟩ | rfl | hhead
    · exact ne_of_keyHead (keyHead_syncTokenKey c.1.zoneName) (by decide) (by decide : 's' ≠ 'c')
    · exact (by decide : enumConfigHashKey ≠ downloadConfigHashKey)
    · exact ne_of_keyHead hhead (by decide) (by decide : 'l' ≠ 'c')
  · exact absurd (keyHead_promotion_delete hd) (by decide)

/-! ## what a part of a cycle does to the rows -/

variable {hash zone : String} {s s' s'' s₀ : PathWorld}

/-- The stored path hash stays, and rows are written under `hash` only. -/
structure Moves (hash : String) (s s' : PathWorld) : Prop where
  stored : s'.stored = s.stored
  under : ∀ zone, s.rows.Under hash zone → s'.rows.Under hash zone
  latest : s'.latest = some hash ∨ (s'.latest = s.latest ∧ s'.rows = s.rows)

/-- The stored path hash is that of every row. -/
structure Uniform (hash : String) (s : PathWorld) : Prop where
  stored : s.stored = some hash
  under : ∀ zone, s.rows.Under hash zone

/-- From `s` a cycle under `hash` may come to `s'`. -/
def Within (hash : String) (s s' : PathWorld) : Prop := Moves hash s s' ∨ Uniform hash s'

theorem Moves.refl (hash : String) (s : PathWorld) : Moves hash s s :=
  ⟨rfl, fun _ h => h, .inr ⟨rfl, rfl⟩⟩

theorem Moves.trans (h : Moves hash s s') (h' : Moves hash s' s'') : Moves hash s s'' := by
  refine ⟨h'.stored.trans h.stored, fun zone hzone => h'.under zone (h.under zone hzone), ?_⟩
  rcases h'.latest with hrun | ⟨hlatest, hrows⟩
  · exact .inl hrun
  · rw [hlatest, hrows]
    exact h.latest

theorem Uniform.moves (h : Uniform hash s) (h' : Moves hash s s') : Uniform hash s' :=
  ⟨h'.stored.trans h.stored, fun zone => h'.under zone (h.under zone)⟩

theorem Within.moves (h : Within hash s s') (h' : Moves hash s' s'') : Within hash s s'' :=
  h.imp (fun h => h.trans h') (fun h => h.moves h')

theorem under_afterDownloads {events : List Event} {rows : Placements} {n : Nat}
    (h : rows.Under hash zone) : (afterDownloads hash writes n events rows).Under hash zone := by
  induction events generalizing rows n with
  | nil => exact h
  | cons event events ih =>
      refine ih ?_
      split
      · exact Placements.under_apply h
      · exact h

theorem afterDownloads_of_none {events : List Event} {rows : Placements} {n : Nat}
    (h : events.any Event.isDownload = false) :
    afterDownloads hash writes n events rows = rows := by
  induction events generalizing rows n with
  | nil => rfl
  | cons event events ih =>
      rw [List.any_cons, Bool.or_eq_false_iff] at h
      rw [afterDownloads, if_neg (by simp [h.1]), ih h.2]

variable {world : World}

theorem follow_under (h : s.rows.Under inp.config.downloadConfigHash zone) :
    (s.follow inp writes world).rows.Under inp.config.downloadConfigHash zone :=
  under_afterDownloads h

theorem follow_moves (inp : CycleInput) (writes : RowWrites)
    (h : world.rows downloadConfigHashKey = s.stored) :
    Moves inp.config.downloadConfigHash s (s.follow inp writes world) := by
  refine ⟨h, fun _ => follow_under, ?_⟩
  simp only [PathWorld.follow, if_pos h]
  cases hruns : (if inp.writesRows then world.log.drop s.world.log.length else []).any
      Event.isDownload with
  | true => exact .inl rfl
  | false => exact .inr ⟨rfl, afterDownloads_of_none hruns⟩

theorem reconcile_moves (inp : CycleInput) (env : Env) (writes : RowWrites) (zone : String)
    (s : PathWorld) : Moves inp.config.downloadConfigHash s (s.reconcile inp env writes zone) := by
  refine ⟨rfl, fun other h => ?_, .inl rfl⟩
  unfold PathWorld.reconcile
  split
  · exact Placements.under_cover zone (Placements.under_apply h)
  · exact Placements.under_apply h

theorem reconcile_covers
    (h : (env.reconcileCatalogPaths s.world.calls zone).any (·.complete) = true) :
    (s.reconcile inp env writes zone).rows.Under inp.config.downloadConfigHash zone := by
  simp only [PathWorld.reconcile, if_pos h]
  exact Placements.under_cover_self _ _ _

/-! ## one cycle -/

/-- In a cycle that began in `s₀`, with the libraries that are covered by now. -/
structure During (inp : CycleInput) (s₀ : PathWorld) (zones : String → Prop) (s : PathWorld) :
    Prop where
  within : Within inp.config.downloadConfigHash s₀ s
  covered : ∀ zone, zones zone → s.rows.Under inp.config.downloadConfigHash zone

variable {zones : String → Prop}

theorem During.moves (h : During inp s₀ zones s)
    (h' : Moves inp.config.downloadConfigHash s s') : During inp s₀ zones s' :=
  ⟨h.within.moves h', fun zone hzone => h'.under zone (h.covered zone hzone)⟩

theorem During.mono {zones' : String → Prop} (h : During inp s₀ zones s)
    (hzones : ∀ zone, zones' zone → s.rows.Under inp.config.downloadConfigHash zone) :
    During inp s₀ zones' s := ⟨h.within, hzones⟩

theorem onPaths_triple {α : Type} {x : Cycle α} {Q : α → Prop} (hx : LeavesHash x)
    (hQ : Triple (fun _ => True) x (fun a _ => Q a) (fun _ => True)) :
    Triple (During inp s₀ zones) (onPaths inp writes x) (fun a s => During inp s₀ zones s ∧ Q a)
      (During inp s₀ zones) := by
  intro s hs
  have hleaves := (hx s.stored).snd (s := s.world) rfl
  have hafter := hs.moves (follow_moves inp writes hleaves)
  have hresult := hQ s.world trivial
  unfold onPaths shadow
  cases hrun : x s.world with
  | mk result world =>
      rw [hrun] at hafter hresult
      cases result with
      | ok a => exact ⟨hafter, hresult⟩
      | error e => exact hafter

theorem onPaths_during {α : Type} {x : Cycle α} (hx : LeavesHash x) :
    Keeps (During inp s₀ zones) (onPaths inp writes x) :=
  shadow_keeps (fun _ hs => hs.moves (follow_moves inp writes ((hx _).snd rfl)))

theorem reconcilePathsOn_triple :
    Triple (During inp s₀ zones) (reconcilePathsOn inp env writes facts lib st)
      (fun st' s => During inp s₀ zones s ∧ (facts.pendingDownloadConfigHash.isSome = true →
        st'.pathReconciliationComplete = true → st.pathReconciliationComplete = true ∧
          s.rows.Under inp.config.downloadConfigHash lib.zoneName))
      (During inp s₀ zones) := by
  intro s hs
  unfold reconcilePathsOn
  rw [run_bind_ok (run_modify _ s)]
  by_cases hpending : facts.pendingDownloadConfigHash.isSome = true
  · rw [if_pos hpending]
    have hreconciled := hs.moves (reconcile_moves inp env writes lib.zoneName s)
    have hworld : (s.reconcile inp env writes lib.zoneName).world = s.world := rfl
    unfold onPaths shadow reconcilePaths
    rw [hworld, if_pos hpending, run_bind_ok (show tick s.world = (.ok s.world.calls, _) from rfl)]
    cases hresult : env.reconcileCatalogPaths s.world.calls lib.zoneName with
    | none => exact hreconciled.moves (follow_moves inp writes rfl)
    | some r =>
        refine ⟨hreconciled.moves (follow_moves inp writes rfl), fun _ hcomplete => ?_⟩
        obtain ⟨hbefore, hr⟩ := (Bool.and_eq_true _ _).mp hcomplete
        refine ⟨hbefore, follow_under (reconcile_covers ?_)⟩
        rw [hresult]
        exact hr
  · rw [if_neg hpending]
    exact (onPaths_during reconcilePaths_leaves).weaken_post
      (fun _ _ h => ⟨h, fun hpending' => absurd hpending' hpending⟩) s hs

theorem any_triple {α : Type} {x : Cycle α} :
    Triple (fun _ => True) x (fun _ _ => True) (fun _ => True) :=
  Triple.of_post (fun _ _ => trivial) (fun _ => trivial)

theorem storeCheckpoint_complete {decision : SourceCheckpointDecision} :
    Triple (fun _ => True) (storeCheckpoint inp env facts position lib decision st)
      (fun st' _ => st'.pathReconciliationComplete = st.pathReconciliationComplete)
      (fun _ => True) := by
  have hreturn {st' : LoopState}
      (h : st'.pathReconciliationComplete = st.pathReconciliationComplete) :
      Triple (fun _ => True) (pure st' : Cycle LoopState)
        (fun st' _ => st'.pathReconciliationComplete = st.pathReconciliationComplete)
        (fun _ => True) := Triple.pure (fun _ _ => h)
  cases decision with
  | advance token basis =>
      have hwrote (ok : Bool) {x : Cycle Unit} : Triple (fun _ => True)
          (if ok = true then do x; return st else return st.storeFailed)
          (fun st' _ => st'.pathReconciliationComplete = st.pathReconciliationComplete)
          (fun _ => True) :=
        Triple.ite (fun _ => Triple.bind any_triple (fun _ => hreturn rfl))
          (fun _ => hreturn rfl)
      exact Triple.ite (fun _ => Triple.ite (fun _ => Triple.bind any_triple (fun ok => hwrote ok))
        (fun _ => Triple.bind any_triple (fun ok => hwrote ok))) (fun _ => hreturn rfl)
  | preserve reason recovery =>
      exact Triple.ite (fun _ => Triple.bind any_triple (fun _ => hreturn rfl))
        (fun _ => hreturn rfl)

theorem finishLibrary_result {basis : CheckpointBasis} :
    Triple (fun _ => True)
      (finishLibrary inp env facts position lib reason result basis cancelled st)
      (fun p _ => p.1.pathReconciliationComplete = st.pathReconciliationComplete ∧
        (p.2 = true → p.1.sessionExpired = true)) (fun _ => True) := by
  refine Triple.bind storeCheckpoint_complete (fun st' => ?_)
  cases result.outcome with
  | sessionExpired n => exact Triple.pure (fun _ h => ⟨h, fun _ => rfl⟩)
  | success | partialFailure =>
      exact Triple.pure (fun _ h => ⟨h, fun hstop => by contradiction⟩)

theorem downloadOn_triple {mode : SyncMode} {source : TokenSource} :
    Triple (During inp s₀ zones)
      (do
        let inventory ← onPaths inp writes
          (downloadPhotosWithSync inp env position lib mode source)
        let (result, basis) ← onPaths inp writes
          (bridgeInventory inp env facts position lib inventory)
        let cancelled := inp.isCancelled (2 * position + 1)
        onPaths inp writes (updateInventoryAnchorForCycle inp env lib result cancelled)
        onPaths inp writes
          (finishLibrary inp env facts position lib reason result basis cancelled st))
      (fun p s => During inp s₀ zones s ∧
        p.1.pathReconciliationComplete = st.pathReconciliationComplete ∧
          (p.2 = true → p.1.sessionExpired = true))
      (During inp s₀ zones) := by
  refine Triple.bind (onPaths_during downloadPhotosWithSync_leaves) (fun inventory => ?_)
  refine Triple.bind (onPaths_during bridgeInventory_leaves) (fun p => ?_)
  refine Triple.bind (onPaths_during updateInventoryAnchorForCycle_leaves) (fun _ => ?_)
  exact onPaths_triple finishLibrary_leaves finishLibrary_result

theorem runLibraryOn_triple :
    Triple (During inp s₀ zones) (runLibraryOn inp env writes facts position lib st)
      (fun p s => During inp s₀ zones s ∧ (facts.pendingDownloadConfigHash.isSome = true →
        p.1.pathReconciliationComplete = true → st.pathReconciliationComplete = true ∧
          s.rows.Under inp.config.downloadConfigHash lib.zoneName) ∧
        (p.2 = true → p.1.sessionExpired = true))
      (During inp s₀ zones) := by
  refine Triple.bind (onPaths_during (fun _ => readPendingZoneToken_keeps)) (fun pending => ?_)
  refine Triple.bind (onPaths_during (fun _ => chooseSyncMode_keeps)) (fun decision => ?_)
  refine Triple.bind (onPaths_during persistFullEnumerationReason_leaves) (fun _ => ?_)
  refine Triple.bind reconcilePathsOn_triple (fun st₁ => ?_)
  by_cases hflag : facts.pendingDownloadConfigHash.isSome = true ∧
      st₁.pathReconciliationComplete = true
  · -- the library is among the covered ones from here on
    intro s hs
    obtain ⟨hbefore, hlib⟩ := hs.2 hflag.1 hflag.2
    have hzones : During inp s₀ (fun zone => zones zone ∨ zone = lib.zoneName) s :=
      hs.1.mono (fun zone hzone => hzone.elim (hs.1.covered zone) (fun hzone => hzone ▸ hlib))
    refine Triple.conseq downloadOn_triple (fun _ h => h) (fun p s h => ⟨h.1.mono
      (fun zone hzone => h.1.covered zone (.inl hzone)), fun _ _ =>
        ⟨hbefore, h.1.covered _ (.inr rfl)⟩, h.2.2⟩)
      (fun s h => h.mono (fun zone hzone => h.covered zone (.inl hzone))) s hzones
  · refine downloadOn_triple.conseq (fun _ h => h.1) (fun p s h => ⟨h.1, fun hpending hp => ?_,
      h.2.2⟩) (fun _ h => h)
    rw [h.2.1] at hp
    exact absurd ⟨hpending, hp⟩ hflag

theorem isCancelled_mono {look later : Nat} (h : inp.isCancelled look = true)
    (hlater : look ≤ later) : inp.isCancelled later = true := by
  unfold CycleInput.isCancelled at h ⊢
  cases hshutdown : inp.shutdown with
  | none =>
      rw [hshutdown] at h
      contradiction
  | some arrival =>
      rw [hshutdown, Option.any_some, decide_eq_true_eq] at h
      rw [Option.any_some, decide_eq_true_eq]
      omega

/-- **With the flag up at the end, and the session and the process alive, every library of the
loop is covered.** -/
theorem runLibrariesOn_triple (last : Nat) (libs : List LibraryState) (i : Nat)
    (hi : 2 * (i + libs.length) ≤ last) (st : LoopState) (zones : String → Prop) :
    Triple (During inp s₀ zones) (runLibrariesOn inp env writes facts i libs st)
      (fun st' s => During inp s₀ zones s ∧ (facts.pendingDownloadConfigHash.isSome = true →
        inp.isCancelled last = false → st'.pathReconciliationComplete = true →
          st'.sessionExpired = false → st.pathReconciliationComplete = true ∧
            ∀ lib ∈ libs, s.rows.Under inp.config.downloadConfigHash lib.zoneName))
      (During inp s₀ zones) := by
  induction libs generalizing i st zones with
  | nil =>
      exact Triple.pure (fun s hs => ⟨hs, fun _ _ hcomplete _ =>
        ⟨hcomplete, fun lib hlib => absurd hlib List.not_mem_nil⟩⟩)
  | cons lib rest ih =>
      rw [List.length_cons] at hi
      refine Triple.ite (fun hcancelled => ?_) (fun _ => ?_)
      · refine Triple.pure (fun s hs => ⟨hs, fun _ hlast => ?_⟩)
        rw [isCancelled_mono hcancelled (by omega)] at hlast
        contradiction
      · refine Triple.bind runLibraryOn_triple (fun p => ?_)
        obtain ⟨st₁, stop⟩ := p
        refine Triple.ite (fun hstop => ?_) (fun _ => ?_)
        · refine Triple.pure (fun s hs => ⟨hs.1, fun _ _ _ halive => ?_⟩)
          rw [hs.2.2 hstop] at halive
          contradiction
        · intro s hs
          by_cases hflag : facts.pendingDownloadConfigHash.isSome = true ∧
              st₁.pathReconciliationComplete = true
          · obtain ⟨hbefore, hlib⟩ := hs.2.1 hflag.1 hflag.2
            have hzones : During inp s₀ (fun zone => zones zone ∨ zone = lib.zoneName) s :=
              hs.1.mono (fun zone hzone =>
                hzone.elim (hs.1.covered zone) (fun hzone => hzone ▸ hlib))
            refine (ih (i + 1) (by omega) st₁ _).conseq (fun _ h => h) (fun st' s h => ⟨h.1.mono
              (fun zone hzone => h.1.covered zone (.inl hzone)),
                fun hpending hlast hcomplete halive => ?_⟩)
              (fun s h => h.mono (fun zone hzone => h.covered zone (.inl hzone))) s hzones
            exact ⟨hbefore, List.forall_mem_cons.mpr
              ⟨h.1.covered _ (.inr rfl), (h.2 hpending hlast hcomplete halive).2⟩⟩
          · refine (ih (i + 1) (by omega) st₁ zones).weaken_post (fun st' s h =>
              ⟨h.1, fun hpending hlast hcomplete halive => ?_⟩) s hs.1
            exact absurd ⟨hpending, (h.2 hpending hlast hcomplete halive).1⟩ hflag

/-! ## the check and the promotion -/

/-- The cycle checks the path hash. -/
def CycleInput.checksPaths (inp : CycleInput) : Bool :=
  !inp.config.dryRun && inp.hasStateDb && !inp.libraries.isEmpty

/-- The check leaves the stored hash, or sets it where none is, or where its legacy form is. -/
def Checked (inp : CycleInput) (v v' : Option String) : Prop :=
  v' = v ∨ (inp.checksPaths = true ∧ v' = some inp.config.downloadConfigHash ∧
    (v = none ∨ (v = some inp.config.legacyDownloadConfigHash ∧
      inp.config.legacyDownloadConfigHash ≠ inp.config.downloadConfigHash)))

/-- The stored hash is another one. -/
def Drifted (inp : CycleInput) (v : Option String) : Prop :=
  inp.checksPaths = true ∧ ∃ stored, v = some stored ∧ stored ≠ inp.config.downloadConfigHash ∧
    stored ≠ inp.config.legacyDownloadConfigHash

variable {v : Option String}

theorem transition_hash (r : Rows) (hash : String) :
    r.transition { metadataUpdates := [(downloadConfigHashKey, hash)],
                   metadataDeletes := [pendingDownloadConfigHashKey] } downloadConfigHashKey =
      some hash := by
  have hne : downloadConfigHashKey ≠ pendingDownloadConfigHashKey := by decide
  simp [Rows.transition, delete_of_ne _ hne]

/-- Between the reads and writes of the check: what the branches leave. -/
theorem checkForCycle_triple (hchecks : inp.checksPaths = true) :
    Triple (On (fun r _ => r downloadConfigHashKey = v))
      (checkDownloadConfigHashForCycle env inp.config.downloadConfigHash
        inp.config.legacyDownloadConfigHash)
      (fun outcome => On (fun r _ => Checked inp v (r downloadConfigHashKey) ∧
        (outcome = .changed → Drifted inp v ∧ r downloadConfigHashKey = v)))
      (On (fun r _ => Checked inp v (r downloadConfigHashKey))) := by
  have hleft {E : World → Prop} {outcome : DownloadConfigHashOutcome} (h : outcome ≠ .changed) :
      Triple (On (fun r _ => r downloadConfigHashKey = v))
      (pure outcome : Cycle DownloadConfigHashOutcome)
        (fun outcome => On (fun r _ => Checked inp v (r downloadConfigHashKey) ∧
          (outcome = .changed → Drifted inp v ∧ r downloadConfigHashKey = v))) E :=
    Triple.pure (fun w hw => ⟨.inl hw, fun h' => absurd h' h⟩)
  have hset {E : World → Prop}
      (h : v = none ∨ (v = some inp.config.legacyDownloadConfigHash ∧
        inp.config.legacyDownloadConfigHash ≠ inp.config.downloadConfigHash)) :
      Triple (On (fun r _ => r downloadConfigHashKey = some inp.config.downloadConfigHash))
        (pure .unchanged : Cycle DownloadConfigHashOutcome)
        (fun outcome => On (fun r _ => Checked inp v (r downloadConfigHashKey) ∧
          (outcome = .changed → Drifted inp v ∧ r downloadConfigHashKey = v))) E :=
    Triple.pure (fun w hw => ⟨.inr ⟨hchecks, hw, h⟩, fun h' => by contradiction⟩)
  refine Triple.bind (getMetadata_triple.weaken_halt (fun w hw => .inl hw)) (fun stored => ?_)
  cases stored with
  | none => exact (hleft (by decide)).strengthen_pre (fun w hw => hw.1)
  | some stored =>
      refine Triple.pre (p := stored = v) (fun w hw => (hw.2 stored rfl).trans hw.1)
        (fun hstored => ?_)
      subst hstored
      have hset_triple {f : Rows → Rows} (hf : ∀ r, f r downloadConfigHashKey =
          some inp.config.downloadConfigHash) : Triple
            (On (fun r _ => r downloadConfigHashKey = stored ∧ ∀ x, some stored = some x →
              x = r downloadConfigHashKey))
            (write env f)
            (fun ok => if ok then
              On (fun r _ => r downloadConfigHashKey = some inp.config.downloadConfigHash)
              else On (fun r _ => r downloadConfigHashKey = stored))
            (On (fun r _ => Checked inp stored (r downloadConfigHashKey))) :=
        (write_triple (I := fun r _ => r downloadConfigHashKey = stored)
          (fun r _ _ => hf r)).conseq (fun w hw => hw.1) (fun _ _ h => h) (fun w hw => .inl hw)
      have hkeeps {α : Type} {x : Cycle α}
          (h : Keeps (On (fun r _ => r downloadConfigHashKey = stored)) x) : Triple
            (On (fun r _ => r downloadConfigHashKey = stored ∧ ∀ x, some stored = some x →
              x = r downloadConfigHashKey)) x
            (fun _ => On (fun r _ => r downloadConfigHashKey = stored))
            (On (fun r _ => Checked inp stored (r downloadConfigHashKey))) :=
        h.conseq (fun w hw => hw.1) (fun _ _ h => h) (fun w hw => .inl hw)
      cases stored with
      | none =>
          refine Triple.bind (hset_triple (fun r => set_self r _ _)) (fun ok => ?_)
          cases ok with
          | true => exact hset (.inl rfl)
          | false => exact hleft (by decide)
      | some stored =>
          refine Triple.ite (fun _ => ?_) (fun hne => Triple.ite (fun hlegacy => ?_)
            (fun hlegacy => ?_))
          · exact Triple.bind (hkeeps (write_keeps (deleteByPrefix_hash (by decide))))
              (fun _ => hleft (by decide))
          · refine Triple.bind (hset_triple (fun r => transition_hash r _)) (fun ok => ?_)
            cases ok with
            | true => exact hset (.inr ⟨congrArg some hlegacy, hlegacy ▸ hne⟩)
            | false => exact hleft (by decide)
          · refine Triple.bind (hkeeps (setMetadata_keeps (ignores_hash (by decide))))
              (fun ok => Triple.ite (fun _ => ?_) (fun _ => hleft (by decide)))
            refine Triple.bind
              (Triple.weaken_halt (setMetadata_keeps (ignores_hash (by decide)))
              (fun w hw => .inl hw)) (fun _ => ?_)
            exact Triple.pure (fun w hw => ⟨.inl hw, fun _ =>
              ⟨⟨hchecks, stored, rfl, hne, hlegacy⟩, hw⟩⟩)

theorem checkDownloadConfigHash_triple (inp : CycleInput) (env : Env) :
    Triple (On (fun r _ => r downloadConfigHashKey = v)) (checkDownloadConfigHash inp env)
      (fun outcome => On (fun r _ => Checked inp v (r downloadConfigHashKey) ∧
        (outcome = some .changed → Drifted inp v ∧ r downloadConfigHashKey = v)))
      (On (fun r _ => Checked inp v (r downloadConfigHashKey))) := by
  refine Triple.ite (fun hchecks => Triple.bind (checkForCycle_triple hchecks) (fun outcome => ?_))
    (fun _ => ?_)
  · exact Triple.pure (fun w hw => ⟨hw.1, fun h => hw.2 (Option.some.inj h)⟩)
  · exact Triple.pure (fun w hw => ⟨.inl hw, fun h => by contradiction⟩)

/-- What a cycle has to find, for the stored path hash to be right after it. -/
structure Prepared (inp : CycleInput) (s : PathWorld) : Prop where
  /-- Where no hash is stored, the rows are under the one of the cycle. -/
  unstored : inp.checksPaths = true → s.stored = none →
    ∀ zone, s.rows.Under inp.config.downloadConfigHash zone
  legacy : inp.checksPaths = true → s.stored = some inp.config.legacyDownloadConfigHash →
    inp.config.legacyDownloadConfigHash ≠ inp.config.downloadConfigHash →
      ∀ zone, s.rows.Under inp.config.downloadConfigHash zone
  /-- A cycle under another hash works on every library that has rows to move. -/
  selected : Drifted inp s.stored → ∀ zone, (∀ lib ∈ inp.active, lib.zoneName ≠ zone) →
    s.rows.Under inp.config.downloadConfigHash zone
  /-- Nothing ran under another hash since this one was stored. -/
  back : s.stored = some inp.config.downloadConfigHash → ∀ hash, s.latest = some hash →
    hash = inp.config.downloadConfigHash

theorem checked_during (hprepared : Prepared inp s₀) (hs : During inp s₀ zones s)
    (h : Checked inp s.stored (world.rows downloadConfigHashKey)) :
    During inp s₀ zones (s.follow inp writes world) := by
  rcases h with hsame | ⟨hchecks, hset, hv⟩
  · exact hs.moves (follow_moves inp writes hsame)
  · have hall : ∀ zone, s.rows.Under inp.config.downloadConfigHash zone := by
      rcases hs.within with hmoves | huniform
      · rcases hv with hv | ⟨hv, hne⟩
        · exact fun zone => hmoves.under zone
            (hprepared.unstored hchecks (hmoves.stored.symm.trans hv) zone)
        · exact fun zone => hmoves.under zone
            (hprepared.legacy hchecks (hmoves.stored.symm.trans hv) hne zone)
      · exact huniform.under
    exact ⟨.inr ⟨hset, fun zone => follow_under (hall zone)⟩,
      fun zone hzone => follow_under (hs.covered zone hzone)⟩

/-- After the check, the libraries that the cycle does not work on have no rows to move. -/
theorem checkOn_triple (hprepared : Prepared inp s₀) :
    Triple (During inp s₀ zones) (onPaths inp writes (checkDownloadConfigHash inp env))
      (fun outcome s => During inp s₀ zones s ∧ (outcome = some .changed →
        ∀ zone, (∀ lib ∈ inp.active, lib.zoneName ≠ zone) →
          s.rows.Under inp.config.downloadConfigHash zone))
      (During inp s₀ zones) := by
  intro s hs
  have hcheck := checkDownloadConfigHash_triple inp env s.world
    (rfl : s.world.rows downloadConfigHashKey = s.stored)
  unfold onPaths shadow
  cases hrun : checkDownloadConfigHash inp env s.world with
  | mk result world =>
      rw [hrun] at hcheck
      cases result with
      | error e => exact checked_during hprepared hs hcheck
      | ok outcome =>
          refine ⟨checked_during hprepared hs hcheck.1, fun hchanged zone hzone => ?_⟩
          have hdrifted : Drifted inp s.stored := (hcheck.2 hchanged).1
          refine follow_under ?_
          rcases hs.within with hmoves | huniform
          · rw [hmoves.stored] at hdrifted
            exact hmoves.under zone (hprepared.selected hdrifted zone hzone)
          · exact huniform.under zone

theorem promotePathReconciliation_result (inp : CycleInput) (env : Env) (facts : CycleFacts)
    (st : LoopState) (cancelled : Bool) :
    Triple (On (fun r _ => r downloadConfigHashKey = v))
      (promotePathReconciliation inp env facts st cancelled)
      (fun _ => On (fun r _ => r downloadConfigHashKey = v ∨
        (r downloadConfigHashKey = facts.pendingDownloadConfigHash ∧
          facts.pendingDownloadConfigHash.isSome = true ∧ st.pathReconciliationComplete = true ∧
            st.sessionExpired = false ∧ cancelled = false)))
      (On (fun r _ => r downloadConfigHashKey = v)) := by
  unfold promotePathReconciliation
  cases facts.pendingDownloadConfigHash with
  | none => exact Triple.pure (fun w hw => .inl hw)
  | some hash =>
      refine Triple.ite (fun hcond => ?_) (fun _ => Triple.pure (fun w hw => .inl hw))
      simp only [Bool.and_eq_true, Bool.not_eq_true'] at hcond
      refine Triple.bind (write_triple (J := fun r _ => r downloadConfigHashKey = some hash)
        (fun r _ _ => transition_hash r hash)) (fun ok => ?_)
      refine Triple.pure (fun w hw => ?_)
      cases ok with
      | true => exact .inr ⟨hw, rfl, hcond.1.1.1, hcond.1.1.2, hcond.1.2⟩
      | false => exact .inl hw

theorem promoteOn_triple (hpending : ∀ hash, facts.pendingDownloadConfigHash = some hash →
      hash = inp.config.downloadConfigHash) :
    Triple
      (fun s => During inp s₀ zones s ∧ (facts.pendingDownloadConfigHash.isSome = true →
        st.pathReconciliationComplete = true → st.sessionExpired = false → cancelled = false →
          ∀ zone, s.rows.Under inp.config.downloadConfigHash zone))
      (onPaths inp writes (promotePathReconciliation inp env facts st cancelled))
      (fun _ => During inp s₀ zones) (During inp s₀ zones) := by
  intro s ⟨hs, hall⟩
  have hpromote := promotePathReconciliation_result inp env facts st cancelled s.world
    (rfl : s.world.rows downloadConfigHashKey = s.stored)
  unfold onPaths shadow
  cases hrun : promotePathReconciliation inp env facts st cancelled s.world with
  | mk result world =>
      rw [hrun] at hpromote
      cases result with
      | error e => exact hs.moves (follow_moves inp writes hpromote)
      | ok u =>
          rcases hpromote with hsame | ⟨hset, hsome, hcomplete, halive, hcancelled⟩
          · exact hs.moves (follow_moves inp writes hsame)
          · have hrows := hall hsome hcomplete halive hcancelled
            obtain ⟨hash, hhash⟩ := Option.isSome_iff_exists.mp hsome
            refine ⟨.inr ⟨?_, fun zone => follow_under (hrows zone)⟩,
              fun zone _ => follow_under (hrows zone)⟩
            show world.rows downloadConfigHashKey = _
            rw [hset, hhash, hpending hash hhash]

theorem finishOn_keeps {last : Nat}
    (hpending : ∀ hash, facts.pendingDownloadConfigHash = some hash →
      hash = inp.config.downloadConfigHash)
    (hall : facts.pendingDownloadConfigHash.isSome = true → st.pathReconciliationComplete = true →
      st.sessionExpired = false → inp.isCancelled (last + 1) = false → ∀ zone, zones zone) :
    Keeps (During inp s₀ zones)
      (do
        let advanceSafe ← onPaths inp writes
          (finishReconciliation inp env facts st (inp.isCancelled last))
        onPaths inp writes
          (promotePathReconciliation inp env facts st (inp.isCancelled (last + 1)))
        return (⟨st.failedCount, st.sessionExpired, st.stats, advanceSafe⟩ : CycleResult)) := by
  refine Keeps.bind (onPaths_during finishReconciliation_leaves) (fun _ => ?_)
  refine Triple.bind ((promoteOn_triple hpending).strengthen_pre (fun s hs => ⟨hs, ?_⟩))
    (fun _ => Triple.pure (fun _ h => h))
  exact fun hsome hcomplete halive hcancelled zone =>
    hs.covered zone (hall hsome hcomplete halive hcancelled zone)

theorem pendingDownloadConfigHash_cycleFacts {enumOutcome : EnumConfigHashOutcome}
    {downloadOutcome : Option DownloadConfigHashOutcome} {hash : String}
    (h : (cycleFacts inp enumOutcome downloadOutcome).pendingDownloadConfigHash = some hash) :
    downloadOutcome = some .changed ∧ hash = inp.config.downloadConfigHash := by
  simp only [cycleFacts] at h
  split at h
  · next hchanged =>
      cases h
      exact ⟨hchanged, rfl⟩
  · contradiction

/-- **One cycle**: it leaves the stored hash and writes rows under its own, or its hash is stored
and every row is under it. -/
theorem runCycleOn_within (hprepared : Prepared inp s) :
    Within inp.config.downloadConfigHash s (runCycleOn inp env writes s).2 := by
  have hcycle : Keeps (During inp s (fun _ => False)) (runCycleOn inp env writes) := by
    refine Triple.bind (onPaths_during checkEnumConfigHash_leaves) (fun enumOutcome => ?_)
    refine Triple.bind (checkOn_triple hprepared) (fun downloadOutcome => ?_)
    have hpending {hash : String} (h : (cycleFacts inp enumOutcome
        downloadOutcome).pendingDownloadConfigHash = some hash) :=
      pendingDownloadConfigHash_cycleFacts h
    generalize cycleFacts inp enumOutcome downloadOutcome = facts at hpending ⊢
    -- the libraries that the cycle leaves alone have no rows to move, if it may promote
    refine Triple.conseq (Triple.bind (runLibrariesOn_triple (2 * inp.active.length + 1) inp.active
      0 (by omega) _ (fun zone => facts.pendingDownloadConfigHash.isSome = true ∧
        ∀ lib ∈ inp.active, lib.zoneName ≠ zone)) (fun st => ?_))
      (fun s₁ hs₁ => hs₁.1.mono (fun zone hzone => ?_)) (fun _ _ h => h)
      (fun s₁ hs₁ => hs₁.mono (fun _ h => h.elim))
    · intro s₁ ⟨hs₁, hloop⟩
      by_cases hgo : facts.pendingDownloadConfigHash.isSome = true ∧
          st.pathReconciliationComplete = true ∧ st.sessionExpired = false ∧
            inp.isCancelled (2 * inp.active.length + 1) = false
      · have hrows : During inp s (fun _ => True) s₁ := by
          refine hs₁.mono (fun zone _ => ?_)
          obtain ⟨hsome, hcomplete, halive, hcancelled⟩ := hgo
          by_cases hzone : ∃ lib ∈ inp.active, lib.zoneName = zone
          · obtain ⟨lib, hlib, rfl⟩ := hzone
            exact (hloop hsome hcancelled hcomplete halive).2 lib hlib
          · exact hs₁.covered zone ⟨hsome, fun lib hlib h => hzone ⟨lib, hlib, h⟩⟩
        refine (finishOn_keeps (fun hash h => (hpending h).2) (fun _ _ _ _ _ => trivial)).conseq
          (fun _ h => h) (fun _ s₂ h => h.mono (fun _ h => h.elim))
          (fun s₂ h => h.mono (fun zone _ => h.covered zone trivial)) s₁ hrows
      · exact (finishOn_keeps (fun hash h => (hpending h).2)
          (fun h₁ h₂ h₃ h₄ => absurd ⟨h₁, h₂, h₃, h₄⟩ hgo)).weaken_post
          (fun _ s₂ h => h.mono (fun _ h => h.elim)) s₁ hs₁
    · obtain ⟨hash, hhash⟩ := Option.isSome_iff_exists.mp hzone.1
      exact hs₁.2 (hpending hhash).1 zone hzone.2
  have hstart : During inp s (fun _ => False) s := ⟨.inl (.refl _ s), fun _ h => h.elim⟩
  exact (hcycle.snd hstart).within

/-! ## runs of cycles -/

/-- A property of every cycle of a run, with the state that it begins in. -/
def EachCycle (P : CycleRun → PathWorld → Prop) : List CycleRun → PathWorld → Prop
  | [], _ => True
  | c :: cycles, s => P c s ∧ EachCycle P cycles (c.run s)

/-- What the stored path hash is to say. -/
structure PathsHonest (c : CycleRun) (s : PathWorld) : Prop where
  /-- A cycle that finds its own hash has no rows to move. -/
  start : s.stored = some c.inp.config.downloadConfigHash → ∀ lib ∈ c.inp.active,
    s.rows.Under c.inp.config.downloadConfigHash lib.zoneName
  /-- A hash is stored over rows that are under it, in every library. -/
  stores : ∀ hash, (c.run s).stored = some hash → s.stored ≠ some hash →
    ∀ zone, (c.run s).rows.Under hash zone

/-- The rows are under the stored hash, unless something ran under another one since. -/
def Accounted (s : PathWorld) : Prop :=
  ∀ stored, s.stored = some stored → (∀ hash, s.latest = some hash → hash = stored) →
    ∀ zone, s.rows.Under stored zone

theorem Within.accounted (h : Within inp.config.downloadConfigHash s s')
    (hprepared : Prepared inp s) (hs : Accounted s) : Accounted s' := by
  intro stored hstored hlatest
  rcases h with hmoves | huniform
  · rw [hmoves.stored] at hstored
    rcases hmoves.latest with hrun | ⟨hsame, hrows⟩
    · -- the runs were under the hash that is stored
      obtain rfl := hlatest _ hrun
      exact fun zone => hmoves.under zone (hs _ hstored (hprepared.back hstored) zone)
    · rw [hsame] at hlatest
      rw [hrows]
      exact hs stored hstored hlatest
  · rw [huniform.stored] at hstored
    cases hstored
    exact huniform.under

/-- **The stored path hash covers every row, in every run whose cycles find what they need.** -/
theorem eachCycle_honest (cycles : List CycleRun) (s : PathWorld) (hs : Accounted s)
    (hprepared : EachCycle (fun c s => Prepared c.inp s) cycles s) :
    EachCycle PathsHonest cycles s := by
  induction cycles generalizing s with
  | nil => trivial
  | cons c cycles ih =>
      obtain ⟨hfirst, hrest⟩ := hprepared
      have hwithin : Within c.inp.config.downloadConfigHash s (c.run s) :=
        runCycleOn_within hfirst
      refine ⟨⟨fun hstored lib _ => ?_, fun hash hstored hother => ?_⟩,
        ih _ (hwithin.accounted hfirst hs) hrest⟩
      · exact hs _ hstored (hfirst.back hstored) lib.zoneName
      · rcases hwithin with hmoves | huniform
        · exact absurd (hmoves.stored ▸ hstored) hother
        · rw [huniform.stored] at hstored
          cases hstored
          exact huniform.under

/-- A cycle over the path hash `hash`. -/
def cycleUnder (hash : String) (zones : List String) : CycleInput where
  config := ⟨false, false, true, "e", hash, "legacy"⟩
  libraries := zones.map (⟨·, ["All"], false⟩)
  hasStateDb := true
  shutdown := none

/-- Every download run writes the row `x` of the library. -/
def writesOf (zone : String) : RowWrites where
  download _ := fun z id => if z = zone ∧ id = "x" then .writes else .keeps
  reconciliation _ := fun _ _ => .keeps

def writesNothing : RowWrites := ⟨fun _ _ _ => .keeps, fun _ _ _ => .keeps⟩

/-- A fresh database. -/
def PathWorld.fresh : PathWorld := ⟨.empty, fun _ _ => none, none⟩

/-- A complete reconciliation of the one library, and the hash is stored for it. -/
theorem eachCycle_honest_reconciled :
    let s : PathWorld := ⟨⟨fun key => if key = "config_hash" then some "h1" else none, 0, []⟩,
      fun zone id => if zone = "PrimarySync" ∧ id = "x" then some ⟨"h1", []⟩ else none, none⟩
    let c : CycleRun := ⟨cycleUnder "h2" ["PrimarySync"], Env.clean, writesNothing⟩
    (c.run s).stored = some "h2" ∧
      (c.run s).rows "PrimarySync" "x" = some ⟨"h1", ["h2"]⟩ ∧ EachCycle PathsHonest [c] s := by
  intro s c
  refine ⟨by decide +kernel, by decide +kernel, eachCycle_honest [c] s ?_ ⟨?_, trivial⟩⟩
  · intro stored hstored _ zone id placement hplacement
    cases hstored
    by_cases hrow : zone = "PrimarySync" ∧ id = "x"
    · rw [show s.rows zone id = some ⟨"h1", []⟩ from if_pos hrow] at hplacement
      cases hplacement
      exact .inl rfl
    · rw [show s.rows zone id = none from if_neg hrow] at hplacement
      contradiction
  · refine ⟨fun _ h => ?_, fun _ h _ => ?_, fun _ zone hzone id placement hplacement => ?_,
      fun h => ?_⟩
    · exact absurd h (by decide)
    · exact absurd h (by decide)
    · have hother : ¬(zone = "PrimarySync" ∧ id = "x") :=
        fun h => hzone _ List.mem_cons_self h.1.symm
      rw [show s.rows zone id = none from if_neg hother] at hplacement
      contradiction
    · exact absurd h (by decide)

/-- Two libraries, then one of them under other paths, then both again. -/
def deselected : List CycleRun :=
  [⟨cycleUnder "h1" ["PrimarySync", "SharedSync-1"], Env.clean, writesOf "SharedSync-1"⟩,
    ⟨cycleUnder "h2" ["PrimarySync"], Env.clean, writesNothing⟩]

def selectedAgain : CycleRun :=
  ⟨cycleUnder "h2" ["PrimarySync", "SharedSync-1"], Env.clean, writesNothing⟩

theorem eachCycle_last {P : CycleRun → PathWorld → Prop} {cycles : List CycleRun} {c : CycleRun}
    {s : PathWorld} (h : EachCycle P (cycles ++ [c]) s) : P c (runCyclesOn cycles s) := by
  induction cycles generalizing s with
  | nil => exact h.1
  | cons d cycles ih => exact ih h.2

/-- **A library that was not selected keeps its paths under the stored hash.** -/
theorem stored_hash_covers_unselected :
    ¬ ∀ cycles, EachCycle PathsHonest cycles PathWorld.fresh := by
  intro h
  have hstored : (runCyclesOn deselected .fresh).stored = some "h2" := by
    rw [PathWorld.stored, runCyclesOn_world]
    decide +kernel
  have hrow : (runCyclesOn deselected .fresh).rows "SharedSync-1" "x" = some ⟨"h1", []⟩ := by
    decide +kernel
  have hlast : (runCyclesOn deselected .fresh).rows.Under "h2" "SharedSync-1" :=
    (eachCycle_last (h (deselected ++ [selectedAgain]))).start hstored
      ⟨"SharedSync-1", ["All"], false⟩ (by decide)
  have hcovers : (⟨"h1", []⟩ : Placement).IsUnder "h2" := hlast "x" _ hrow
  cases hcovers with
  | inl hwritten => exact absurd hwritten (by decide)
  | inr hcovered => exact absurd hcovered List.not_mem_nil

end Kei.SyncCycle
