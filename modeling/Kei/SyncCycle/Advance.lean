import Kei.SyncCycle.Reconcile

/-!
# Kei.SyncCycle.Advance

When a cycle may report that the database token can advance.

The flag starts out true in a clean setting and every exit of the loop body
clears it unless the library's checkpoint was stored.  The one exit that does
not is the look for a shutdown before a library: it leaves the loop with the
flag as it is, so a cycle cut short there reports a database token that hides
the libraries it never reached.
-/

namespace Kei.SyncCycle

open Str
open Store
open Prog

variable {env : Env} {inp : CycleInput} {facts : CycleFacts} {lib : LibraryState}
  {position : Nat}

/-! ## what a clean cycle is -/

/-- The event of a stored checkpoint. -/
abbrev storedEvent (inp : CycleInput) (position : Nat) (lib : LibraryState)
    (key token : String) : Event :=
  .stored position lib.zoneName inp.config.enumConfigHash key token

/-- The library at position `i` was run and its checkpoint stored; a checkpoint of
its zone is still in the rows, as the active token or as a candidate. -/
structure Handled (inp : CycleInput) (i : Nat) (lib : LibraryState) (r : Rows)
    (new : List Event) : Prop where
  processed : ∃ source result, .download i lib.zoneName inp.config.enumConfigHash source
    lib.planIsStale (some result) ∈ new
  stored : ∃ key token, storedEvent inp i lib key token ∈ new
  durable : ∃ j key token, storedEvent inp j lib key token ∈ new ∧
    (r lib.syncTokenKey = some token ∨
      r (pendingZoneTokenKey inp.config.enumConfigHash lib.zoneName) = some token)

/-- A cycle from `w` to `w'` after which the database token may advance. -/
structure CleanCycle (inp : CycleInput) (w w' : World) : Prop where
  notDryRun : inp.config.dryRun = false
  notStale : ∀ lib ∈ inp.libraries, lib.planIsStale = false
  handled : ∃ new, w'.log = w.log ++ new ∧
    ∀ i lib, inp.active[i]? = some lib → Handled inp i lib w'.rows new

/-! ## assertions of the loop -/

/-- The row a cycle stores the library's checkpoint in. -/
def checkpointKey (inp : CycleInput) (facts : CycleFacts) (lib : LibraryState) : String :=
  if facts.reconciliationActive then
    pendingZoneTokenKey inp.config.enumConfigHash lib.zoneName
  else
    lib.syncTokenKey

/-- A checkpoint that this cycle stored for the library's zone is in its row. -/
def Held (inp : CycleInput) (facts : CycleFacts) (lib : LibraryState) (r : Rows)
    (new : List Event) : Prop :=
  ∃ j token, storedEvent inp j lib (checkpointKey inp facts lib) token ∈ new ∧
    r (checkpointKey inp facts lib) = some token

/-- What the loop body did for the library at position `i` when the flag survived it. -/
structure Done (inp : CycleInput) (facts : CycleFacts) (i : Nat) (lib : LibraryState) (r : Rows)
    (new : List Event) : Prop where
  processed : ∃ source result, .download i lib.zoneName inp.config.enumConfigHash source
    lib.planIsStale (some result) ∈ new
  stored : ∃ token, storedEvent inp i lib (checkpointKey inp facts lib) token ∈ new
  held : Held inp facts lib r new
  notCancelled : inp.isCancelled (2 * i + 1) = false
  hasDb : inp.hasStateDb = true

/-- If the flag is still set, the first `n` libraries are done. -/
def Upto (inp : CycleInput) (facts : CycleFacts) (l₀ : List Event) (n : Nat) (safe : Bool)
    (r : Rows) (l : List Event) : Prop :=
  ∃ new, l = l₀ ++ new ∧ (safe = true → ∀ i lib, i < n → inp.active[i]? = some lib →
    Done inp facts i lib r new)

/-- As `Upto`, in the middle of the library at position `n`, after its run. -/
def Began (inp : CycleInput) (facts : CycleFacts) (l₀ : List Event) (n : Nat)
    (lib : LibraryState) (safe : Bool) (r : Rows) (l : List Event) : Prop :=
  ∃ new, l = l₀ ++ new ∧
    (safe = true → ∀ i lib, i < n → inp.active[i]? = some lib → Done inp facts i lib r new) ∧
    ∃ source result, .download n lib.zoneName inp.config.enumConfigHash source lib.planIsStale
      (some result) ∈ new

variable {l₀ : List Event} {n : Nat} {safe : Bool} {r : Rows}

theorem Held.mono {new more : List Event} (h : Held inp facts lib r new) :
    Held inp facts lib r (new ++ more) := by
  obtain ⟨j, token, hmem, hrow⟩ := h
  exact ⟨j, token, List.mem_append_left _ hmem, hrow⟩

theorem Held.congr {r r' : Rows} {new : List Event} (h : Held inp facts lib r new)
    (hr : r' (checkpointKey inp facts lib) = r (checkpointKey inp facts lib)) :
    Held inp facts lib r' new := by
  obtain ⟨j, token, hmem, hrow⟩ := h
  exact ⟨j, token, hmem, hr.trans hrow⟩

theorem Done.change {i : Nat} {r r' : Rows} {new more : List Event}
    (h : Done inp facts i lib r new) (hheld : Held inp facts lib r' (new ++ more)) :
    Done inp facts i lib r' (new ++ more) := by
  obtain ⟨source, result, hp⟩ := h.processed
  obtain ⟨token, hs⟩ := h.stored
  exact ⟨⟨source, result, List.mem_append_left _ hp⟩, ⟨token, List.mem_append_left _ hs⟩, hheld,
    h.notCancelled, h.hasDb⟩

variable {new : List Event}

theorem Done.mono {i : Nat} (h : Done inp facts i lib r new) (more : List Event) :
    Done inp facts i lib r (new ++ more) := h.change h.held.mono

variable {l : List Event}

/-- Without a flag there is nothing to show but that the history grew. -/
theorem upto_cleared {m : Nat} (h : Upto inp facts l₀ m safe r l) :
    Upto inp facts l₀ n false r l := by
  obtain ⟨new, hl, -⟩ := h
  exact ⟨new, hl, fun hf => absurd hf Bool.false_ne_true⟩

theorem ne_note {key : String} (hk : IsNoteKey key) (zone hash : String) :
    syncTokenKey zone ≠ key ∧ pendingZoneTokenKey hash zone ≠ key := by
  constructor
  · rcases keyHead_of_isNoteKey hk with h | h | h | h
    all_goals exact ne_of_keyHead (keyHead_syncTokenKey zone) h (by decide)
  · refine pendingZoneTokenKey_ne_of_take ?_
    rcases hk with rfl | rfl | rfl | rfl | rfl | ⟨hash', zone', rfl⟩
    · decide
    · decide
    · decide
    · decide
    · decide
    · intro h
      have hhead := congrArg List.head? h
      rw [List.head?_take, if_neg (by decide)] at hhead
      exact absurd ((keyHead_inventoryAnchorKey hash' zone').symm.trans hhead) (by decide)

theorem checkpointKey_ne_note {key : String} (hk : IsNoteKey key) :
    checkpointKey inp facts lib ≠ key := by
  unfold checkpointKey
  split
  · exact (ne_note hk _ _).2
  · exact (ne_note hk _ "").1

theorem Done.note {key : String} (hk : IsNoteKey key) {i : Nat} {r r' : Rows}
    (hr : ∀ k, k ≠ key → r k = r' k) (h : Done inp facts i lib r new) :
    Done inp facts i lib r' new :=
  { h with held := h.held.congr (hr _ (checkpointKey_ne_note hk)).symm }

theorem upto_ignoresNotes : IgnoresNotes (Upto inp facts l₀ n safe) := by
  rintro key hk r r' l hr ⟨new, hl, h⟩
  exact ⟨new, hl, fun hs i lib hi hlib => (h hs i lib hi hlib).note hk hr⟩

theorem began_ignoresNotes : IgnoresNotes (Began inp facts l₀ n lib safe) := by
  rintro key hk r r' l hr ⟨new, hl, h, hb⟩
  exact ⟨new, hl, fun hs i lib hi hlib => (h hs i lib hi hlib).note hk hr, hb⟩

/-! ## storing a checkpoint -/

theorem pendingZoneTokenKey_inj {hash z z' : String}
    (h : pendingZoneTokenKey hash z = pendingZoneTokenKey hash z') : z = z' :=
  append_right_inj h

theorem syncTokenKey_ne_pending (zone hash zone' : String) :
    syncTokenKey zone ≠ pendingZoneTokenKey hash zone' :=
  ne_of_keyHead (keyHead_syncTokenKey zone) (keyHead_pendingZoneTokenKey hash zone') (by decide)

theorem isNoteKey_status {hold : Option String} {u : String × String}
    (h : u ∈ checkpointStatusRows hold) : IsNoteKey u.1 := (mem_statusRows h).imp_right .inl

/-- The transition of an advanced active checkpoint. -/
def advanceTransition (lib : LibraryState) (token : String) (hold : Option String) :
    CheckpointTransition where
  metadataUpdates := (lib.syncTokenKey, token) :: checkpointStatusRows hold
  metadataDeletes := []

theorem advanceTransition_self (r : Rows) (lib : LibraryState) (token : String)
    (hold : Option String) :
    r.transition (advanceTransition lib token hold) lib.syncTokenKey = some token := by
  refine updates_of_mem List.mem_cons_self (fun u hu hk => ?_) r
  rcases List.mem_cons.mp hu with rfl | hu
  · rfl
  · exact absurd hk.symm (ne_note (isNoteKey_status hu) lib.zoneName "").1

theorem advanceTransition_other (r : Rows) {lib : LibraryState} {token key : String}
    {hold : Option String} (hne : lib.syncTokenKey ≠ key)
    (hnote : ∀ k, IsNoteKey k → key ≠ k) :
    r.transition (advanceTransition lib token hold) key = r key := by
  refine transition_of_not_mem (fun u hu => ?_) List.not_mem_nil
  rcases List.mem_cons.mp hu with rfl | hu
  · exact hne
  · exact (hnote _ (isNoteKey_status hu)).symm

theorem checkpointKey_inj {other : LibraryState}
    (h : checkpointKey inp facts lib = checkpointKey inp facts other) :
    lib.zoneName = other.zoneName := by
  unfold checkpointKey at h
  split at h
  · exact pendingZoneTokenKey_inj h
  · exact syncTokenKey_inj h

/-- What storing a checkpoint of `lib` does to the rows of checkpoints. -/
structure StoresCheckpoint (inp : CycleInput) (facts : CycleFacts) (lib : LibraryState)
    (token : String) (f : Rows → Rows) : Prop where
  own : ∀ r, f r (checkpointKey inp facts lib) = some token
  others : ∀ r other, checkpointKey inp facts lib ≠ checkpointKey inp facts other →
    f r (checkpointKey inp facts other) = r (checkpointKey inp facts other)

variable {token : String} {f : Rows → Rows}

theorem Held.stored {other : LibraryState} (hf : StoresCheckpoint inp facts lib token f)
    (h : Held inp facts other r new) :
    Held inp facts other (f r)
      (new ++ [storedEvent inp position lib (checkpointKey inp facts lib) token]) := by
  by_cases hkey : checkpointKey inp facts lib = checkpointKey inp facts other
  · refine ⟨position, token, List.mem_append_right _ ?_, ?_⟩
    · have hzone := checkpointKey_inj hkey
      simp [storedEvent, hkey, hzone]
    · rw [← hkey]
      exact hf.own r
  · exact h.mono.congr (hf.others r other hkey)

/-- The library at position `n` joins the done ones once its checkpoint is in its row. -/
theorem began_stored (hlib : inp.active[n]? = some lib) (hdb : inp.hasStateDb = true)
    (hlook : inp.isCancelled (2 * n + 1) = false) (hf : StoresCheckpoint inp facts lib token f)
    (h : Began inp facts l₀ n lib safe r l) :
    Upto inp facts l₀ (n + 1) safe (f r)
      (l ++ [storedEvent inp n lib (checkpointKey inp facts lib) token]) := by
  obtain ⟨new, rfl, hdone, source, result, hrun⟩ := h
  refine ⟨new ++ [storedEvent inp n lib (checkpointKey inp facts lib) token],
    List.append_assoc _ _ _, fun hsafe i other hi hother => ?_⟩
  rcases Nat.lt_succ_iff_lt_or_eq.mp hi with hi | rfl
  · have hh := hdone hsafe i other hi hother
    exact hh.change (hh.held.stored hf)
  · rw [hlib] at hother
    cases hother
    have hnew : storedEvent inp i lib (checkpointKey inp facts lib) token ∈
        new ++ [storedEvent inp i lib (checkpointKey inp facts lib) token] :=
      List.mem_append_right _ List.mem_cons_self
    exact ⟨⟨source, result, List.mem_append_left _ hrun⟩, ⟨token, hnew⟩,
      ⟨i, token, hnew, hf.own r⟩, hlook, hdb⟩

theorem began_cleared (h : Began inp facts l₀ n lib safe r l) :
    Upto inp facts l₀ (n + 1) false r l := by
  obtain ⟨new, hl, -⟩ := h
  exact ⟨new, hl, fun hf => absurd hf Bool.false_ne_true⟩

/-- What the loop knows after `n` libraries: the flag is not set again, and if it
is still set every library so far is done. -/
def After (inp : CycleInput) (facts : CycleFacts) (l₀ : List Event) (n : Nat)
    (before after : Bool) (r : Rows) (l : List Event) : Prop :=
  Upto inp facts l₀ n after r l ∧ (after = true → before = true)

theorem after_cleared (w : World) (hw : On (Began inp facts l₀ n lib safe) w) :
    On (After inp facts l₀ (n + 1) safe false) w :=
  ⟨began_cleared hw, fun hf => absurd hf Bool.false_ne_true⟩

variable {st : LoopState}

/-- A write that stores the library's checkpoint, and the event that says so. -/
theorem storeWrite_triple {key token : String} (hkey : checkpointKey inp facts lib = key)
    (hlib : inp.active[n]? = some lib) (hdb : inp.hasStateDb = true)
    (hlook : inp.isCancelled (2 * n + 1) = false) (hf : StoresCheckpoint inp facts lib token f) :
    Triple (On (Began inp facts l₀ n lib st.dbSyncTokenAdvanceSafe))
      (do
        if ← write env f then
          record (storedEvent inp n lib key token)
          return st
        else
          return st.storeFailed)
      (fun st' => On (After inp facts l₀ (n + 1) st.dbSyncTokenAdvanceSafe
        st'.dbSyncTokenAdvanceSafe))
      (fun _ => True) := by
  subst hkey
  have hwrite : Triple _ (write env f) _ _ := (write_triple (f := f)
    (I := Began inp facts l₀ n lib st.dbSyncTokenAdvanceSafe)
    (J := fun r l => Upto inp facts l₀ (n + 1) st.dbSyncTokenAdvanceSafe r
      (l ++ [storedEvent inp n lib (checkpointKey inp facts lib) token]))
    (fun r l hr => began_stored hlib hdb hlook hf hr))
  refine Triple.bind (hwrite.weaken_halt (fun _ _ => trivial)) (fun ok => ?_)
  cases ok with
  | false => exact Triple.pure after_cleared
  | true =>
      exact Triple.bind (R := fun _ => On (Upto inp facts l₀ (n + 1) st.dbSyncTokenAdvanceSafe))
        (Triple.modify (fun w hw => hw)) (fun _ => Triple.pure (fun w hw => ⟨hw, id⟩))

theorem storesCheckpoint_candidate (hrec : facts.reconciliationActive = true) :
    StoresCheckpoint inp facts lib token
      (fun r => r.set (pendingZoneTokenKey inp.config.enumConfigHash lib.zoneName) token) := by
  have hkey : checkpointKey inp facts lib =
      pendingZoneTokenKey inp.config.enumConfigHash lib.zoneName := if_pos hrec
  refine ⟨fun r => ?_, fun r other hne => ?_⟩
  · rw [hkey, set_self]
  · rw [set_of_ne r (hkey ▸ hne.symm)]

theorem storesCheckpoint_active {hold : Option String}
    (hrec : ¬ facts.reconciliationActive = true) :
    StoresCheckpoint inp facts lib token
      (fun r => r.transition (advanceTransition lib token hold)) := by
  have hkey : checkpointKey inp facts lib = lib.syncTokenKey := if_neg hrec
  refine ⟨fun r => ?_, fun r other hne => ?_⟩
  · rw [hkey, advanceTransition_self]
  · exact advanceTransition_other r (hkey ▸ hne) (fun k hk => checkpointKey_ne_note hk)

theorem storeAdvance_triple (hlib : inp.active[n]? = some lib)
    (hlook : inp.isCancelled (2 * n + 1) = false) :
    Triple (On (Began inp facts l₀ n lib st.dbSyncTokenAdvanceSafe))
      (storeAdvance inp env facts n lib token st)
      (fun st' => On (After inp facts l₀ (n + 1) st.dbSyncTokenAdvanceSafe
        st'.dbSyncTokenAdvanceSafe))
      (fun _ => True) := by
  refine Triple.ite (fun hdb => ?_) (fun _ => Triple.pure after_cleared)
  refine Triple.ite (fun hrec => ?_) (fun hrec => ?_)
  · exact storeWrite_triple (if_pos hrec) hlib hdb hlook (storesCheckpoint_candidate hrec)
  · exact storeWrite_triple (if_neg hrec) hlib hdb hlook (storesCheckpoint_active hrec)

/-- Acting on a decision: the flag survives only an advanced checkpoint. -/
theorem storeCheckpoint_triple {decision : SourceCheckpointDecision}
    (hlib : inp.active[n]? = some lib)
    (hlook : decision.isAdvance = true → inp.isCancelled (2 * n + 1) = false) :
    Triple (On (Began inp facts l₀ n lib st.dbSyncTokenAdvanceSafe))
      (storeCheckpoint inp env facts n lib decision st)
      (fun st' => On (fun r l =>
        After inp facts l₀ (n + 1) st.dbSyncTokenAdvanceSafe st'.dbSyncTokenAdvanceSafe r l ∧
          (st'.dbSyncTokenAdvanceSafe = true → decision.isAdvance = true)))
      (fun _ => True) := by
  cases decision with
  | advance token basis =>
      exact (storeAdvance_triple hlib (hlook rfl)).weaken_post (fun _ _ h => ⟨h, fun _ => rfl⟩)
  | preserve reason recovery =>
      refine (storePreserve_keeps began_ignoresNotes.status
          began_ignoresNotes.recovery).conseq (fun _ h => h) (fun st' w hw => ?_)
        (fun _ _ => trivial)
      have hflag : st'.dbSyncTokenAdvanceSafe = false := hw.2
      rw [On, hflag]
      exact ⟨after_cleared w hw.1, fun hf => absurd hf Bool.false_ne_true⟩

/-! ## the loop -/

theorem finishLibrary_triple {reason : Option FullEnumerationReason} {result : SyncResult}
    {basis : CheckpointBasis} (hlib : inp.active[n]? = some lib) :
    Triple (On (Began inp facts l₀ n lib st.dbSyncTokenAdvanceSafe))
      (finishLibrary inp env facts n lib reason result basis (inp.isCancelled (2 * n + 1)) st)
      (fun p => On (fun r l =>
        After inp facts l₀ (n + 1) st.dbSyncTokenAdvanceSafe p.1.dbSyncTokenAdvanceSafe r l ∧
          (p.2 = true → p.1.dbSyncTokenAdvanceSafe = false)))
      (fun _ => True) := by
  refine Triple.bind (storeCheckpoint_triple hlib
    (fun hadv => (checkpointDecision_isAdvance hadv).1)) (fun st' => ?_)
  cases hout : result.outcome with
  | success => exact Triple.pure (fun w hw => ⟨hw.1, fun hf => absurd hf Bool.false_ne_true⟩)
  | partialFailure k =>
      exact Triple.pure (fun w hw => ⟨hw.1, fun hf => absurd hf Bool.false_ne_true⟩)
  | sessionExpired k =>
      refine Triple.pure (fun w hw => ⟨hw.1, fun _ => ?_⟩)
      refine Bool.eq_false_iff.mpr (fun hflag => ?_)
      have hdec := (checkpointDecision_isAdvance (hw.2 hflag)).2.2.session
      rw [hout] at hdec
      exact Bool.noConfusion hdec

theorem download_began {mode : SyncMode} {source : TokenSource} :
    Triple (On (Upto inp facts l₀ n safe)) (downloadPhotosWithSync inp env n lib mode source)
      (fun _ => On (Began inp facts l₀ n lib safe)) (fun _ => True) := by
  refine (downloadPhotosWithSync_triple (J := fun _ => Began inp facts l₀ n lib safe)
    (E := fun _ _ => True) (fun result _ r l hr => ?_) (fun _ _ _ => trivial)).weaken_halt
    (fun _ _ => trivial)
  obtain ⟨new, rfl, hdone⟩ := hr
  exact ⟨_, List.append_assoc _ _ _,
    fun hsafe i other hi hother => (hdone hsafe i other hi hother).mono _,
    source, result, List.mem_append_right _ List.mem_cons_self⟩

theorem began_keepsRuns : KeepsRuns (Began inp facts l₀ n lib safe) inp n lib := by
  rintro r l source result ⟨new, rfl, hdone, source', result', hrun⟩
  exact ⟨_, List.append_assoc _ _ _,
    fun hsafe i other hi hother => (hdone hsafe i other hi hother).mono _,
    source', result', List.mem_append_left _ hrun⟩

theorem keeps_weaken {α : Type} {x : Cycle α} {I : Rows → List Event → Prop}
    (h : Keeps (On I) x) : Triple (On I) x (fun _ => On I) (fun _ => True) :=
  h.weaken_halt (fun _ _ => trivial)

/-- **One library**: the flag survives only if its checkpoint was stored, and the
loop stops only with the flag cleared. -/
theorem runLibrary_triple (hlib : inp.active[n]? = some lib) :
    Triple (On (Upto inp facts l₀ n st.dbSyncTokenAdvanceSafe)) (runLibrary inp env facts n lib st)
      (fun p => On (fun r l =>
        After inp facts l₀ (n + 1) st.dbSyncTokenAdvanceSafe p.1.dbSyncTokenAdvanceSafe r l ∧
          (p.2 = true → p.1.dbSyncTokenAdvanceSafe = false)))
      (fun _ => True) := by
  refine Triple.bind (keeps_weaken readPendingZoneToken_keeps) (fun pending => ?_)
  refine Triple.bind (keeps_weaken chooseSyncMode_keeps) (fun decision => ?_)
  refine Triple.bind (keeps_weaken (persistFullEnumerationReason_keeps upto_ignoresNotes.reason))
    (fun _ => ?_)
  refine Triple.bind (reconcilePaths_triple.weaken_halt (fun _ _ => trivial)) (fun st' => ?_)
  refine Triple.pre (p := st'.dbSyncTokenAdvanceSafe = st.dbSyncTokenAdvanceSafe)
    (fun w hw => hw.2) (fun hflag => ?_)
  rw [← hflag]
  refine Triple.bind (download_began.strengthen_pre (fun w hw => hw.1)) (fun inventory => ?_)
  refine Triple.bind (keeps_weaken (bridgeInventory_keeps began_keepsRuns)) (fun p => ?_)
  exact Triple.bind (keeps_weaken (updateInventoryAnchorForCycle_keeps began_ignoresNotes.anchor))
    (fun _ => finishLibrary_triple hlib)

/-- **The loop**: it gets through the first `k` of its libraries, and it only
leaves one out when it sees a shutdown before it. -/
theorem runLibraries_triple (l₀ : List Event) :
    ∀ (libs : List LibraryState) (n : Nat) (st : LoopState),
      (∀ j lib, libs[j]? = some lib → inp.active[n + j]? = some lib) →
      Triple (On (Upto inp facts l₀ n st.dbSyncTokenAdvanceSafe))
        (runLibraries inp env facts n libs st)
        (fun st' => On (fun r l => ∃ k ≤ libs.length,
          After inp facts l₀ (n + k) st.dbSyncTokenAdvanceSafe st'.dbSyncTokenAdvanceSafe r l ∧
            (k < libs.length → inp.isCancelled (2 * (n + k)) = true)))
        (fun _ => True) := by
  intro libs
  induction libs with
  | nil =>
      intro n st _
      exact Triple.pure
        (fun w hw => ⟨0, Nat.le_refl _, ⟨hw, id⟩, fun h => absurd h (Nat.lt_irrefl 0)⟩)
  | cons lib rest ih =>
      intro n st hlibs
      refine Triple.ite (fun hcancel => ?_) (fun _ => ?_)
      · exact Triple.pure (fun w hw => ⟨0, Nat.zero_le _, ⟨hw, id⟩, fun _ => hcancel⟩)
      refine Triple.bind (runLibrary_triple (hlibs 0 lib rfl)) (fun p => ?_)
      obtain ⟨st', stop⟩ := p
      refine Triple.ite (fun hstop => ?_) (fun _ => ?_)
      · -- the session expired: the flag is gone, so the rest does not matter
        refine Triple.pure (fun w hw => ?_)
        have hflag : st'.dbSyncTokenAdvanceSafe = false := hw.2 hstop
        refine ⟨(lib :: rest).length, Nat.le_refl _, ⟨?_, hw.1.2⟩, fun h => absurd h
          (Nat.lt_irrefl _)⟩
        rw [hflag]
        exact upto_cleared hw.1.1
      · refine Triple.pre (p := st'.dbSyncTokenAdvanceSafe = true →
          st.dbSyncTokenAdvanceSafe = true) (fun w hw => hw.1.2) (fun hmono => ?_)
        have hstep (j : Nat) : n + 1 + j = n + (j + 1) := by omega
        have hrest := ih (n + 1) st'
          (fun j other hj => by rw [hstep]; exact hlibs (j + 1) other hj)
        refine hrest.conseq (fun w hw => hw.1.1) (fun a w hw => ?_) (fun _ h => h)
        obtain ⟨k, hk, hafter, hcut⟩ := hw
        rw [hstep] at hafter hcut
        exact ⟨k + 1, Nat.succ_le_succ hk, ⟨hafter.1, fun hf => hmono (hafter.2 hf)⟩,
          fun hlt => hcut (Nat.lt_of_succ_lt_succ hlt)⟩

/-! ## the end of the cycle -/

/-- If the flag is set, every active library is handled. -/
def Finished (inp : CycleInput) (l₀ : List Event) (safe : Bool) (r : Rows) (l : List Event) :
    Prop :=
  ∃ new, l = l₀ ++ new ∧
    (safe = true → ∀ i lib, inp.active[i]? = some lib → Handled inp i lib r new)

theorem Done.handled {i : Nat} (h : Done inp facts i lib r new) : Handled inp i lib r new := by
  obtain ⟨token, hstored⟩ := h.stored
  obtain ⟨j, held, hmem, hrow⟩ := h.held
  refine ⟨h.processed, ⟨_, token, hstored⟩, j, _, held, hmem, ?_⟩
  unfold checkpointKey at hrow
  split at hrow
  · exact .inr hrow
  · exact .inl hrow

theorem finished_cleared (h : Upto inp facts l₀ n safe r l) : Finished inp l₀ false r l := by
  obtain ⟨new, hl, -⟩ := h
  exact ⟨new, hl, fun hf => absurd hf Bool.false_ne_true⟩

theorem finished_of_upto (h : Upto inp facts l₀ inp.active.length safe r l) :
    Finished inp l₀ safe r l := by
  obtain ⟨new, hl, hdone⟩ := h
  refine ⟨new, hl, fun hs i lib hlib => (hdone hs i lib ?_ hlib).handled⟩
  exact (List.getElem?_eq_some_iff.mp hlib).1

theorem finished_ignoresNotes : IgnoresNotes (Finished inp l₀ safe) := by
  rintro key hk r r' l hr ⟨new, hl, h⟩
  refine ⟨new, hl, fun hs i lib hlib => ?_⟩
  obtain ⟨hp, hst, j, k, token, hmem, hrow⟩ := h hs i lib hlib
  have hactive : r lib.syncTokenKey = r' lib.syncTokenKey := hr _ (ne_note hk _ "").1
  refine ⟨hp, hst, j, k, token, hmem, ?_⟩
  rwa [← hactive, ← hr _ (ne_note hk _ _).2]

theorem finished_promotion {cs : List (LibraryState × String)}
    (hrec : facts.reconciliationActive = true) (hlibs : cs.map (·.1) = inp.active)
    (hcand : ∀ c ∈ cs, r (pendingZoneTokenKey inp.config.enumConfigHash c.1.zoneName) = some c.2)
    (h : Upto inp facts l₀ inp.active.length true r l) :
    Finished inp l₀ true (r.transition (promotionTransition inp.config.enumConfigHash cs))
      (l ++ [.promoted inp.config.enumConfigHash (promotedKeys inp.config.enumConfigHash cs)]) := by
  obtain ⟨new, rfl, hdone⟩ := h
  refine ⟨_, List.append_assoc _ _ _, fun _ i lib hlib => ?_⟩
  have hi : i < inp.active.length := (List.getElem?_eq_some_iff.mp hlib).1
  have hd := hdone rfl i lib hi hlib
  have hh := (hd.mono [.promoted inp.config.enumConfigHash
    (promotedKeys inp.config.enumConfigHash cs)]).handled
  have hmem : lib ∈ cs.map (·.1) := hlibs ▸ List.mem_of_getElem? hlib
  obtain ⟨c, hc, rfl⟩ := List.mem_map.mp hmem
  obtain ⟨j, token, hstored, hrow⟩ := hd.held
  have hkey : checkpointKey inp facts c.1 =
      pendingZoneTokenKey inp.config.enumConfigHash c.1.zoneName := if_pos hrec
  rw [hkey, hcand c hc] at hrow
  refine ⟨hh.processed, hh.stored, j, _, token, List.mem_append_left _ hstored, .inl ?_⟩
  rw [promotion_token hcand hc, hrow]

theorem promoteReconciliation_finished (hrec : facts.reconciliationActive = true) :
    Triple (On (Upto inp facts l₀ inp.active.length true)) (promoteReconciliation inp env)
      (fun b => On (Finished inp l₀ b)) (fun _ => True) := by
  refine (promoteReconciliation_rule (J := Finished inp l₀) (fun _ _ => finished_cleared)
    (fun r l cs h hlibs hcs => ?_)).weaken_halt (fun _ _ => trivial)
  exact finished_promotion hrec hlibs (fun c hc => (hcs c hc).2) h

theorem finishReconciliation_triple (l₀ : List Event) {cancelled : Bool} :
    Triple (On (Upto inp facts l₀ inp.active.length st.dbSyncTokenAdvanceSafe))
      (finishReconciliation inp env facts st cancelled)
      (fun b => On (fun r l => Finished inp l₀ b r l ∧
        (b = true → st.dbSyncTokenAdvanceSafe = true)))
      (fun _ => True) := by
  refine Triple.ite (fun hgo => ?_)
    (fun _ => Triple.pure (fun w hw => ⟨finished_of_upto hw, id⟩))
  simp only [Bool.and_eq_true] at hgo
  have hrec : facts.reconciliationActive = true := hgo.1.1.1.1
  have hflag : st.dbSyncTokenAdvanceSafe = true := hgo.1.1.1.2
  rw [hflag]
  exact (promoteReconciliation_finished hrec).weaken_post (fun _ _ h => ⟨h, fun _ => rfl⟩)

/-! ## the whole cycle -/

theorem log_ignores (key : String) : Ignores (fun _ l => l = l₀) key := fun _ _ _ _ h => h

/-- The shutdown is first seen right before an active library. -/
def ShutdownSkips (inp : CycleInput) : Prop :=
  ∃ i < inp.active.length, inp.isCancelled (2 * i) = true ∧
    ∀ j < i, inp.isCancelled (2 * j + 1) = false

theorem upto_all {k : Nat}
    (hclean : ¬ ShutdownSkips inp ∨ inp.hasStateDb = false ∧ inp.isCancelled 0 = false)
    (hk : k ≤ inp.active.length) (h : Upto inp facts l₀ k safe r l)
    (hcut : k < inp.active.length → inp.isCancelled (2 * k) = true) :
    Upto inp facts l₀ inp.active.length safe r l := by
  rcases Nat.lt_or_eq_of_le hk with hlt | rfl
  · obtain ⟨new, hl, hdone⟩ := h
    refine ⟨new, hl, fun hs => ?_⟩
    have hbefore (j : Nat) (hj : j < k) : inp.isCancelled (2 * j + 1) = false ∧
        inp.hasStateDb = true := by
      have hget := List.getElem?_eq_getElem (Nat.lt_trans hj hlt)
      have hd := hdone hs j _ hj hget
      exact ⟨hd.notCancelled, hd.hasDb⟩
    rcases hclean with hskip | ⟨hdb, hzero⟩
    · exact absurd ⟨k, hlt, hcut hlt, fun j hj => (hbefore j hj).1⟩ hskip
    · rcases Nat.eq_zero_or_pos k with rfl | hpos
      · rw [Nat.mul_zero, hzero] at hcut
        exact absurd (hcut hlt) Bool.false_ne_true
      · rw [(hbefore 0 hpos).2] at hdb
        exact Bool.noConfusion hdb
  · exact h

/-- The flag starts out false in a dry run and with a stale plan. -/
theorem start_advanceSafe (h : (LoopState.start inp facts).dbSyncTokenAdvanceSafe = true) :
    inp.config.dryRun = false ∧ ∀ lib ∈ inp.libraries, lib.planIsStale = false := by
  simp only [LoopState.start, Bool.and_eq_true, Bool.not_eq_true'] at h
  refine ⟨h.1.1, fun lib hlib => ?_⟩
  have hany := h.1.2
  simp only [List.any_eq_false, Bool.not_eq_true] at hany
  exact hany lib hlib

theorem finishReconciliation_monotone {cancelled : Bool} :
    Triple (fun _ => True) (finishReconciliation inp env facts st cancelled)
      (fun b _ => b = true → st.dbSyncTokenAdvanceSafe = true) (fun _ => True) := by
  refine Triple.ite (fun hgo => Triple.of_post (fun _ _ _ => ?_) (fun _ => trivial))
    (fun _ => Triple.pure (fun _ _ h => h))
  simp only [Bool.and_eq_true] at hgo
  exact hgo.1.1.1.2

/-- Nothing cuts the cycle short without clearing the flag. -/
def FlagKept (inp : CycleInput) : Prop :=
  ¬ ShutdownSkips inp ∨ inp.hasStateDb = false ∧ inp.isCancelled 0 = false

theorem runCycle_triple (l₀ : List Event) :
    Triple (On (fun _ l => l = l₀)) (runCycle inp env)
      (fun result => On (fun r l =>
        (FlagKept inp → Finished inp l₀ result.dbSyncTokenAdvanceSafe r l) ∧
        (result.dbSyncTokenAdvanceSafe = true → inp.config.dryRun = false ∧
          ∀ lib ∈ inp.libraries, lib.planIsStale = false)))
      (fun _ => True) := by
  refine Triple.bind (keeps_weaken (checkEnumConfigHash_keeps (log_ignores _) (log_ignores _)
    (log_ignores _) (fun _ _ h => h) (fun _ _ h => h))) (fun enumOutcome => ?_)
  refine Triple.bind (keeps_weaken (checkDownloadConfigHash_keeps (fun key _ => log_ignores key)
    (fun _ _ h => h))) (fun downloadOutcome => ?_)
  refine Triple.bind ((runLibraries_triple l₀ inp.active 0
    (LoopState.start inp (cycleFacts inp enumOutcome downloadOutcome))
    (fun j lib hj => by rwa [Nat.zero_add])).strengthen_pre (fun w hw => ?_)) (fun st => ?_)
  · exact ⟨[], by rw [hw, List.append_nil], fun _ i lib hi => absurd hi (Nat.not_lt_zero i)⟩
  refine Triple.pre (p := st.dbSyncTokenAdvanceSafe = true → inp.config.dryRun = false ∧
    ∀ lib ∈ inp.libraries, lib.planIsStale = false) (fun w hw => ?_) (fun hstart => ?_)
  · obtain ⟨k, -, hafter, -⟩ := hw
    exact fun hf => start_advanceSafe (hafter.2 hf)
  by_cases hkept : FlagKept inp
  · refine Triple.bind ((finishReconciliation_triple l₀).strengthen_pre (fun w hw => ?_))
      (fun safe => ?_)
    · obtain ⟨k, hk, hafter, hcut⟩ := hw
      rw [Nat.zero_add] at hafter hcut
      exact upto_all hkept hk hafter.1 hcut
    refine Triple.pre (p := safe = true → st.dbSyncTokenAdvanceSafe = true) (fun w hw => hw.2)
      (fun hsafe => ?_)
    refine Triple.bind ((keeps_weaken (promotePathReconciliation_keeps
      finished_ignoresNotes.path finished_ignoresNotes.pendingPath)).strengthen_pre
      (fun w hw => hw.1)) (fun _ => ?_)
    exact Triple.pure (fun w hw => ⟨fun _ => hw, fun hf => hstart (hsafe hf)⟩)
  · refine Triple.bind (finishReconciliation_monotone.strengthen_pre (fun _ _ => trivial))
      (fun safe => ?_)
    refine Triple.pre (p := safe = true → st.dbSyncTokenAdvanceSafe = true) (fun w hw => hw)
      (fun hsafe => ?_)
    refine Triple.bind (R := fun _ _ => True) (Triple.of_post (fun _ _ => trivial)
      (fun _ => trivial)) (fun _ => ?_)
    exact Triple.pure (fun w _ => ⟨fun h => absurd h hkept, fun hf => hstart (hsafe hf)⟩)

theorem start_of_advanceSafe {w w' : World} {result : CycleResult}
    (hrun : runCycle inp env w = (.ok result, w')) (hsafe : result.dbSyncTokenAdvanceSafe = true) :
    inp.config.dryRun = false ∧ ∀ lib ∈ inp.libraries, lib.planIsStale = false :=
  ((runCycle_triple w.log).ok (s := w) rfl hrun).2 hsafe

theorem cleanCycle_of_advanceSafe (hkept : FlagKept inp) {w w' : World} {result : CycleResult}
    (hrun : runCycle inp env w = (.ok result, w')) (hsafe : result.dbSyncTokenAdvanceSafe = true) :
    CleanCycle inp w w' := by
  obtain ⟨hfinished, hstart⟩ := (runCycle_triple w.log).ok (s := w) rfl hrun
  obtain ⟨new, hl, hdone⟩ := hfinished hkept
  exact ⟨(hstart hsafe).1, (hstart hsafe).2, new, hl, hdone hsafe⟩

end Kei.SyncCycle
